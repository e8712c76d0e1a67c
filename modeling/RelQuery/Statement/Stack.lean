import RelQuery.Statement.Basic

/-!
# The active statement and the suspended ones

One statement is under construction at a time.  Opening another one in between suspends it, and
finishing or giving up that other one brings it back.

* `StatementStack` is the statement under construction and the suspended ones.  It carries the proof
  that nothing is suspended unless something is under construction, and each change keeps that.
* `StatementStack.begin`, `replace` and `pop` are the changes.
* **`StatementStack.toList_eq_iff`** — a stack is the list of its statements, and the changes are
  changes at the head of it.
-/

namespace RelQuery

/-- The statement under construction, and those that are suspended until it is done with. -/
structure StatementStack where
  active : Option Statement
  /-- The suspended statements, the one that comes back first at the head. -/
  held : List Statement
  settled : active = none → held = []

namespace StatementStack

/-- No statement at all. -/
def empty : StatementStack where
  active := none
  held := []
  settled _ := rfl

/-! ## Changes -/

/-- Start a statement, which suspends the active one. -/
def begin (stack : StatementStack) (statement : Statement) : StatementStack where
  active := some statement
  held := stack.active.toList ++ stack.held
  settled := nofun

/-- Put a statement in the place of the active one. -/
def replace (stack : StatementStack) (statement : Statement) : StatementStack where
  active := some statement
  held := stack.held
  settled := nofun

/-- Go back to the statement that the active one has suspended. -/
def pop (stack : StatementStack) : StatementStack where
  active := stack.held.head?
  held := stack.held.tail
  settled h := by rw [List.head?_eq_none_iff.mp h, List.tail_nil]

/-! ## As a list -/

/-- All statements, innermost first. -/
def toList (stack : StatementStack) : List Statement := stack.active.toList ++ stack.held

/-- The stack of a list of statements, innermost first. -/
def ofList (statements : List Statement) : StatementStack where
  active := statements.head?
  held := statements.tail
  settled h := by rw [List.head?_eq_none_iff.mp h, List.tail_nil]

instance : Coe (List Statement) StatementStack := ⟨ofList⟩

/-- The empty list is a stack, too, where nothing says that it is one of statements. -/
instance {α : Type} : CoeDep (List α) [] StatementStack := ⟨empty⟩

@[simp] theorem toList_ofList (statements : List Statement) :
    (ofList statements).toList = statements := by
  cases statements <;> rfl

/-- Without an active statement there is none at all. -/
@[simp] theorem ofList_toList (stack : StatementStack) : ofList stack.toList = stack := by
  obtain ⟨_ | statement, held, settled⟩ := stack
  · obtain rfl := settled rfl
    rfl
  · rfl

/-- **A stack is the list of its statements**: each list is the one of a stack, and of no other. -/
theorem toList_eq_iff {stack : StatementStack} {statements : List Statement} :
    stack.toList = statements ↔ stack = statements :=
  ⟨fun h => by rw [← h, ofList_toList], fun h => by rw [h, toList_ofList]⟩

/-- A stack is empty, or it has a statement on top of others. -/
@[elab_as_elim, cases_eliminator]
theorem cases {motive : StatementStack → Prop} (nil : motive empty)
    (cons : ∀ statement rest, motive (ofList (statement :: rest))) (stack : StatementStack) :
    motive stack := by
  rw [← ofList_toList stack]
  match stack.toList with
  | [] => exact nil
  | statement :: rest => exact cons statement rest

/-- The suspended statements are those behind the first. -/
theorem tail_toList (stack : StatementStack) : stack.toList.tail = stack.held := by
  cases stack <;> rfl

@[simp] theorem toList_begin (stack : StatementStack) (statement : Statement) :
    (stack.begin statement).toList = statement :: stack.toList := rfl

@[simp] theorem toList_replace (stack : StatementStack) (statement : Statement) :
    (stack.replace statement).toList = statement :: stack.toList.tail := by
  rw [tail_toList]
  rfl

@[simp] theorem toList_pop (stack : StatementStack) : stack.pop.toList = stack.toList.tail := by
  rw [tail_toList]
  exact toList_ofList stack.held

end StatementStack

end RelQuery
