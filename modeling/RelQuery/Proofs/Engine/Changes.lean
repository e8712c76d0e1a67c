import RelQuery.Proofs.Engine.Aliases

/-!
# Changing the select under construction

A select is opened and then given its clauses, one call per part.  Put together, the calls change one
statement step by step.  They leave the statements below it alone, and they look at the session only
where one of them fails and the select is given up.

* `Session.written` goes on with a statement that could be written.
* `Engine.Performs` says which change of a select a computation makes, whatever is below it.
* **`Engine.find_of_performs`** — a select that is opened and changed, call by call.
-/

namespace RelQuery

open Session

variable {σ : Type}

/-- Go on with a select, or give up where it could not be written. -/
def Session.written (statement : Except Error Statement) : Session.Run σ Statement :=
  match statement with
  | .ok statement => return statement
  | .error e => do
    emit (.abandoned .select)
    throw e

lemma Session.run_written_eq_ok {written : Except Error Statement} {statement : Statement}
    {s t : Session σ} : Session.written written s = (.ok statement, t)
      ↔ written = .ok statement ∧ s = t := by
  cases written with
  | ok next =>
      rw [Except.ok.injEq]
      exact run_pure_eq_ok
  | error e => exact iff_of_false (fun h => by cases h) (by simp)

/-! ## What clauses do to a statement -/

namespace Statement

/-- Joins that can be added are added, and nothing else is changed. -/
lemma eq_of_addJoins {joins : List Join} {statement next : Statement}
    (h : statement.addJoins joins = .ok next) :
    next = { statement with joins := statement.joins ++ joins } := by
  induction joins generalizing statement with
  | nil => rw [← Except.ok.inj h, List.append_nil]
  | cons join joins ih =>
      rw [Statement.addJoins] at h
      split at h
      · cases h
      · obtain ⟨joined, hjoined, h⟩ := bind_eq_ok.mp h
        obtain ⟨-, rfl⟩ := Statement.addJoin_eq_ok.mp hjoined
        rw [ih h, List.append_assoc, List.singleton_append]

lemma foldlM_addOrder (statement : Statement) (terms : List OrderTerm) :
    terms.foldlM (fun statement term => Except.ok (ε := Error) (statement.addOrder [term]))
        statement
      = .ok (statement.addOrder terms) := by
  induction terms generalizing statement with
  | nil => simp [Statement.addOrder, pure, Except.pure]
  | cons term terms ih =>
      rw [List.foldlM_cons]
      exact (ih _).trans (by simp [Statement.addOrder])

end Statement

/-! ## Computations that change a select -/

namespace Engine

/-- What is left of an engine when the select on top was to be changed. -/
def changed (rest : List Statement) (session : Session σ) :
    Except Error Statement → Except Error Unit × Engine σ
  | .ok statement => (.ok (), ⟨statement :: rest, session⟩)
  | .error e =>
    (.error e, ⟨rest, { session with events := .abandoned .select :: session.events }⟩)

/-- A computation that changes the select under construction, and nothing else. -/
def Performs (change : Statement → Except Error Statement) (run : Engine.Run σ Unit) : Prop :=
  ∀ statement rest session, statement.activity = .select →
    run ⟨statement :: rest, session⟩ = changed rest session (change statement)
      ∧ ∀ next, change statement = .ok next → next.activity = .select

namespace Performs

variable {change change' : Statement → Except Error Statement} {x y : Engine.Run σ Unit}

lemma pure : Performs .ok (Pure.pure () : Engine.Run σ Unit) :=
  fun _ _ _ h => ⟨rfl, fun _ hnext => Except.ok.inj hnext ▸ h⟩

lemma bind (hx : Performs change x) (hy : Performs change' y) :
    Performs (fun statement => change statement >>= change') (do x; y) := by
  intro statement rest session h
  obtain ⟨hrun, hselect⟩ := hx statement rest session h
  show (do x; y) ⟨statement :: rest, session⟩
      = changed rest session (change statement >>= change')
    ∧ ∀ next, change statement >>= change' = .ok next → next.activity = .select
  rw [run_bind, hrun]
  cases hchange : change statement with
  | error e => exact ⟨rfl, fun _ hnext => by cases hnext⟩
  | ok next => exact hy next rest session (hselect next hchange)

lemma forM {α : Type} {change : Statement → α → Except Error Statement} {f : α → Engine.Run σ Unit}
    (h : ∀ a, Performs (change · a) (f a)) (items : List α) :
    Performs (items.foldlM change) (items.forM f) := by
  induction items with
  | nil => exact pure
  | cons a items ih => exact bind (h a) ih

/-- A clause that selects may have changes the select. -/
lemma clause {call : Call} (hcall : call.allowed.contains .select = true)
    (h : ∀ statement next, change statement = .ok next → next.activity = statement.activity) :
    Performs change (Engine.clause call change : Engine.Run σ Unit) := by
  intro statement rest session hselect
  refine ⟨?_, fun next hnext => (h statement next hnext).trans hselect⟩
  rw [Traces.clause_cons, hselect, if_pos hcall]
  cases change statement with
  | ok next => rfl
  | error e =>
      rw [changed, ← hselect]
      rfl

/-- A clause that cannot fail. -/
lemma clause_ok {call : Call} {change : Statement → Statement}
    (hcall : call.allowed.contains .select = true)
    (h : ∀ statement, (change statement).activity = statement.activity) :
    Performs (fun statement => .ok (change statement))
      (Engine.clause call fun statement => .ok (change statement) : Engine.Run σ Unit) :=
  .clause hcall fun statement next hnext => by rw [← Except.ok.inj hnext, h]

/-- No fields are not added at all. -/
lemma fields (fields : List Field) :
    Performs (fun statement => .ok { statement with fields := statement.fields ++ fields })
      (if !fields.isEmpty then Engine.fields fields else Pure.pure () : Engine.Run σ Unit) := by
  split
  · exact .clause_ok rfl fun _ => rfl
  · next hnone =>
      have hempty : fields = [] := by simpa using hnone
      simpa [hempty] using Performs.pure

lemma join (joins : List Join) :
    Performs (·.addJoins joins) (Engine.join joins : Engine.Run σ Unit) :=
  .clause rfl fun _ _ hnext => by rw [Statement.eq_of_addJoins hnext]

lemma filter (conditions : Conditions) :
    Performs (fun statement => .ok (statement.restrict conditions))
      (Engine.filter conditions : Engine.Run σ Unit) :=
  .clause_ok rfl fun _ => rfl

/-- The terms of an order, one after the other. -/
lemma order (terms : List OrderTerm) :
    Performs (fun statement => .ok (statement.addOrder terms))
      (terms.forM Engine.orderTerm : Engine.Run σ Unit) := by
  have hterm (term : OrderTerm) : Performs (fun statement => .ok (statement.addOrder [term]))
      (Engine.orderTerm term : Engine.Run σ Unit) := .clause_ok rfl fun _ => rfl
  have hterms := Performs.forM hterm terms
  simpa only [Statement.foldlM_addOrder] using hterms

/-- Relations, one after the other. -/
lemma contain (relations : List Relation) :
    Performs (relations.foldlM Statement.addRelation)
      (relations.forM Engine.contain : Engine.Run σ Unit) :=
  .forM (fun relation => .clause rfl fun statement next hnext => by
    obtain ⟨-, rfl⟩ := Statement.addRelation_eq_ok.mp hnext
    rfl) _

end Performs

/-- **A select that is opened and changed, call by call**, on top of what is there. -/
theorem find_of_performs {change : Statement → Except Error Statement} {run : Engine.Run σ Unit}
    (h : Performs change run) (table : TableRef) (engine : Engine σ) :
    (do Engine.find table; run) engine
      = changed engine.stack engine.session (change (.ofTable .select table)) :=
  (h (.ofTable .select table) engine.stack engine.session rfl).1

/-- A select that is opened, changed and finished on an engine of its own. -/
lemma alone_of_performs {change : Statement → Except Error Statement} {run : Engine.Run σ Unit}
    (h : Performs change run) (ctx : Context σ) (table : TableRef) :
    Engine.alone (do Engine.find table; run; Engine.all ctx)
      = Session.written (change (.ofTable .select table)) >>= Statement.resultSet ctx := by
  funext session
  obtain ⟨hrun, hselect⟩ := h (.ofTable .select table) [] session rfl
  rw [run_bind, Engine.alone]
  show (((do run; Engine.all ctx) ⟨[Statement.ofTable .select table], session⟩).1,
    ((do run; Engine.all ctx) ⟨[Statement.ofTable .select table], session⟩).2.session) = _
  rw [run_bind, hrun]
  cases hchange : change (.ofTable .select table) with
  | error e => rfl
  | ok next =>
      show ((Engine.all ctx ⟨[next], session⟩).1, (Engine.all ctx ⟨[next], session⟩).2.session) = _
      rw [Engine.all, run_bind, Traces.finish_cons, if_pos (by rw [hselect next hchange]; rfl)]
      rfl

end Engine

end RelQuery
