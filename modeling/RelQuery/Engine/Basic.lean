import RelQuery.Session.Basic
import RelQuery.Statement.Stack

/-!
# Engines

An engine builds statements on top of a session, one at a time.  Opening another one in between
suspends the first, and finishing or giving up that other one brings it back.

* `Engine` are the statements and the session; `Engine.stack` lists the statements.
* `Engine.Run` is a computation on an engine that can fail.
* `Engine.begin`, `Engine.clause` and `Engine.finish` are the three things that happen to the
  statements.  A clause that fails takes the statement with it, and so does a call that finishes one.
-/

namespace RelQuery

/-- The statements under construction, and the session they will run in. -/
structure Engine (σ : Type) where
  statements : StatementStack := .empty
  session : Session σ

abbrev Engine.Run (σ α : Type) := ExceptT Error (StateM (Engine σ)) α

namespace Engine

variable {σ α : Type}

/-- The statements under construction, innermost first. -/
def stack (engine : Engine σ) : List Statement := engine.statements.toList

/-- What the statement under construction does, if there is one. -/
def activity (engine : Engine σ) : Option Activity :=
  engine.statements.active.map Statement.activity

/-- The number of suspended statements. -/
def suspended (engine : Engine σ) : Nat := engine.statements.held.length

/-- Run a computation in the session of an engine. -/
def inSession (run : Session.Run σ α) : Run σ α := fun engine =>
  let (result, session) := run.run engine.session
  (result, { engine with session })

/-- Run a computation on an engine of its own in a session. -/
def alone (run : Run σ α) : Session.Run σ α := fun session =>
  let (result, engine) := run.run ⟨[], session⟩
  (result, engine.session)

/-- Change the stack. -/
def restack (f : StatementStack → StatementStack) : Run σ Unit :=
  modify fun engine => { engine with statements := f engine.statements }

/-! ## What happens to the statements -/

def begin (statement : Statement) : Run σ Unit := restack (·.begin statement)

/-- Give up the statement under construction, if there is one. -/
def abandon : Run σ Unit := do
  (← get).statements.active.forM fun statement =>
    inSession (Session.emit (.abandoned statement.activity))
  restack .pop

/-- Change the statement under construction.  If the call is not for it, or the change fails, the
statement is given up. -/
def clause (call : Call) (change : Statement → Except Error Statement) : Run σ Unit := do
  let edited :=
    match (← get).statements.active with
    | some statement =>
      if call.allowed.contains statement.activity then change statement
      else .error (.activityMismatch call statement.activity)
    | none => .error (.activityMismatch call none)
  match edited with
  | .ok statement => restack (·.replace statement)
  | .error e =>
    abandon
    throw e

/-- Take the statement under construction away, and go back to the one that it suspended.  It is
gone even if the call is not for it. -/
def finish (call : Call) : Run σ Statement := do
  let active := (← get).statements.active
  restack .pop
  match active with
  | some statement =>
    if call.allowed.contains statement.activity then return statement
    else throw (.activityMismatch call statement.activity)
  | none => throw (.activityMismatch call none)

/-! ## Small facts -/

@[simp] theorem stack_mk (statements : List Statement) (session : Session σ) :
    stack ⟨statements, session⟩ = statements := StatementStack.toList_ofList statements

@[simp] theorem stack_new (session : Session σ) : stack ⟨[], session⟩ = [] := rfl

@[simp] theorem ofList_stack (engine : Engine σ) : .ofList engine.stack = engine.statements :=
  engine.statements.ofList_toList

end Engine

end RelQuery
