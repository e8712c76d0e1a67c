import RelQuery.ResultSet.Reading

/-!
# Running statements

The calls that finish the statement under construction and run it, and the calls that show what was
built and run.
-/

namespace RelQuery.Engine

variable {σ : Type}

/-! ## Writes -/

/-- Run an insert, an update or a delete. -/
def execute (ctx : Context σ) : Run σ Execution := do
  let statement ← finish .execute
  inSession do
    let prepared ← statement.prepare ctx
    ctx.record prepared
    ctx.execute prepared

/-! ## Single rows -/

def first (ctx : Context σ) : Run σ (Option Row) := do
  let statement ← finish .first
  inSession do
    let single := { statement with limit := some (Limit.single statement.limit) }
    let result ← single.resultSet ctx
    return (← ResultSet.once (result.allRows ctx)).head?

/-- The row with the greatest id, of those that the order so far leaves equal. -/
def last (ctx : Context σ) : Run σ (Option Row) := do
  clause .last fun statement => .ok (statement.addOrder [⟨"id", .desc⟩])
  first ctx

def byId (ctx : Context σ) (id : Value) : Run σ (Option Row) := do
  clause .byId fun statement =>
    .ok (statement.restrict (Conditions.empty.eq "id" (Operand.ofValue id)))
  first ctx

/-! ## Counts -/

def countIn (rows : List Row) : Except Error Nat :=
  let value := (rows.head?.bind (·.get? "count")).getD .null
  match value.count? with
  | some n => .ok n
  | none => .error (.badCount value)

/-- The number of rows that a select matches, joins included. -/
def count (ctx : Context σ) : Run σ Nat := do
  let statement ← finish .count
  inSession do
    let prepared ← statement.prepareCount ctx
    ctx.record prepared
    Session.ofExcept (countIn (← ctx.fetch prepared))

def matchesAny (ctx : Context σ) : Run σ Bool := do
  return (← count ctx) > 0

/-! ## Showing statements -/

/-- What is shown. -/
inductive Display where
  | active
  | log
  | both
  deriving DecidableEq, Repr

/-- The statement under construction as it would be run. -/
def showActive (ctx : Context σ) : Run σ String := do
  match (← get).statements.active with
  | some statement => return (← inSession (statement.prepare ctx)).text
  | none => return "-- no active statement"

/-- The statement under construction, the log, or both, with a blank line between statements.  This
finishes nothing. -/
def display (ctx : Context σ) (what : Display) : Run σ String := do
  let active ← if what = .log then pure [] else List.singleton <$> showActive ctx
  let engine ← get
  let logged := if what = .active then [] else engine.session.log.entries.map Prepared.text
  return "\n\n".intercalate (active ++ logged)

def clearLog : Run σ Unit :=
  modify fun engine => { engine with session := { engine.session with log := .empty } }

end RelQuery.Engine
