import RelQuery.Proofs.Engine.Stack
import RelQuery.Table.Fetching

/-!
# What the calls on a table do to the stack

A table works on an engine that may have statements under construction.  Each of its calls opens a
statement, gives it clauses one after the other, and finishes it, and any of these steps may fail.  A
clause that fails takes the statement with it, and so does the call that finishes it, so at every exit
the statement is gone and the others are on top again.

* `Table.Request` is a call on a table with its arguments.
* **`Table.neutral_run`** — none of them changes the stack.
-/

namespace RelQuery

variable {σ α : Type}

/-! ## Calls -/

/-- A call on a table, with its arguments. -/
inductive Table.Request where
  | fetch (mode : FetchMode) (options : FetchOptions)
  | matchesAny (conditions : Conditions)
  | get (id : Value) (fields : List Field)
  | save (row : Row)
  | remove (id : Value)

/-- The result set of a fetch, if it returned one. -/
def Fetched.result? : Fetched → Option ResultSet
  | .rows result => some result
  | _ => none

/-- The call itself, and the result set that it returns, if it returns one. -/
def Table.Request.run (ctx : Context σ) (table : Table) :
    Table.Request → Engine.Run σ (Option ResultSet)
  | .fetch mode options => return (← table.fetch ctx mode options).result?
  | .matchesAny conditions => do
    let _ ← table.matchesAny ctx conditions
    return none
  | .get id fields => do
    let _ ← table.get ctx id fields
    return none
  | .save row => do
    let _ ← table.save ctx row
    return none
  | .remove id => do
    let _ ← table.remove ctx id
    return none

/-! ## Clauses that may be left out -/

namespace Engine

lemma Edits.optional {p : Prop} [Decidable p] {x : Engine.Run σ Unit} {f : Unit → Engine.Run σ α}
    (hx : Edits x) (hf : ∀ u, Edits (f u)) : Edits (if p then x >>= f else f ()) := by
  split
  · exact hx.bind hf
  · exact hf ()

lemma Edits.optional_ends {p : Prop} [Decidable p] {x : Engine.Run σ Unit}
    {f : Unit → Engine.Run σ α} (hx : Edits x) (hf : ∀ u, Ends (f u)) :
    Ends (if p then x >>= f else f ()) := by
  split
  · exact hx.bind_ends hf
  · exact hf ()

end Engine

/-! ## Every call -/

namespace Table

open Engine

variable (ctx : Context σ) (table : Table)

/-- Whichever of the clauses of a fetch fails, the ones before it are gone with it. -/
lemma edits_applyOptions (fields : List Field) (contained : List Relation)
    (options : FetchOptions) : Edits (applyOptions fields contained options : Engine.Run σ Unit) := by
  refine Edits.optional (.clause _ _) fun _ => Edits.optional (.clause _ _) fun _ => ?_
  exact (Edits.forM_option (fun _ => .clause _ _) _).bind fun _ =>
    (Edits.forM (fun _ => .clause _ _) _).bind fun _ =>
      (Edits.forM_option (fun _ => .clause _ _) _).bind fun _ =>
        Edits.forM (fun _ => .clause _ _) _

/-- A mode finishes the select, and what it does with the rows is done in the session. -/
lemma ends_finishFetch (mode : FetchMode) : Ends (finishFetch ctx mode) := by
  cases mode with
  | all => exact (Ends.all ctx).bind fun _ => .pure _
  | first => exact (Ends.first ctx).bind fun _ => .pure _
  | count => exact (Ends.count ctx).bind fun _ => .pure _
  | id => exact (Ends.all ctx).bind fun _ => (Neutral.inSession _).bind fun _ => .pure _
  | column field => exact (Ends.all ctx).bind fun _ => (Neutral.inSession _).bind fun _ => .pure _
  | columnUnique field =>
      exact (Ends.all ctx).bind fun _ => (Neutral.inSession _).bind fun _ => .pure _
  | unique field => exact (Ends.first ctx).bind fun _ => .pure _
  | combine values key =>
      exact (Ends.all ctx).bind fun _ => (Neutral.inSession _).bind fun _ => .pure _

/-- What fails before the select is opened leaves the stack alone, and what fails afterwards ends
the select. -/
lemma neutral_fetch (mode : FetchMode) (options : FetchOptions) :
    Neutral (table.fetch ctx mode options) := by
  refine (Neutral.inSession _).bind fun contained => (Neutral.inSession _).bind fun fields => ?_
  refine Ends.of_begin ?_ (.ofTable .select table.reference)
  refine (edits_applyOptions fields contained options).bind_ends fun _ => ?_
  intro engine
  exact ends_finishFetch ctx mode _

lemma neutral_matchesAny (conditions : Conditions) :
    Neutral (table.matchesAny ctx conditions) :=
  Ends.of_begin ((Edits.clause _ _).bind_ends fun _ => .matchesAny ctx) _

lemma neutral_get (id : Value) (fields : List Field) : Neutral (table.get ctx id fields) :=
  Ends.of_begin (Edits.optional_ends (.clause _ _) fun _ => .byId ctx id) _

lemma neutral_save (row : Row) : Neutral (table.save ctx row) := by
  have hupdate (id : Value) (row : Row) : Neutral (do
      Engine.update table.reference
      Engine.set row.toValue
      Engine.filter (hasId id)
      Engine.execute ctx) :=
    Ends.of_begin ((Edits.clause _ _).bind_ends fun _ =>
      (Edits.clause _ _).bind_ends fun _ => .execute ctx) _
  have hinsert (row : Row) : Neutral (do
      Engine.insert table.reference
      Engine.values row.toValue
      Engine.execute ctx) :=
    Ends.of_begin ((Edits.clause _ _).bind_ends fun _ => .execute ctx) _
  rw [save]
  dsimp only
  split
  · exact hupdate _ _
  · exact hinsert _

lemma neutral_remove (id : Value) : Neutral (table.remove ctx id) := by
  rw [remove]
  split
  · exact fun _ => rfl
  · exact Ends.of_begin ((Edits.clause _ _).bind_ends fun _ => .execute ctx) _

lemma neutral_call (request : Table.Request) : Neutral (request.run ctx table) := by
  cases request with
  | fetch mode options =>
      rw [Request.run]
      exact (neutral_fetch ctx table mode options).bind fun _ => .pure _
  | matchesAny conditions =>
      rw [Request.run]
      exact (neutral_matchesAny ctx table conditions).bind fun _ => .pure _
  | get id fields =>
      rw [Request.run]
      exact (neutral_get ctx table id fields).bind fun _ => .pure _
  | save row =>
      rw [Request.run]
      exact (neutral_save ctx table row).bind fun _ => .pure _
  | remove id =>
      rw [Request.run]
      exact (neutral_remove ctx table id).bind fun _ => .pure _

/-- **A call on a table leaves the stack alone.**  Whatever statements an engine has under
construction, and wherever the call fails, the active statement and all suspended ones are exactly
as they were before. -/
theorem neutral_run (request : Table.Request) (engine : Engine σ) :
    (request.run ctx table engine).2.stack = engine.stack :=
  neutral_call ctx table request engine

end Table

end RelQuery
