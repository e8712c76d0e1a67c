import RelQuery.Proofs.Plan.Stable
import RelQuery.Proofs.Session.Accounts
import RelQuery.ResultSet.Reading

/-!
# Account of planning and loading

A statement is planned and written before it is finalized, and the driver is asked for columns only.
Finishing a select leaves it to its result set to be sent.  Loading the rows of a result set begins
with sending its statement; for each deferred relation a select is finished then, and its rows are
loaded next.

* **`Statement.accounts_resultSet`** — finishing a select finalizes one statement, last of all.
* **`ResultSet.dispatches_materialize`** — loading sends the statement of the result set first, and
  finalizes and sends one statement after the other from then on.
-/

namespace RelQuery

variable {σ α : Type} (ctx : Context σ)

/-! ## Planning -/

/-- Planning finalizes nothing and sends nothing. -/
lemma Context.planned_completes :
    Session.Planned ctx fun _ run => Completes ctx id run where
  pure a := .pure a
  andThen hx hf := hx.bind hf
  expanding _ _ _ := Session.completes_emit rfl
  columns := ctx.completes_columns
  noColumns _ _ := .throw _

namespace Statement

lemma completes_prepareSelect (statement : Statement) :
    Completes ctx id (statement.prepareSelect ctx) :=
  ctx.planned_completes.prepareSelect (Session.completes_ofExcept _) fun _ =>
    Session.completes_ofExcept _

lemma completes_prepareCount (statement : Statement) :
    Completes ctx id (statement.prepareCount ctx) :=
  (ctx.planned_completes.plan (Session.completes_ofExcept _) false).bind fun _ =>
    (Session.completes_ofExcept _).bind fun _ => .pure _

lemma completes_prepare (statement : Statement) : Completes ctx id (statement.prepare ctx) := by
  rw [prepare]
  split
  · exact (completes_prepareSelect ctx statement).bind fun _ => .pure _
  all_goals exact (Session.completes_ofExcept _).bind fun _ => .pure _

/-- **Finishing a select finalizes its statement**, and nothing is done after that. -/
theorem accounts_resultSet (statement : Statement) :
    Accounts ctx id some (statement.resultSet ctx) :=
  (Session.completes_ofExcept _).bind_accounts fun _ =>
    (completes_prepareSelect ctx statement).bind_accounts fun _ => ctx.accounts_record_bind rfl rfl

end Statement

/-! ## Loading -/

namespace Deferred

lemma accounts_request (deferred : Deferred) (keys : List Value) :
    Accounts ctx id some (Engine.alone (deferred.request ctx keys)) := by
  have hwritten : Completes ctx id (Session.written (deferred.select keys)) := by
    cases deferred.select keys with
    | ok statement => exact .pure statement
    | error e =>
        have habandoned : Completes ctx id (Session.emit (.abandoned .select)) :=
          Session.completes_emit rfl
        exact habandoned.bind fun _ => .throw e
  rw [alone_request]
  exact hwritten.bind_accounts (Statement.accounts_resultSet ctx)

variable {ctx} {materialize : ResultSet → Session.Run σ (List Row)}

/-- The statement of a request is finalized, and sent as soon as its rows are loaded. -/
lemma completes_load (h : ∀ result, Dispatches ctx id result.prepared (materialize result))
    (deferred : Deferred) (keys : List Value) :
    Completes ctx id (deferred.load materialize ctx keys) := by
  rw [load]
  split
  · exact .pure []
  · have hloading : Completes ctx id (Session.emit (.loading deferred.relation.link.aliasName
        deferred.relation.link.mode keys.length)) := Session.completes_emit rfl
    refine hloading.bind fun _ => ?_
    exact (accounts_request ctx deferred keys).bind_dispatches fun result _ =>
      (h result).bind fun _ => Session.completes_ofExcept _

lemma completes_attachEach (h : ∀ result, Dispatches ctx id result.prepared (materialize result))
    (batches : List (Deferred × List Value)) (rows : List Row) :
    Completes ctx id (attachEach materialize ctx batches rows) := by
  induction batches generalizing rows with
  | nil => exact .pure rows
  | cons batch batches ih =>
      exact (completes_load h batch.1 batch.2).bind fun _ =>
        (Session.completes_ofExcept _).bind fun rows => ih rows

lemma completes_attachAll (h : ∀ result, Dispatches ctx id result.prepared (materialize result))
    (deferreds : List Deferred) (rows : List Row) :
    Completes ctx id (attachAll materialize ctx deferreds rows) := by
  rw [attachAll]
  split
  · exact .pure rows
  · exact (Session.completes_ofExcept _).bind fun batches => completes_attachEach h _ rows

end Deferred

namespace ResultSet

lemma dispatches_flatRows (result : ResultSet) :
    Dispatches ctx id result.prepared (result.flatRows ctx) :=
  (ctx.dispatches_fetch result.prepared).bind fun _ => .pure _

/-- **Loading begins with the statement of the result set**, and whatever else it finalizes it sends
at once, down to the deepest relations. -/
theorem dispatches_materializeTo (depth : Nat) (result : ResultSet) :
    Dispatches ctx id result.prepared (result.materializeTo ctx depth) := by
  induction depth generalizing result with
  | zero => exact dispatches_flatRows ctx result
  | succ depth ih =>
      exact (dispatches_flatRows ctx result).bind fun rows =>
        Deferred.completes_attachAll ih result.plan.deferred rows

/-- A look at rows that are there changes nothing. -/
lemma look_of_rows_eq_some {result : ResultSet} {rows : List Row}
    (hrows : result.rows = some rows) (view : List Row → Except Error α) (session : Session σ) :
    result.look ctx view session = ((view rows, result), session) := by
  rw [look, hrows]

/-- The first look loads the rows. -/
lemma look_of_rows_eq_none {result : ResultSet} (hrows : result.rows = none)
    (view : List Row → Except Error α) (session : Session σ) :
    result.look ctx view session = match result.materialize ctx session with
      | (.ok rows, session) => ((view rows, result.setRows rows), session)
      | (.error e, session) => ((.error e, result), session) := by
  rw [look, hrows]
  rfl

/-- The first look sends the statement. -/
lemma dispatches_once {result : ResultSet} (hrows : result.rows = none)
    (view : List Row → Except Error α) :
    Dispatches ctx id result.prepared (once (result.look ctx view)) := by
  intro s
  obtain ⟨deeds, hview, hdeeds⟩ := dispatches_materializeTo ctx result.plan.depth result s
  refine ⟨deeds, ?_, hdeeds⟩
  rw [← hview]
  show (result.look ctx view s).2 = (result.materialize ctx s).2
  rw [look_of_rows_eq_none ctx hrows]
  cases result.materialize ctx s with
  | mk answer t => cases answer <;> rfl

end ResultSet

end RelQuery
