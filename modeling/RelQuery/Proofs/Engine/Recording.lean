import RelQuery.Proofs.Engine.Stack
import RelQuery.Proofs.Plan.Recording
import RelQuery.Proofs.Table.Requests

/-!
# Account of calls

Building a statement finalizes nothing.  A call that finishes one either runs it, and then it is sent
as soon as it was finalized, or returns a result set for it.

* `Request.answer` is a call on an engine with the result set that it returns.
* **`Request.accounts_answer`** — a call on an engine, and
* **`Table.Request.accounts_run`** — a call on a table, with whatever arguments and however it ends,
  finalizes statements that it sends at once, and after them the statement of the result set that it
  returns.
-/

namespace RelQuery

variable {σ α β : Type} (ctx : Context σ)

/-! ## Building statements -/

namespace Engine

variable {ctx} in
/-- What is done in the session of an engine. -/
lemma tells_inSession {post : Except Error α → List Deed → Prop} {run : Session.Run σ α}
    (h : Tells ctx id post run) : Tells ctx Engine.session post (Engine.inSession run) :=
  fun engine => h engine.session

lemma completes_begin (statement : Statement) :
    Completes ctx Engine.session (Engine.begin statement) :=
  .of_view_eq fun _ => rfl

lemma completes_fromTable (table : TableRef) :
    Completes ctx Engine.session (Engine.fromTable table) := by
  refine .of_view_eq ?_
  rintro ⟨stack, session⟩
  cases stack with
  | nil => rfl
  | cons top rest =>
      rw [Engine.fromTable_cons]

/-- A clause that fails announces that the statement is given up. -/
lemma completes_clause (call : Call) (change : Statement → Except Error Statement) :
    Completes ctx Engine.session (Engine.clause call change) := by
  rintro ⟨stack, session⟩
  cases stack with
  | nil => exact ⟨[], rfl, .nil⟩
  | cons top rest =>
      rw [Traces.clause_cons]
      generalize (if call.allowed.contains top.activity then change top
        else .error (.activityMismatch call top.activity)) = changed
      cases changed with
      | ok changed => exact ⟨[], rfl, .nil⟩
      | error e => exact ⟨[.announced (.abandoned top.activity)], rfl, .quiet rfl nofun⟩

/-! ## Finishing statements -/

lemma completes_finish (call : Call) : Completes ctx Engine.session (Engine.finish call) := by
  refine .of_view_eq fun engine => ?_
  rw [Traces.finish_snd]

lemma accounts_all : Accounts ctx Engine.session some (Engine.all ctx) :=
  (completes_finish ctx _).bind_accounts fun statement =>
    tells_inSession (statement.accounts_resultSet ctx)

lemma completes_execute : Completes ctx Engine.session (Engine.execute ctx) :=
  (completes_finish ctx _).bind fun statement => tells_inSession <|
    (statement.completes_prepare ctx).bind fun prepared =>
      ctx.completes_record_bind (ctx.dispatches_execute prepared)

lemma completes_first : Completes ctx Engine.session (Engine.first ctx) :=
  (completes_finish ctx _).bind fun _ => tells_inSession <|
    (Statement.accounts_resultSet ctx _).bind_dispatches fun _ hrows =>
      (ResultSet.dispatches_once ctx hrows _).bind fun _ => .pure _

lemma completes_last : Completes ctx Engine.session (Engine.last ctx) :=
  (completes_clause ctx _ _).bind fun _ => completes_first ctx

lemma completes_byId (id : Value) : Completes ctx Engine.session (Engine.byId ctx id) :=
  (completes_clause ctx _ _).bind fun _ => completes_first ctx

lemma completes_count : Completes ctx Engine.session (Engine.count ctx) :=
  (completes_finish ctx _).bind fun statement => tells_inSession <|
    (statement.completes_prepareCount ctx).bind fun prepared =>
      ctx.completes_record_bind <|
        (ctx.dispatches_fetch prepared).bind fun _ => Session.completes_ofExcept _

lemma completes_matchesAny : Completes ctx Engine.session (Engine.matchesAny ctx) :=
  (completes_count ctx).bind fun _ => .pure _

/-! ## Showing statements -/

lemma completes_showActive : Completes ctx Engine.session (Engine.showActive ctx) := by
  rintro ⟨stack, session⟩
  cases stack with
  | nil => exact ⟨[], rfl, .nil⟩
  | cons top rest =>
      have hprepare : Completes ctx Engine.session (Engine.inSession (top.prepare ctx)) :=
        tells_inSession (top.completes_prepare ctx)
      exact hprepare.bind (fun _ => .pure _) ⟨top :: rest, session⟩

lemma completes_display (what : Display) :
    Completes ctx Engine.session (Engine.display ctx what) := by
  have hrest (active : List String) : Completes ctx Engine.session (do
      let engine ← get
      let logged := if what = .active then [] else engine.session.log.entries.map Prepared.text
      return "\n\n".intercalate (active ++ logged) : Engine.Run σ String) :=
    .of_view_eq fun _ => rfl
  rw [Engine.display]
  split
  · exact (Completes.pure []).bind hrest
  · exact ((completes_showActive ctx).bind fun _ => .pure _).bind hrest

end Engine

/-! ## Calls on an engine -/

namespace Request

/-- A call, and the result set that it returns if it returns one. -/
def answer : Request → Engine.Run σ (Option ResultSet)
  | .all => return some (← Engine.all ctx)
  | request => do
    request.run ctx
    return none

/-- A call that returns no result set and does not clear the log. -/
lemma completes_run {request : Request} (hall : request ≠ .all) (hclear : request ≠ .clearLog) :
    Completes ctx Engine.session (request.run ctx) := by
  cases hrole : request.role with
  | opens statement =>
      rw [run_of_opens ctx hrole]
      exact Engine.completes_begin ctx statement
  | completes table =>
      rw [run_of_completes ctx hrole]
      exact Engine.completes_fromTable ctx table
  | edits call change =>
      rw [run_of_edits ctx hrole]
      exact Engine.completes_clause ctx call change
  | ends =>
      cases request with
      | execute => exact (Engine.completes_execute ctx).bind fun _ => .pure ()
      | all => exact absurd rfl hall
      | first => exact (Engine.completes_first ctx).bind fun _ => .pure ()
      | last => exact (Engine.completes_last ctx).bind fun _ => .pure ()
      | byId id => exact (Engine.completes_byId ctx id).bind fun _ => .pure ()
      | count => exact (Engine.completes_count ctx).bind fun _ => .pure ()
      | matchesAny => exact (Engine.completes_matchesAny ctx).bind fun _ => .pure ()
      | _ => cases hrole
  | shows =>
      cases request with
      | display what => exact (Engine.completes_display ctx what).bind fun _ => .pure ()
      | clearLog => exact absurd rfl hclear
      | _ => cases hrole

/-- **A call on an engine sends the statements that it finalizes**, except for that of the result
set that it returns. -/
theorem accounts_answer {request : Request} (hclear : request ≠ .clearLog) :
    Accounts ctx Engine.session id (request.answer ctx) := by
  by_cases hall : request = .all
  · subst hall
    exact (Engine.accounts_all ctx).bind_pure fun _ => rfl
  · have hanswer : request.answer ctx = request.run ctx >>= fun _ => pure none := by
      cases request with
      | all => exact absurd rfl hall
      | _ => rfl
    rw [hanswer]
    exact (completes_run ctx hall hclear).accounts.bind_pure fun _ => rfl

end Request

/-! ## Calls on a table -/

namespace Table

open Engine

lemma completes_applyOptions (fields : List Field) (contained : List Relation)
    (options : FetchOptions) :
    Completes ctx Engine.session (applyOptions fields contained options) := by
  refine .optional (completes_clause ctx _ _) fun _ =>
    .optional (completes_clause ctx _ _) fun _ => ?_
  exact (Completes.forM_option (fun _ => completes_clause ctx _ _) _).bind fun _ =>
    (Completes.forM (fun _ => completes_clause ctx _ _) _).bind fun _ =>
      (Completes.forM_option (fun _ => completes_clause ctx _ _) _).bind fun _ =>
        Completes.forM (fun _ => completes_clause ctx _ _) _

/-- A select whose rows are looked at and given up. -/
lemma accounts_looked (view : ResultSet → List Row → Except Error α) {g : α → Fetched}
    (hg : ∀ a, (g a).result? = none) : Accounts ctx Engine.session Fetched.result? (do
      let result ← Engine.all ctx
      let a ← Engine.inSession (ResultSet.once (result.look ctx (view result)))
      return g a) := by
  have hlooked := (accounts_all ctx).bind_dispatches fun result hrows =>
    tells_inSession (ResultSet.dispatches_once ctx hrows (view result))
  rw [← bind_assoc]
  exact hlooked.accounts.bind_pure hg

lemma accounts_finishFetch (mode : FetchMode) :
    Accounts ctx Engine.session Fetched.result? (finishFetch ctx mode) := by
  cases mode with
  | all => exact (accounts_all ctx).bind_pure fun _ => rfl
  | first => exact (completes_first ctx).accounts.bind_pure fun _ => rfl
  | count => exact (completes_count ctx).accounts.bind_pure fun _ => rfl
  | id =>
      exact accounts_looked ctx (fun result rows => Rows.keyedBy rows "id" result.aliasName)
        fun _ => rfl
  | column field =>
      exact accounts_looked ctx (fun _ rows => .ok (Rows.column rows field)) fun _ => rfl
  | columnUnique field =>
      exact accounts_looked ctx (fun _ rows => .ok (Rows.column rows field)) fun _ => rfl
  | unique field => exact (completes_first ctx).accounts.bind_pure fun _ => rfl
  | combine values key =>
      exact accounts_looked ctx (fun result rows =>
        Rows.combine rows values key Shaping.defaultGlue result.aliasName) fun _ => rfl

lemma accounts_fetch (table : Table) (mode : FetchMode) (options : FetchOptions) :
    Accounts ctx Engine.session Fetched.result? (table.fetch ctx mode options) := by
  have hgiven {γ : Type} (given : Except Error γ) :
      Completes ctx Engine.session (Engine.inSession (Session.ofExcept given)) :=
    tells_inSession (Session.completes_ofExcept given)
  have hannounced : Completes ctx Engine.session
      (Engine.inSession (Session.emit (.tableFetch table.name))) :=
    tells_inSession (Session.completes_emit rfl)
  refine (hgiven _).bind_accounts fun contained => (hgiven _).bind_accounts fun fields => ?_
  exact (completes_begin ctx _).bind_accounts fun _ =>
    (completes_applyOptions ctx fields contained options).bind_accounts fun _ =>
      hannounced.bind_accounts fun _ => accounts_finishFetch ctx mode

lemma completes_matchesAny (table : Table) (conditions : Conditions) :
    Completes ctx Engine.session (table.matchesAny ctx conditions) :=
  (completes_begin ctx _).bind fun _ => (completes_clause ctx _ _).bind fun _ =>
    Engine.completes_matchesAny ctx

lemma completes_get (table : Table) (id : Value) (fields : List Field) :
    Completes ctx Engine.session (table.get ctx id fields) :=
  (completes_begin ctx _).bind fun _ =>
    .optional (completes_clause ctx _ _) fun _ => completes_byId ctx id

lemma completes_save (table : Table) (row : Row) :
    Completes ctx Engine.session (table.save ctx row) := by
  rw [save]
  dsimp only
  split
  · exact (completes_begin ctx _).bind fun _ => (completes_clause ctx _ _).bind fun _ =>
      (completes_clause ctx _ _).bind fun _ => completes_execute ctx
  · exact (completes_begin ctx _).bind fun _ => (completes_clause ctx _ _).bind fun _ =>
      completes_execute ctx

lemma completes_remove (table : Table) (id : Value) :
    Completes ctx Engine.session (table.remove ctx id) := by
  rw [remove]
  split
  · exact .throw _
  · exact (completes_begin ctx _).bind fun _ => (completes_clause ctx _ _).bind fun _ =>
      completes_execute ctx

/-- **A call on a table sends the statements that it finalizes**, except for that of the result set
that it returns. -/
theorem Request.accounts_run (table : Table) (request : Table.Request) :
    Accounts ctx Engine.session id (request.run ctx table) := by
  cases request with
  | fetch mode options =>
      rw [Request.run]
      exact (accounts_fetch ctx table mode options).bind_pure fun _ => rfl
  | matchesAny conditions =>
      rw [Request.run]
      exact (completes_matchesAny ctx table conditions).accounts.bind_pure fun _ => rfl
  | get id fields =>
      rw [Request.run]
      exact (completes_get ctx table id fields).accounts.bind_pure fun _ => rfl
  | save row =>
      rw [Request.run]
      exact (completes_save ctx table row).accounts.bind_pure fun _ => rfl
  | remove id =>
      rw [Request.run]
      exact (completes_remove ctx table id).accounts.bind_pure fun _ => rfl

end Table

end RelQuery
