import RelQuery.Proofs.Engine.Recording
import RelQuery.Proofs.Plan.Siblings

/-!
# The log as an audit trail

An engine is used by one call after the other, and so are the tables that work on it and the result
sets that it has returned.  A result set may be read at any time after its statement was finalized, or
never, and while it is read further statements are finalized.  All of this goes through one log.

* `Use` is one use of an engine, of a table or of a result set, `Workspace.after` where a row of uses
  leads.
* `Chronicle` tells a row of uses in chapters, deed by deed, and says what is true of the log at each
  moment.
* **`Workspace.exists_chronicle`** — there is a chronicle of everything that can be done with a new
  engine that keeps statements.
-/

namespace RelQuery

variable {σ α : Type}

/-! ## Uses -/

/-- A look at the rows of a result set. -/
inductive Reading where
  | rows
  | get (index : Nat)
  | firstRow
  | size
  | column (field : String)
  | combine (values : List String) (key glue : String)
  | keyedBy (field : String)
  | groupedBy (field : String)
  | shaped

/-- What a look leaves behind, whatever it returns. -/
def ResultSet.Look.effect (look : ResultSet.Look σ α) (session : Session σ) :
    ResultSet × Session σ :=
  ((look session).1.2, (look session).2)

/-- What is left behind when a result set is read. -/
def Reading.effect (ctx : Context σ) (result : ResultSet) :
    Reading → Session σ → ResultSet × Session σ
  | .rows => (result.allRows ctx).effect
  | .get index => (result.get ctx index).effect
  | .firstRow => (result.firstRow ctx).effect
  | .size => (result.size ctx).effect
  | .column field => (result.column ctx field).effect
  | .combine values key glue => (result.combine ctx values key glue).effect
  | .keyedBy field => (result.keyedBy ctx field).effect
  | .groupedBy field => (result.groupedBy ctx field).effect
  | .shaped => (result.shaped ctx).effect

/-- An engine and the result sets that it has returned, oldest first. -/
structure Workspace (σ : Type) where
  engine : Engine σ
  results : List ResultSet := []

/-- One use of what there is in a workspace. -/
inductive Use where
  | call (request : Request)
  | callOn (table : Table) (request : Table.Request)
  /-- A result set is read. -/
  | read (index : Nat) (reading : Reading)
  /-- A result set is given other rows. -/
  | setRows (index : Nat) (rows : List Row)

namespace Workspace

/-- A new engine. -/
def new (connection : σ) : Workspace σ := { engine := { session := { connection } } }

/-- Call the engine, and keep the result set that is returned. -/
def perform (run : Engine.Run σ (Option ResultSet)) (workspace : Workspace σ) : Workspace σ where
  engine := (run workspace.engine).2
  results := workspace.results ++ ((run workspace.engine).1.toOption.bind id).toList

end Workspace

/-- The workspace after a use, whether it succeeded or not. -/
def Use.after (ctx : Context σ) (workspace : Workspace σ) : Use → Workspace σ
  | .call request => workspace.perform (request.answer ctx)
  | .callOn table request => workspace.perform (request.run ctx table)
  | .read index reading =>
    match workspace.results[index]? with
    | none => workspace
    | some result =>
      let (result, session) := reading.effect ctx result workspace.engine.session
      { engine := { workspace.engine with session }
        results := workspace.results.set index result }
  | .setRows index rows =>
    match workspace.results[index]? with
    | none => workspace
    | some result => { workspace with results := workspace.results.set index (result.setRows rows) }

/-- The workspace after a row of uses. -/
def Workspace.after (ctx : Context σ) (workspace : Workspace σ) (uses : List Use) : Workspace σ :=
  uses.foldl (Use.after ctx) workspace

/-- The statements of the result sets in a workspace. -/
def Workspace.issued (workspace : Workspace σ) : List Prepared :=
  workspace.results.map ResultSet.prepared

/-! ## One use -/

section

variable (ctx : Context σ)

/-- A look leaves the statement of a result set as it is, and sends it unless the rows are there. -/
lemma ResultSet.exists_deeds_of_look (result : ResultSet) (view : List Row → Except Error α)
    (session : Session σ) : ((result.look ctx view).effect session).1.prepared = result.prepared
      ∧ ∃ deeds, ((result.look ctx view).effect session).2 = session.replay ctx deeds
        ∧ (deeds = [] ∨ Deed.Dispatched result.prepared deeds) := by
  rw [Look.effect]
  cases hrows : result.rows with
  | some rows =>
      rw [look_of_rows_eq_some ctx hrows]
      exact ⟨rfl, [], rfl, .inl rfl⟩
  | none =>
      obtain ⟨deeds, hsession, hdeeds⟩ :=
        result.dispatches_materializeTo ctx result.plan.depth session
      rw [look_of_rows_eq_none ctx hrows]
      cases hrun : result.materialize ctx session with
      | mk answer t =>
          obtain rfl : t = session.replay ctx deeds :=
            (congrArg Prod.snd hrun).symm.trans hsession
          cases answer <;> exact ⟨rfl, deeds, rfl, .inr hdeeds⟩

lemma Reading.exists_deeds (reading : Reading) (result : ResultSet) (session : Session σ) :
    (reading.effect ctx result session).1.prepared = result.prepared
      ∧ ∃ deeds, (reading.effect ctx result session).2 = session.replay ctx deeds
        ∧ (deeds = [] ∨ Deed.Dispatched result.prepared deeds) := by
  cases reading <;> exact result.exists_deeds_of_look ctx _ session

/-- A result set in place of one with the same statement. -/
lemma Workspace.map_prepared_set {results : List ResultSet} {index : Nat} {result : ResultSet}
    (h : results[index]? = some result) {next : ResultSet}
    (hprepared : next.prepared = result.prepared) :
    (results.set index next).map ResultSet.prepared = results.map ResultSet.prepared := by
  obtain ⟨hlt, rfl⟩ := List.getElem?_eq_some_iff.mp h
  have hlt' : index < (results.map ResultSet.prepared).length := by simpa using hlt
  have hself := List.set_getElem_self hlt'
  rw [List.getElem_map] at hself
  rw [List.map_set, hprepared, hself]

variable {ctx} in
/-- A call that is told as deeds leaves its result set last. -/
lemma Workspace.exists_deeds_of_perform {run : Engine.Run σ (Option ResultSet)}
    (h : Accounts ctx Engine.session id run) (workspace : Workspace σ) : ∃ deeds,
    (workspace.perform run).engine.session = workspace.engine.session.replay ctx deeds
      ∧ Deed.Orderly workspace.issued deeds (workspace.perform run).issued
      ∧ .cleared ∉ deeds := by
  obtain ⟨deeds, hsession, hdeeds⟩ := h workspace.engine
  refine ⟨deeds, hsession, ?_, hdeeds.uncleared⟩
  rw [issued, issued, perform, List.map_append]
  exact hdeeds.orderly _

/-- A use can be told as a row of deeds, which are orderly, and which clear the log if that is what
the use is for. -/
lemma Use.exists_deeds (use : Use) (workspace : Workspace σ) : ∃ deeds,
    (use.after ctx workspace).engine.session = workspace.engine.session.replay ctx deeds
      ∧ Deed.Orderly workspace.issued deeds (use.after ctx workspace).issued
      ∧ (.cleared ∈ deeds ↔ use = .call .clearLog) := by
  cases use with
  | call request =>
      by_cases hclear : request = .clearLog
      · subst hclear
        have hissued : (after ctx workspace (.call .clearLog)).issued = workspace.issued :=
          congrArg (List.map ResultSet.prepared) (List.append_nil _)
        rw [hissued]
        exact ⟨[.cleared], rfl, .quiet True.intro (.nil _), by simp⟩
      · obtain ⟨deeds, hsession, horderly, huncleared⟩ :=
          Workspace.exists_deeds_of_perform (request.accounts_answer ctx hclear) workspace
        exact ⟨deeds, hsession, horderly, iff_of_false huncleared (by simpa using hclear)⟩
  | callOn table request =>
      obtain ⟨deeds, hsession, horderly, huncleared⟩ :=
        Workspace.exists_deeds_of_perform (request.accounts_run ctx table) workspace
      exact ⟨deeds, hsession, horderly, iff_of_false huncleared nofun⟩
  | read index reading =>
      rw [after]
      cases hindex : workspace.results[index]? with
      | none => exact ⟨[], rfl, .nil _, iff_of_false List.not_mem_nil nofun⟩
      | some result =>
          obtain ⟨hprepared, deeds, hsession, hdeeds⟩ :=
            reading.exists_deeds ctx result workspace.engine.session
          have hissued := Workspace.map_prepared_set hindex hprepared
          refine ⟨deeds, hsession, ?_, iff_of_false ?_ nofun⟩
          · show Deed.Orderly _ deeds (List.map _ _)
            rw [hissued]
            obtain rfl | hsent := hdeeds
            · exact .nil _
            · exact hsent.orderly (List.mem_map_of_mem (List.mem_of_getElem? hindex))
          · obtain rfl | hsent := hdeeds
            · exact List.not_mem_nil
            · exact hsent.uncleared
  | setRows index rows =>
      rw [after]
      cases hindex : workspace.results[index]? with
      | none => exact ⟨[], rfl, .nil _, iff_of_false List.not_mem_nil nofun⟩
      | some result =>
          have hissued : (workspace.results.set index (result.setRows rows)).map ResultSet.prepared
              = workspace.issued := Workspace.map_prepared_set hindex rfl
          refine ⟨[], rfl, ?_, iff_of_false List.not_mem_nil nofun⟩
          show Deed.Orderly _ [] (List.map _ _)
          rw [hissued]
          exact .nil _

end

/-! ## Rows of uses -/

/-- One chapter for each use, in which the log is cleared if that is what the use is for. -/
abbrev ClearedBy (uses : List Use) (chapters : List (List Deed)) : Prop :=
  List.Forall₂ (fun use chapter => .cleared ∈ chapter ↔ use = .call .clearLog) uses chapters

lemma ClearedBy.mem_flatten {uses : List Use} {chapters : List (List Deed)}
    (h : ClearedBy uses chapters) : .cleared ∈ chapters.flatten ↔ .call .clearLog ∈ uses := by
  induction h with
  | nil => simp
  | cons hfirst _ ih => rw [List.flatten_cons, List.mem_append, List.mem_cons, hfirst, ih, eq_comm]

/-- A row of uses, told in one chapter for each use.  At every moment of it the log holds the newest
of the statements finalized since it was cleared. -/
structure Chronicle (ctx : Context σ) (connection : σ) (uses : List Use)
    (chapters : List (List Deed)) : Prop where
  cleared : ClearedBy uses chapters
  /-- The chapters of the first uses lead to the session after these uses. -/
  passes : ∀ n, (Workspace.after ctx (.new connection) (uses.take n)).engine.session
    = Session.replay ctx { connection } (chapters.take n).flatten
  /-- Each statement that is finalized is sent at once, or it is the one of the next result set. -/
  orderly : ∀ n, Deed.Orderly [] (chapters.take n).flatten
    (Workspace.after ctx (.new connection) (uses.take n)).issued
  /-- The events announce the statements of the chronicle, newest first. -/
  announced : ∀ done rest, chapters.flatten = done ++ rest →
    (Session.replay ctx { connection } done).events.filterMap Event.statement?
      = (done.filterMap Deed.statement?).reverse
  /-- What the driver notes are the queries of the chronicle. -/
  noted : ∀ notes, ctx.driver.Notes notes → ∀ done rest, chapters.flatten = done ++ rest →
    notes (Session.replay ctx { connection } done).connection
      = notes connection ++ done.filterMap Deed.query?
  /-- The log at each moment: what was finalized since it was cleared, or the last `room` of that. -/
  logged : ∀ done rest, chapters.flatten = done ++ rest →
    (Session.replay ctx { connection } done).log.entries
      = match ctx.config.logCapacity with
        | none => Deed.sinceClear done
        | some room => (Deed.sinceClear done).rtake room
  /-- The log when a query is passed to the driver. -/
  sent : ctx.config.logCapacity = none → .call .clearLog ∉ uses →
    ∀ done deed rest, chapters.flatten = done ++ deed :: rest →
      ∀ sql bindings, deed.query? = some (sql, bindings) →
        ∃ entry ∈ (Session.replay ctx { connection } done).log.entries,
          entry.sql = sql ∧ entry.bindings = bindings

/-- A row of uses can be told in chapters, from wherever it starts. -/
lemma Workspace.exists_chapters (ctx : Context σ) (workspace : Workspace σ) (uses : List Use) :
    ∃ chapters, ClearedBy uses chapters
      ∧ ∀ n, (workspace.after ctx (uses.take n)).engine.session
          = workspace.engine.session.replay ctx (chapters.take n).flatten
        ∧ Deed.Orderly workspace.issued (chapters.take n).flatten
            (workspace.after ctx (uses.take n)).issued := by
  -- A later chapter begins where the earlier ones have led, so the workspace is not fixed.
  induction uses generalizing workspace with
  | nil => exact ⟨[], .nil, fun n => by simpa using ⟨rfl, .nil _⟩⟩
  | cons use uses ih =>
      obtain ⟨deeds, hsession, horderly, hcleared⟩ := use.exists_deeds ctx workspace
      obtain ⟨chapters, hclearedBy, hpasses⟩ := ih (use.after ctx workspace)
      refine ⟨deeds :: chapters, .cons hcleared hclearedBy, fun n => ?_⟩
      cases n with
      | zero => exact ⟨rfl, .nil _⟩
      | succ n =>
          obtain ⟨hafter, hissued⟩ := hpasses n
          rw [List.take_succ_cons, List.take_succ_cons, List.flatten_cons,
            Session.replay_append, ← hsession]
          exact ⟨hafter, horderly.append hissued⟩

/-- **The log is a faithful audit trail.**  Whatever is done with a new engine that keeps statements,
with tables on it and with the result sets that it returns, and whatever the driver replies, there is
a chronicle of it: at each moment the log holds the newest of the statements that were finalized since
it was cleared, those for relations included, and an unbounded log that is never cleared has an entry
for each query before the query is passed to the driver. -/
theorem Workspace.exists_chronicle (ctx : Context σ) (hlog : ctx.config.logQueries = true)
    (connection : σ) (uses : List Use) : ∃ chapters, Chronicle ctx connection uses chapters := by
  obtain ⟨chapters, hclearedBy, hpasses⟩ := exists_chapters ctx (.new connection) uses
  have horderly := (hpasses chapters.length).2
  rw [List.take_length] at horderly
  have hempty : (Session.mk connection .empty []).log.entries
      = Log.trimmed ctx.config.logCapacity [] := by
    cases ctx.config.logCapacity <;> simp [Log.trimmed, Log.empty]
  refine ⟨chapters, ?_⟩
  exact {
    cleared := hclearedBy
    passes := fun n => (hpasses n).1
    orderly := fun n => (hpasses n).2
    announced := fun done rest hsplit => by
      have hdone (event : Event) (hmem : .announced event ∈ done) : event.statement? = none :=
        horderly.statement?_eq_none (hsplit ▸ List.mem_append_left _ hmem)
      rw [Session.statements_replay hdone]
      exact List.append_nil _
    noted := fun notes hnotes done rest _ => Session.notes_replay hnotes _ done
    logged := fun done rest _ =>
      (Session.entries_replay hlog hempty done).trans (Log.trimmed_eq _ _)
    sent := fun hcapacity hclear done deed rest hsplit sql bindings hquery => by
      exact Session.exists_entry_replay hlog hcapacity rfl horderly
        (fun hmem => hclear (hclearedBy.mem_flatten.mp hmem)) hsplit hquery }

open Sample in
/-- The users and their posts are read with two queries.  Both are in the log, in the order in which
the driver notes them; where there is room for one, it is the query for the posts. -/
theorem Workspace.exists_chronicle_of_posts :
    let driver : Driver (List (List Row) × List (String × Bindings)) :=
      ⟨.mysql, fun sql bindings s => (.ok s.1.headI, s.1.tail, s.2 ++ [(sql, bindings)]),
        fun sql bindings s => (.ok ⟨0, none⟩, s.1, s.2 ++ [(sql, bindings)]),
        fun _ s => (.ok ["id"], s)⟩
    let ctx : Context _ := .ofConfig driver { logCapacity := none }
    let bounded : Context _ := .ofConfig driver { logCapacity := some 1 }
    let uses : List Use := [.call (.find ⟨"users", none⟩),
      .call (.contain (.ofTable .hasMany "posts")), .call .all, .read 0 .rows]
    let session := (Workspace.after ctx (.new ([[user], [post]], [])) uses).engine.session
    let short := (Workspace.after bounded (.new ([[user], [post]], [])) uses).engine.session
    ctx.config.logQueries = true ∧ driver.Notes Prod.snd
      ∧ session.log.entries.map Prepared.sql = ["SELECT `users`.* FROM `users`",
        "SELECT `posts`.* FROM `posts` WHERE `user_id` IN ('1')"]
      ∧ session.connection.2.map Prod.fst = session.log.entries.map Prepared.sql
      ∧ (∃ chapters, Chronicle ctx ([[user], [post]], []) uses chapters)
      ∧ bounded.config.logQueries = true
      ∧ short.log.entries.map Prepared.sql
        = ["SELECT `posts`.* FROM `posts` WHERE `user_id` IN ('1')"]
      ∧ ∃ chapters, Chronicle bounded ([[user], [post]], []) uses chapters := by
  intro driver ctx bounded uses session short
  have hnotes : driver.Notes Prod.snd := ⟨fun _ _ _ => rfl, fun _ _ _ => rfl, fun _ _ => rfl⟩
  refine ⟨rfl, hnotes, ?_, ?_, exists_chronicle ctx rfl _ uses, rfl, ?_,
    exists_chronicle bounded rfl _ uses⟩
  · decide +kernel
  · decide +kernel
  · decide +kernel

end RelQuery
