import RelQuery.Proofs.Session.Steps

/-!
# What happens in a session

All that happens in a session can be told one after the other: something is announced, the driver is
asked for columns, a statement is finalized, a query is passed to the driver, the log is cleared.  A
session is where its deeds have led, so whatever is true at each moment of it can be read off them.

* `Deed` is one of the things that happen, `Session.replay` does a row of them.
* `Event.statement?` is the statement that an event announces as finalized, `Driver.Notes` says that a
  driver notes its queries: what was announced and noted is what the deeds say.
* `Deed.sinceClear` are the statements that were finalized since the log was cleared.
* `Deed.Orderly` says that statements are finalized and sent in an orderly way: each that is finalized
  is sent at once or kept in a result set, and none is sent that was not finalized.
* **`Session.entries_replay`** — the log holds the newest of the statements finalized since the log
  was cleared.
* **`Session.exists_entry_replay`** — in an unbounded log that was never cleared, every query has an
  entry when it is passed to the driver.
-/

namespace RelQuery

variable {σ : Type} {ctx : Context σ}

/-! ## Deeds -/

/-- The statement that is announced as finalized, if that is what an event says. -/
def Event.statement? : Event → Option Prepared
  | finalized prepared _ => some prepared
  | _ => none

/-- One thing that happens in a session. -/
inductive Deed where
  | announced (event : Event)
  /-- The driver is asked for the columns of a table. -/
  | described (table : String)
  /-- A statement that is written for a run is announced and logged. -/
  | finalized (prepared : Prepared)
  /-- A query is passed to the driver, for its rows. -/
  | fetched (sql : String) (bindings : Bindings)
  /-- A query is passed to the driver, for what it changes. -/
  | executed (sql : String) (bindings : Bindings)
  /-- The log is cleared. -/
  | cleared

namespace Deed

/-- What is passed to the driver, if anything is. -/
def query? : Deed → Option (String × Bindings)
  | fetched sql bindings => some (sql, bindings)
  | executed sql bindings => some (sql, bindings)
  | _ => none

/-- The statement that is finalized, if one is. -/
def statement? : Deed → Option Prepared
  | finalized prepared => some prepared
  | _ => none

/-- Whether a deed sends a statement. -/
def Sends (deed : Deed) (prepared : Prepared) : Prop :=
  deed.query? = some (prepared.sql, prepared.bindings)

/-- Neither finalizes a statement nor sends one. -/
def Quiet : Deed → Prop
  | announced event => event.statement? = none
  | described _ => True
  | cleared => True
  | _ => False

lemma Quiet.query?_eq_none {deed : Deed} (h : deed.Quiet) : deed.query? = none := by
  cases deed with
  | fetched => exact h.elim
  | executed => exact h.elim
  | _ => rfl

/-- What a deed does to a session. -/
def apply (ctx : Context σ) (session : Session σ) : Deed → Session σ
  | announced event => { session with events := event :: session.events }
  | described table =>
    { session with connection := (ctx.driver.columns table session.connection).2 }
  | finalized prepared =>
    { session with
      log := session.log.record ctx.config prepared
      events := Log.announcement ctx.config prepared :: session.events }
  | fetched sql bindings =>
    { session with connection := (ctx.driver.fetch sql bindings session.connection).2 }
  | executed sql bindings =>
    { session with connection := (ctx.driver.execute sql bindings session.connection).2 }
  | cleared => { session with log := .empty }

/-- What a deed does to the statements that were finalized since the log was cleared. -/
def keep (kept : List Prepared) : Deed → List Prepared
  | finalized prepared => kept ++ [prepared]
  | cleared => []
  | _ => kept

/-- The statements that were finalized since the log was cleared, in order. -/
def sinceClear (deeds : List Deed) : List Prepared := deeds.foldl keep []

lemma mem_foldl_keep {deeds : List Deed} (hclear : cleared ∉ deeds) {kept : List Prepared}
    {prepared : Prepared} (h : prepared ∈ kept ∨ finalized prepared ∈ deeds) :
    prepared ∈ deeds.foldl keep kept := by
  induction deeds generalizing kept with
  | nil => simpa using h
  | cons deed deeds ih =>
      rw [List.mem_cons, not_or] at hclear
      obtain ⟨hdeed, hdeeds⟩ := hclear
      refine ih hdeeds ?_
      cases deed with
      | finalized other => simpa [keep, or_assoc, List.mem_cons] using h
      | cleared => exact absurd rfl hdeed
      | _ => simpa [keep] using h

end Deed

/-- Where a row of deeds leads. -/
def Session.replay (ctx : Context σ) (session : Session σ) (deeds : List Deed) : Session σ :=
  deeds.foldl (Deed.apply ctx) session

lemma Session.replay_append (session : Session σ) (deeds more : List Deed) :
    session.replay ctx (deeds ++ more) = (session.replay ctx deeds).replay ctx more :=
  List.foldl_append

/-! ## The driver -/

/-- A driver that notes each query that is passed to it. -/
structure Driver.Notes (driver : Driver σ) (notes : σ → List (String × Bindings)) : Prop where
  fetch : ∀ sql bindings s, notes (driver.fetch sql bindings s).2 = notes s ++ [(sql, bindings)]
  execute : ∀ sql bindings s,
    notes (driver.execute sql bindings s).2 = notes s ++ [(sql, bindings)]
  columns : ∀ table s, notes (driver.columns table s).2 = notes s

/-- A driver that notes its queries has noted those of the deeds, in order. -/
lemma Session.notes_replay {notes : σ → List (String × Bindings)} (h : ctx.driver.Notes notes)
    (session : Session σ) (deeds : List Deed) : notes (session.replay ctx deeds).connection
      = notes session.connection ++ deeds.filterMap Deed.query? := by
  induction deeds generalizing session with
  | nil => exact (List.append_nil _).symm
  | cons deed deeds ih =>
      have hdeed : notes (deed.apply ctx session).connection
          = notes session.connection ++ deed.query?.toList := by
        cases deed with
        | fetched sql bindings => exact h.fetch sql bindings _
        | executed sql bindings => exact h.execute sql bindings _
        | described table => exact (h.columns table _).trans (List.append_nil _).symm
        | _ => exact (List.append_nil _).symm
      refine (ih (deed.apply ctx session)).trans ?_
      rw [hdeed, List.append_assoc]
      cases hquery : deed.query? <;> simp [hquery]

/-! ## Events -/

/-- The statements that are announced as finalized are those that are, newest first, if nothing else
is announced like that. -/
lemma Session.statements_replay {deeds : List Deed}
    (h : ∀ event, .announced event ∈ deeds → event.statement? = none) (session : Session σ) :
    (session.replay ctx deeds).events.filterMap Event.statement?
      = (deeds.filterMap Deed.statement?).reverse
        ++ session.events.filterMap Event.statement? := by
  induction deeds generalizing session with
  | nil => rfl
  | cons deed deeds ih =>
      have hdeed : (deed.apply ctx session).events.filterMap Event.statement?
          = deed.statement?.toList ++ session.events.filterMap Event.statement? := by
        cases deed with
        | announced event => exact List.filterMap_cons_none (h event List.mem_cons_self)
        | finalized prepared => exact List.filterMap_cons_some rfl
        | _ => rfl
      refine (ih (fun event hmem => h event (List.mem_cons_of_mem _ hmem)) _).trans ?_
      rw [hdeed, ← List.append_assoc]
      cases hstatement : deed.statement? <;> simp [hstatement]

/-! ## The log -/

/-- There is room for all entries, or for a number of them from the end. -/
lemma Log.trimmed_eq (capacity : Option Nat) (entries : List Prepared) :
    trimmed capacity entries = match capacity with
      | none => entries
      | some room => entries.rtake room := by
  cases capacity <;> rfl

/-- What was dropped from a log would have been dropped later at the latest. -/
lemma Log.trimmed_trimmed_append (capacity : Option Nat) (entries : List Prepared)
    (prepared : Prepared) : trimmed capacity (trimmed capacity entries ++ [prepared])
      = trimmed capacity (entries ++ [prepared]) := by
  cases capacity with
  | none => rfl
  | some room =>
      have hle : entries.length - room ≤ entries.length := Nat.sub_le _ _
      simp only [trimmed]
      rw [← List.drop_append_of_le_length hle, List.drop_drop, List.length_drop,
        List.length_append, List.length_singleton]
      congr 1
      omega

/-- **The log holds the newest of the statements finalized since it was cleared**, in order, as
many as there is room for. -/
theorem Session.entries_replay (hlog : ctx.config.logQueries = true) {session : Session σ}
    {kept : List Prepared} (h : session.log.entries = Log.trimmed ctx.config.logCapacity kept)
    (deeds : List Deed) : (session.replay ctx deeds).log.entries
      = Log.trimmed ctx.config.logCapacity (deeds.foldl Deed.keep kept) := by
  induction deeds generalizing session kept with
  | nil => exact h
  | cons deed deeds ih =>
      refine ih ?_
      cases deed with
      | finalized prepared =>
          show (session.log.record ctx.config prepared).entries = _
          rw [Log.record, if_pos hlog, h]
          exact Log.trimmed_trimmed_append _ _ _
      | cleared =>
          show [] = _
          cases ctx.config.logCapacity with
          | none => rfl
          | some room => exact List.drop_nil.symm
      | _ => exact h

/-! ## Order -/

namespace Deed

/-- Deeds in which statements are finalized before they are sent.  A statement is finalized once, and
is then sent at once or kept in a result set, to be sent whenever its rows are wanted.  The lists are
the statements of the result sets before and after the deeds. -/
inductive Orderly : List Prepared → List Deed → List Prepared → Prop
  | nil (issued : List Prepared) : Orderly issued [] issued
  | quiet {deed : Deed} {deeds : List Deed} {issued later : List Prepared} (hquiet : deed.Quiet)
      (h : Orderly issued deeds later) : Orderly issued (deed :: deeds) later
  | atOnce {deed : Deed} {deeds : List Deed} {issued later : List Prepared} {prepared : Prepared}
      (hsends : deed.Sends prepared) (h : Orderly issued deeds later) :
      Orderly issued (finalized prepared :: deed :: deeds) later
  | issues {deeds : List Deed} {issued later : List Prepared} {prepared : Prepared}
      (h : Orderly (issued ++ [prepared]) deeds later) :
      Orderly issued (finalized prepared :: deeds) later
  | reads {deed : Deed} {deeds : List Deed} {issued later : List Prepared} {prepared : Prepared}
      (hissued : prepared ∈ issued) (hsends : deed.Sends prepared)
      (h : Orderly issued deeds later) : Orderly issued (deed :: deeds) later

lemma Orderly.append {deeds more : List Deed} {issued mid later : List Prepared}
    (h : Orderly issued deeds mid) (hmore : Orderly mid more later) :
    Orderly issued (deeds ++ more) later := by
  induction h with
  | nil => exact hmore
  | quiet hquiet _ ih => exact .quiet hquiet (ih hmore)
  | atOnce hsends _ ih => exact .atOnce hsends (ih hmore)
  | issues _ ih => exact .issues (ih hmore)
  | reads hissued hsends _ ih => exact .reads hissued hsends (ih hmore)

/-- What is announced as finalized is finalized. -/
lemma Orderly.statement?_eq_none {deeds : List Deed} {issued later : List Prepared}
    (h : Orderly issued deeds later) {event : Event} (hmem : .announced event ∈ deeds) :
    event.statement? = none := by
  induction h with
  | nil => cases hmem
  | quiet hquiet _ ih =>
      obtain rfl | hmem := List.mem_cons.mp hmem
      · exact hquiet
      · exact ih hmem
  | atOnce hsends _ ih =>
      obtain hfirst | hmem := List.mem_cons.mp hmem
      · cases hfirst
      · obtain rfl | hmem := List.mem_cons.mp hmem
        · cases hsends
        · exact ih hmem
  | issues _ ih =>
      obtain hfirst | hmem := List.mem_cons.mp hmem
      · cases hfirst
      · exact ih hmem
  | reads _ hsends _ ih =>
      obtain rfl | hmem := List.mem_cons.mp hmem
      · cases hsends
      · exact ih hmem

/-- **What is sent was finalized before**, or is the statement of an earlier result set. -/
lemma Orderly.exists_finalized {deeds done rest : List Deed} {issued later : List Prepared}
    (h : Orderly issued deeds later) {deed : Deed} {query : String × Bindings}
    (hsplit : deeds = done ++ deed :: rest) (hquery : deed.query? = some query) :
    ∃ prepared : Prepared, (prepared ∈ issued ∨ finalized prepared ∈ done)
      ∧ query = (prepared.sql, prepared.bindings) := by
  -- The deed that sends is the first one, or one of those that the induction is about.
  induction h generalizing done with
  | nil issued => simp at hsplit
  | quiet hquiet _ ih =>
      obtain ⟨rfl, hdeeds⟩ | ⟨done, rfl, hdeeds⟩ := List.cons_eq_append_iff.mp hsplit
      · obtain ⟨rfl, -⟩ := List.cons.inj hdeeds
        rw [hquiet.query?_eq_none] at hquery
        cases hquery
      · obtain ⟨prepared, hfinalized, rfl⟩ := ih hdeeds
        exact ⟨prepared, hfinalized.imp_right (List.mem_cons_of_mem _), rfl⟩
  | @atOnce sent deeds issued later prepared hsends _ ih =>
      obtain ⟨rfl, hdeeds⟩ | ⟨done, rfl, hdeeds⟩ := List.cons_eq_append_iff.mp hsplit
      · obtain ⟨rfl, -⟩ := List.cons.inj hdeeds
        cases hquery
      · obtain ⟨rfl, hsent⟩ | ⟨done, rfl, hsent⟩ := List.cons_eq_append_iff.mp hdeeds
        · obtain ⟨rfl, -⟩ := List.cons.inj hsent
          exact ⟨prepared, .inr List.mem_cons_self, Option.some.inj (hquery.symm.trans hsends)⟩
        · obtain ⟨prepared, hfinalized, rfl⟩ := ih hsent
          exact ⟨prepared, hfinalized.imp_right fun h =>
            List.mem_cons_of_mem _ (List.mem_cons_of_mem _ h), rfl⟩
  | @issues deeds issued later prepared _ ih =>
      obtain ⟨rfl, hdeeds⟩ | ⟨done, rfl, hdeeds⟩ := List.cons_eq_append_iff.mp hsplit
      · obtain ⟨rfl, -⟩ := List.cons.inj hdeeds
        cases hquery
      · obtain ⟨other, hfinalized, rfl⟩ := ih hdeeds
        refine ⟨other, ?_, rfl⟩
        simp only [List.mem_append, List.mem_singleton] at hfinalized
        obtain (hissued | rfl) | hdone := hfinalized
        · exact .inl hissued
        · exact .inr List.mem_cons_self
        · exact .inr (List.mem_cons_of_mem _ hdone)
  | @reads sent deeds issued later prepared hissued hsends _ ih =>
      obtain ⟨rfl, hdeeds⟩ | ⟨done, rfl, hdeeds⟩ := List.cons_eq_append_iff.mp hsplit
      · obtain ⟨rfl, -⟩ := List.cons.inj hdeeds
        exact ⟨prepared, .inl hissued, Option.some.inj (hquery.symm.trans hsends)⟩
      · obtain ⟨prepared, hfinalized, rfl⟩ := ih hdeeds
        exact ⟨prepared, hfinalized.imp_right (List.mem_cons_of_mem _), rfl⟩

/-- Deeds that send each statement that they finalize and no other ones, and do not clear the log. -/
structure Complete (deeds : List Deed) : Prop where
  orderly : ∀ issued, Orderly issued deeds issued
  uncleared : cleared ∉ deeds

namespace Complete

variable {deeds more : List Deed}

lemma nil : Complete [] := ⟨.nil, List.not_mem_nil⟩

lemma append (h : Complete deeds) (hmore : Complete more) : Complete (deeds ++ more) where
  orderly issued := (h.orderly issued).append (hmore.orderly issued)
  uncleared := by simpa using ⟨h.uncleared, hmore.uncleared⟩

lemma quiet {deed : Deed} (hquiet : deed.Quiet) (hcleared : deed ≠ .cleared) : Complete [deed] where
  orderly issued := .quiet hquiet (.nil issued)
  uncleared := by simpa using hcleared.symm

lemma atOnce {deed : Deed} {prepared : Prepared} (hsends : deed.Sends prepared) :
    Complete [finalized prepared, deed] where
  orderly issued := .atOnce hsends (.nil issued)
  uncleared := by
    simp only [List.mem_cons, List.not_mem_nil, or_false, not_or]
    refine ⟨nofun, ?_⟩
    rintro rfl
    cases hsends

end Complete

end Deed

/-- **Every query has an entry in the log when it is passed to the driver**, in a session with an
unbounded log that was not cleared. -/
theorem Session.exists_entry_replay (hlog : ctx.config.logQueries = true)
    (hcapacity : ctx.config.logCapacity = none) {session : Session σ}
    (hsession : session.log.entries = []) {deeds done rest : List Deed} {deed : Deed}
    {later : List Prepared} (h : Deed.Orderly [] deeds later) (hclear : .cleared ∉ deeds)
    (hsplit : deeds = done ++ deed :: rest) {sql : String} {bindings : Bindings}
    (hquery : deed.query? = some (sql, bindings)) :
    ∃ entry ∈ (session.replay ctx done).log.entries,
      entry.sql = sql ∧ entry.bindings = bindings := by
  obtain ⟨prepared, hfinalized, hsame⟩ := h.exists_finalized hsplit hquery
  obtain ⟨rfl, rfl⟩ := Prod.mk.inj hsame
  have hdone : Deed.cleared ∉ done := fun hmem => hclear (hsplit ▸ List.mem_append_left _ hmem)
  have hstart : session.log.entries = Log.trimmed ctx.config.logCapacity [] := by
    rw [hsession, hcapacity]
    rfl
  refine ⟨prepared, ?_, rfl, rfl⟩
  rw [entries_replay hlog hstart, hcapacity]
  exact Deed.mem_foldl_keep hdone hfinalized

end RelQuery
