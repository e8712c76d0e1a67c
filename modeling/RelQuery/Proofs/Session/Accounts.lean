import RelQuery.Proofs.Session.Deeds
import RelQuery.ResultSet.Basic

/-!
# Giving account of computations

What a computation does in a session can be told as a row of deeds.  Most computations send each
statement that they finalize at once.  Some return a result set, and finalize its statement last of
all; others begin with sending a statement that was finalized before them.

* `Tells` says that a computation can be told, and how what it does goes with its outcome.
* `Completes`, `Accounts` and `Dispatches` are the three ways.
* **`Accounts.bind_dispatches`** — a computation that finalizes the statement of a result set,
  followed by one that sends it, is told completely.
-/

namespace RelQuery

variable {σ S α β : Type} {ctx : Context σ} {view : S → Session σ}

/-! ## Rows of deeds -/

namespace Deed

variable {deeds more : List Deed} {result : Option ResultSet} {prepared : Prepared}

/-- Deeds that end with finalizing the statement of a result set that has no rows yet, if there is
a result set, and are complete without. -/
def Accounted : Option ResultSet → List Deed → Prop
  | none, deeds => Complete deeds
  | some result, deeds => result.rows = none
    ∧ ∃ done, deeds = done ++ [finalized result.prepared] ∧ Complete done

/-- Deeds that begin with sending a statement, and are complete afterwards. -/
def Dispatched (prepared : Prepared) (deeds : List Deed) : Prop :=
  ∃ deed rest, deeds = deed :: rest ∧ deed.Sends prepared ∧ Complete rest

lemma Complete.append_accounted (h : Complete deeds) (hmore : Accounted result more) :
    Accounted result (deeds ++ more) := by
  cases result with
  | none => exact h.append hmore
  | some result =>
      obtain ⟨hrows, done, rfl, hdone⟩ := hmore
      exact ⟨hrows, deeds ++ done, (List.append_assoc _ _ _).symm, h.append hdone⟩

lemma Dispatched.append (h : Dispatched prepared deeds) (hmore : Complete more) :
    Dispatched prepared (deeds ++ more) := by
  obtain ⟨deed, rest, rfl, hsends, hrest⟩ := h
  exact ⟨deed, rest ++ more, rfl, hsends, hrest.append hmore⟩

lemma Dispatched.complete (h : Dispatched prepared more) :
    Complete ([finalized prepared] ++ more) := by
  obtain ⟨deed, rest, rfl, hsends, hrest⟩ := h
  exact (Complete.atOnce hsends).append hrest

lemma Accounted.append_dispatched {result : ResultSet} (h : Accounted (some result) deeds)
    (hmore : Dispatched result.prepared more) : Complete (deeds ++ more) := by
  obtain ⟨-, done, rfl, hdone⟩ := h
  rw [List.append_assoc]
  exact hdone.append hmore.complete

/-- The statement of a new result set joins those of the earlier ones. -/
lemma Accounted.orderly (h : Accounted result deeds) (issued : List Prepared) :
    Orderly issued deeds (issued ++ result.toList.map ResultSet.prepared) := by
  cases result with
  | none => simpa using h.orderly issued
  | some result =>
      obtain ⟨-, done, rfl, hdone⟩ := h
      exact (hdone.orderly issued).append (.issues (.nil _))

lemma Accounted.uncleared (h : Accounted result deeds) : cleared ∉ deeds := by
  cases result with
  | none => exact Complete.uncleared h
  | some result =>
      obtain ⟨-, done, rfl, hdone⟩ := h
      simpa using hdone.uncleared

lemma Dispatched.orderly (h : Dispatched prepared deeds) {issued : List Prepared}
    (hissued : prepared ∈ issued) : Orderly issued deeds issued := by
  obtain ⟨deed, rest, rfl, hsends, hrest⟩ := h
  exact .reads hissued hsends (hrest.orderly issued)

lemma Dispatched.uncleared (h : Dispatched prepared deeds) : cleared ∉ deeds :=
  fun hmem => h.complete.uncleared (List.mem_append_right _ hmem)

end Deed

/-! ## Computations -/

/-- What a computation does can be told as a row of deeds that goes with its outcome. -/
def Tells (ctx : Context σ) (view : S → Session σ) (post : Except Error α → List Deed → Prop)
    (x : ExceptT Error (StateM S) α) : Prop :=
  ∀ s, ∃ deeds, view (x s).2 = (view s).replay ctx deeds ∧ post (x s).1 deeds

/-- A computation that sends each statement that it finalizes. -/
abbrev Completes (ctx : Context σ) (view : S → Session σ) (x : ExceptT Error (StateM S) α) :
    Prop :=
  Tells ctx view (fun _ deeds => Deed.Complete deeds) x

/-- A computation that leaves it to the result set that it returns, if any, to send one. -/
abbrev Accounts (ctx : Context σ) (view : S → Session σ) (created : α → Option ResultSet)
    (x : ExceptT Error (StateM S) α) : Prop :=
  Tells ctx view (fun result deeds => Deed.Accounted (result.toOption.bind created) deeds) x

/-- A computation that begins with sending a statement. -/
abbrev Dispatches (ctx : Context σ) (view : S → Session σ) (prepared : Prepared)
    (x : ExceptT Error (StateM S) α) : Prop :=
  Tells ctx view (fun _ deeds => Deed.Dispatched prepared deeds) x

variable {x : ExceptT Error (StateM S) α} {f : α → ExceptT Error (StateM S) β}
  {created : α → Option ResultSet} {createdNext : β → Option ResultSet} {prepared : Prepared}

/-- What two steps do is what the first one does and then what the second one does, unless the
first one has failed. -/
lemma Tells.bind {post : Except Error α → List Deed → Prop}
    {whole : Except Error β → List Deed → Prop} (hx : Tells ctx view post x)
    (hf : ∀ a deeds, post (.ok a) deeds →
      Tells ctx view (fun result more => whole result (deeds ++ more)) (f a))
    (herror : ∀ e deeds, post (.error e) deeds → whole (.error e) deeds) :
    Tells ctx view whole (x >>= f) := by
  intro s
  obtain ⟨deeds, hview, hpost⟩ := hx s
  rw [run_bind]
  cases hrun : x s with
  | mk result t =>
      rw [hrun] at hview hpost
      cases result with
      | error e => exact ⟨deeds, hview, herror e deeds hpost⟩
      | ok a =>
          obtain ⟨more, hmore, hwhole⟩ := hf a deeds hpost t
          refine ⟨deeds ++ more, ?_, hwhole⟩
          rw [hmore, hview, Session.replay_append]

lemma Tells.mono {post post' : Except Error α → List Deed → Prop} (h : Tells ctx view post x)
    (himp : ∀ result deeds, post result deeds → post' result deeds) : Tells ctx view post' x := by
  intro s
  obtain ⟨deeds, hview, hpost⟩ := h s
  exact ⟨deeds, hview, himp _ deeds hpost⟩

/-- A computation that does nothing. -/
lemma Completes.of_view_eq (h : ∀ s, view (x s).2 = view s) : Completes ctx view x :=
  fun s => ⟨[], h s, .nil⟩

lemma Completes.pure (a : α) : Completes ctx view (Pure.pure a : ExceptT Error (StateM S) α) :=
  .of_view_eq fun _ => rfl

lemma Completes.throw (e : Error) :
    Completes ctx view (MonadExcept.throw e : ExceptT Error (StateM S) α) :=
  .of_view_eq fun _ => rfl

lemma Completes.bind (hx : Completes ctx view x) (hf : ∀ a, Completes ctx view (f a)) :
    Completes ctx view (x >>= f) :=
  Tells.bind hx (fun a _ hdeeds => (hf a).mono fun _ _ => hdeeds.append) fun _ _ => id

lemma Completes.bind_accounts (hx : Completes ctx view x)
    (hf : ∀ a, Accounts ctx view createdNext (f a)) : Accounts ctx view createdNext (x >>= f) :=
  Tells.bind hx (fun a _ hdeeds => (hf a).mono fun _ _ => hdeeds.append_accounted) fun _ _ => id

lemma Completes.accounts (h : Completes ctx view x) : Accounts ctx view (fun _ => none) x := by
  refine h.mono fun result deeds hdeeds => ?_
  cases result <;> exact hdeeds

lemma Completes.forM {f : α → ExceptT Error (StateM S) Unit}
    (h : ∀ a, Completes ctx view (f a)) (items : List α) : Completes ctx view (items.forM f) := by
  induction items with
  | nil => exact .pure ()
  | cons a items ih => exact (h a).bind fun _ => ih

lemma Completes.forM_option {f : α → ExceptT Error (StateM S) Unit}
    (h : ∀ a, Completes ctx view (f a)) (item : Option α) : Completes ctx view (item.forM f) := by
  cases item with
  | none => exact .pure ()
  | some a => exact h a

/-- A step that may be left out. -/
lemma Completes.optional {p : Prop} [Decidable p] {x : ExceptT Error (StateM S) Unit}
    {f : Unit → ExceptT Error (StateM S) β} (hx : Completes ctx view x)
    (hf : ∀ u, Completes ctx view (f u)) : Completes ctx view (if p then x >>= f else f ()) := by
  split
  · exact hx.bind hf
  · exact hf ()

lemma Accounts.bind_pure (hx : Accounts ctx view created x) {g : α → β}
    (hg : ∀ a, createdNext (g a) = created a) :
    Accounts ctx view createdNext (x >>= fun a => Pure.pure (g a)) := by
  refine Tells.bind hx (fun a deeds hdeeds s => ⟨[], rfl, ?_⟩) fun _ _ => id
  show Deed.Accounted (createdNext (g a)) (deeds ++ [])
  rw [List.append_nil, hg a]
  exact hdeeds

lemma Dispatches.bind (hx : Dispatches ctx view prepared x) (hf : ∀ a, Completes ctx view (f a)) :
    Dispatches ctx view prepared (x >>= f) :=
  Tells.bind hx (fun a _ hdeeds => (hf a).mono fun _ _ => hdeeds.append) fun _ _ => id

/-- **A statement that one computation finalizes and the next one sends is finalized and sent**,
and nothing is left to be done. -/
theorem Accounts.bind_dispatches {x : ExceptT Error (StateM S) ResultSet}
    {f : ResultSet → ExceptT Error (StateM S) β} (hx : Accounts ctx view some x)
    (hf : ∀ result, result.rows = none → Dispatches ctx view result.prepared (f result)) :
    Completes ctx view (x >>= f) :=
  Tells.bind hx
    (fun result _ hdeeds => (hf result hdeeds.1).mono fun _ _ => hdeeds.append_dispatched)
    fun _ _ => id

/-! ## Steps in a session -/

namespace Session

lemma completes_emit {event : Event} (h : event.statement? = none) :
    Completes ctx id (Session.emit event) :=
  fun _ => ⟨[.announced event], rfl, .quiet h nofun⟩

lemma completes_ofExcept (result : Except Error α) :
    Completes ctx id (Session.ofExcept result : Session.Run σ α) := by
  cases result with
  | ok a => exact .pure a
  | error e => exact .throw e

/-- What a call does is told by the deed that stands for it, and by the refusal if it is refused. -/
lemma tells_call (deed : Deed) {sql : String} {bindings : Bindings}
    {request : σ → Except DriverFailure α × σ} (h : ∀ session : Session σ, deed.apply ctx session
      = { session with connection := (request session.connection).2 }) :
    Tells ctx id (fun _ deeds => ∃ rest, deeds = deed :: rest ∧ Deed.Complete rest)
      (Context.call sql bindings request) := by
  intro s
  rw [run_call]
  have hdeed := h s
  rcases hreply : request s.connection with ⟨failure | a, connection⟩
  · refine ⟨[deed, .announced (.driverFailure failure sql)], ?_, _, rfl, .quiet rfl nofun⟩
    rw [hreply] at hdeed
    show _ = (Deed.announced _).apply ctx (deed.apply ctx s)
    rw [hdeed]
    rfl
  · refine ⟨[deed], ?_, _, rfl, .nil⟩
    rw [hreply] at hdeed
    exact hdeed.symm

end Session

namespace Context

variable (ctx)

lemma completes_columns (table : String) : Completes ctx id (ctx.columns table) := by
  refine (Session.tells_call (.described table) fun _ => rfl).mono ?_
  rintro _ _ ⟨rest, rfl, hrest⟩
  have hfirst : Deed.Complete [.described table] := .quiet True.intro nofun
  exact hfirst.append hrest

lemma dispatches_fetch (prepared : Prepared) : Dispatches ctx id prepared (ctx.fetch prepared) := by
  refine (Session.tells_call (.fetched prepared.sql prepared.bindings) fun _ => rfl).mono ?_
  rintro _ _ ⟨rest, rfl, hrest⟩
  exact ⟨_, rest, rfl, rfl, hrest⟩

lemma dispatches_execute (prepared : Prepared) :
    Dispatches ctx id prepared (ctx.execute prepared) := by
  refine (Session.tells_call (.executed prepared.sql prepared.bindings) fun _ => rfl).mono ?_
  rintro _ _ ⟨rest, rfl, hrest⟩
  exact ⟨_, rest, rfl, rfl, hrest⟩

/-- A statement is logged, and then sent. -/
lemma completes_record_bind {prepared : Prepared} {f : Unit → Session.Run σ α}
    (h : Dispatches ctx id prepared (f ())) : Completes ctx id (ctx.record prepared >>= f) := by
  intro s
  obtain ⟨more, hview, hmore⟩ := h ((Deed.finalized prepared).apply ctx s)
  exact ⟨Deed.finalized prepared :: more, hview, hmore.complete⟩

/-- A statement is logged, and left to a result set. -/
lemma accounts_record_bind {prepared : Prepared} {result : ResultSet}
    (hprepared : result.prepared = prepared) (hrows : result.rows = none) :
    Accounts ctx id some (ctx.record prepared >>= fun _ => Pure.pure result) := by
  subst hprepared
  exact fun _ => ⟨[.finalized result.prepared], rfl, hrows, [], rfl, .nil⟩

end Context

end RelQuery
