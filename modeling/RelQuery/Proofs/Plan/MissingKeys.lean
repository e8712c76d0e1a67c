import RelQuery.Proofs.Plan.Batch
import RelQuery.Proofs.Plan.Folded
import RelQuery.Proofs.Query.Failures

/-!
# Rows without a key

Related rows are found by keys, and a row may lack the column of its key.  Parents are looked at
before anything is sent: if one of them lacks its column, nothing is loaded at all.  Whether related
rows have theirs is seen when they are loaded, and nothing is sent after one that does not.

* `Deferred.Lacks` says that some row has an owner without the key of a relation.
* `Deferred.related` are the related rows with their own relations, before they are assigned.
* `Session.SendsUnless` says what excuses a computation from sending a query.
* **`Deferred.keys_of_lacks`**, **`keys_of_not_lacks`** — the keys are refused for an owner that
  lacks its own, and for nothing else.
* **`Deferred.asksFirst_attachEach`** — once they are collected, no column is missed before a query.
* **`Deferred.attachAll_missingKey`** — which relation is blamed, for which column, and when.
-/

namespace RelQuery

open Session

variable {σ α β : Type}

/-! ## Queries before failures -/

namespace Session

/-- A computation that sends queries, unless its result is an excuse. -/
def SendsUnless (excuse : Except Error α → Prop)
    (run : Session.Run (σ × List (String × Bindings)) α) : Prop :=
  ∀ s, ∃ sent, (run s).2.fetched = s.fetched ++ sent ∧ (sent = [] → excuse (run s).1)

/-- A computation that does not give up for a missing column before it has sent a query. -/
abbrev AsksFirst (run : Session.Run (σ × List (String × Bindings)) α) : Prop :=
  SendsUnless (FailsOnly fun e => ¬ e.IsMissingKey) run

/-- A computation that sends a query before it goes on, and before it misses a column. -/
abbrev Asks (run : Session.Run (σ × List (String × Bindings)) α) : Prop :=
  SendsUnless (fun result => ∃ e, result = .error e ∧ ¬ e.IsMissingKey) run

variable {x : Session.Run (σ × List (String × Bindings)) α}
  {f : α → Session.Run (σ × List (String × Bindings)) β} {excuse : Except Error α → Prop}
  {whole : Except Error β → Prop}

namespace SendsUnless

lemma mono {excuse' : Except Error α → Prop} (h : SendsUnless excuse x)
    (himp : ∀ result, excuse result → excuse' result) : SendsUnless excuse' x := by
  intro s
  obtain ⟨sent, hsent, hexcuse⟩ := h s
  exact ⟨sent, hsent, fun hnone => himp _ (hexcuse hnone)⟩

/-- Two steps are excused by an error that excuses the first one, and by what excuses the second one
after a result that excuses the first one. -/
lemma bind {post : α → Prop} (hx : SendsUnless excuse x) (hpost : Makes x post)
    (herror : ∀ e, excuse (.error e) → whole (.error e))
    (hf : ∀ a, post a → SendsUnless (fun result => excuse (.ok a) → whole result) (f a)) :
    SendsUnless whole (x >>= f) := by
  intro s
  obtain ⟨sent, hsent, hexcuse⟩ := hx s
  rw [run_bind]
  cases h : x s with
  | mk result t =>
      rw [h] at hsent hexcuse
      cases result with
      | error e => exact ⟨sent, hsent, fun hnone => herror e (hexcuse hnone)⟩
      | ok a =>
          obtain ⟨more, hmore, hwhole⟩ := hf a (hpost s a t h) t
          refine ⟨sent ++ more, by rw [hmore, hsent, List.append_assoc], fun hnone => ?_⟩
          obtain ⟨hfirst, hsecond⟩ := List.append_eq_nil_iff.mp hnone
          exact hwhole hsecond (hexcuse hfirst)

/-- Nothing is said about what is returned. -/
lemma of_fetchesAtMost {n : Nat} (h : FetchesAtMost n x) (hexcuse : ∀ result, excuse result) :
    SendsUnless excuse x := by
  intro s
  obtain ⟨sent, hsent, -⟩ := h s
  exact ⟨sent, hsent, fun _ => hexcuse _⟩

end SendsUnless

lemma Asks.asksFirst (h : Asks x) : AsksFirst x := by
  refine h.mono ?_
  rintro _ ⟨e, rfl, he⟩
  exact .error he

/-- What comes after a query may give up for any cause. -/
lemma Asks.bind {n : α → Nat} (hx : Asks x) (hf : ∀ a, FetchesAtMost (n a) (f a)) :
    Asks (x >>= f) := by
  refine SendsUnless.bind hx (Makes.trivial x) (fun e he => by simpa using he) fun a _ => ?_
  refine .of_fetchesAtMost (hf a) ?_
  rintro _ ⟨e, he, -⟩
  cases he

/-- What comes before a query must not give up for a missing column. -/
lemma AsksFirst.bind_asks (hx : AsksFirst x) (hf : ∀ a, Asks (f a)) : Asks (x >>= f) :=
  SendsUnless.bind hx (Makes.trivial x) (fun e he => ⟨e, rfl, he e rfl⟩) fun a _ =>
    (hf a).mono fun _ h _ => h

/-- A call of the driver gives up with what the driver says. -/
lemma failsOnly_call (sql : String) (bindings : Bindings)
    (request : σ → Except DriverFailure α × σ) (s : Session σ) :
    FailsOnly (fun e => ¬ e.IsMissingKey) (Context.call sql bindings request s).1 := by
  rw [run_call]
  rcases request s.connection with ⟨failure | a, connection⟩
  · refine .error ?_
    rintro ⟨_, _, h⟩
    cases h
  · exact .ok a

/-- Everything but reading rows asks first. -/
lemma AsksFirst.stable (ctx : Context σ) :
    Stable ctx.recording (fun _ run => AsksFirst run) fun e => ¬ e.IsMissingKey where
  pure a := fun s => ⟨[], (List.append_nil _).symm, fun _ => .ok a⟩
  throw h := fun s => ⟨[], (List.append_nil _).symm, fun _ => .error h⟩
  bind hx hpost hf := SendsUnless.bind hx hpost (fun e he => .error (he e rfl)) fun a ha =>
    (hf a ha).mono fun _ h _ => h
  note change h := fun s => ⟨[], by rw [List.append_nil]; exact congrArg Prod.snd (h s),
    fun _ => .ok ()⟩
  columns table := fun s => by
    obtain ⟨sent, hsent, -⟩ := FetchesAtMost.columns ctx table s
    exact ⟨sent, hsent, fun _ => failsOnly_call _ _ _ s⟩
  noColumns table aliasName := by
    rintro ⟨_, _, h⟩
    cases h

lemma Asks.fetch (ctx : Context σ) (prepared : Prepared) :
    Asks (ctx.recording.fetch prepared) := by
  intro s
  have hsent : (ctx.recording.driver.fetch prepared.sql prepared.bindings s.connection).2.2
      = s.fetched ++ [(prepared.sql, prepared.bindings)] := rfl
  refine ⟨_, Eq.trans ?_ hsent, nofun⟩
  rw [Context.fetch, run_call]
  rcases ctx.recording.driver.fetch prepared.sql prepared.bindings s.connection
    with ⟨_ | _, connection⟩ <;> rfl

end Session

/-! ## Loading -/

lemma ResultSet.fetchesAtMost_materialize (ctx : Context σ) (result : ResultSet) :
    FetchesAtMost (result.plan.queryCount + 1) (result.materialize ctx.recording) :=
  result.fetchesAtMost_materializeTo ctx result.plan.depth

lemma ResultSet.asks_materialize (ctx : Context σ) (result : ResultSet) :
    Asks (result.materialize ctx.recording) := by
  have hflat : Asks (result.flatRows ctx.recording) :=
    (Asks.fetch ctx result.prepared).bind fun _ => (FetchesAtMost.stable ctx).pure _
  rw [materialize_eq]
  exact hflat.bind fun rows =>
    Deferred.fetchesAtMost_attachAll (fetchesAtMost_materialize ctx) result.plan.deferred rows

namespace Deferred

variable {ctx : Context σ} {deferred : Deferred}

/-- The select of the related rows is refused for its names, and never for a column. -/
lemma asksFirst_request (ctx : Context σ) (deferred : Deferred) (keys : List Value) :
    AsksFirst (Engine.alone (deferred.request ctx.recording keys)) := by
  refine (AsksFirst.stable ctx).request (fun e he => ?_) fun plan =>
    ((deferred.statement keys).failsOnly_selectQuery plan).mono fun e he => ?_
  · obtain ⟨name, rfl⟩ := exists_of_select_eq_error he
    rintro ⟨_, _, h⟩
    cases h
  · rintro ⟨_, _, rfl⟩
    cases he

/-- The rows that are related by some keys, with their own relations, as they are loaded before they
are assigned to the keys. -/
def related (materialize : ResultSet → Session.Run σ (List Row)) (ctx : Context σ)
    (deferred : Deferred) (keys : List Value) : Session.Run σ (List Row) := do
  if keys.isEmpty then return []
  else
    let link := deferred.relation.link
    Session.emit (.loading link.aliasName link.mode keys.length)
    let result ← Engine.alone (deferred.request ctx keys)
    materialize result

lemma load_eq_bind_related (materialize : ResultSet → Session.Run σ (List Row)) (ctx : Context σ)
    (deferred : Deferred) (keys : List Value) :
    deferred.load materialize ctx keys = (do
      let rows ← deferred.related materialize ctx keys
      Session.ofExcept (deferred.groups rows)) := by
  rw [load, related]
  split
  · rfl
  · simp only [bind_assoc]

/-! ## Keys of the parents -/

/-- Some row has an owner that lacks the key of a relation.  A row without an owner lacks nothing,
and neither does an owner whose key is null. -/
def Lacks (deferred : Deferred) (rows : List Row) : Prop :=
  ∃ row ∈ rows, ∃ owner, ownerAt row deferred.path = some owner
    ∧ owner.get? deferred.parentKey = none

lemma not_lacks_iff {rows : List Row} : ¬ deferred.Lacks rows ↔
    ∀ row ∈ rows, ∀ owner, ownerAt row deferred.path = some owner →
      (owner.get? deferred.parentKey).isSome := by
  simp [Lacks, Option.isSome_iff_ne_none]

/-- **All keys are collected, if no owner lacks its own.** -/
theorem keys_of_not_lacks {rows : List Row} (h : ¬ deferred.Lacks rows) :
    deferred.keys rows = .ok (deferred.distinctKeys rows) := by
  obtain ⟨keys, hkeys⟩ := exists_keysFrom [] (not_lacks_iff.mp h)
  rw [← eq_distinctKeys_of_keys hkeys]
  exact hkeys

/-- **The keys are refused for an owner that lacks its own.** -/
theorem keys_of_lacks {rows : List Row} (h : deferred.Lacks rows) :
    deferred.keys rows = .error (.missingKey deferred.parentKey deferred.relation.aliasName) := by
  cases hkeys : deferred.keys rows with
  | ok keys => exact absurd h (not_lacks_iff.mpr (isSome_of_keysFrom hkeys))
  | error e => rw [deferred.failsOnly_keysFrom [] rows e hkeys]

/-- The first of some computations that fails decides on the error. -/
lemma mapM_eq_error {items before after : List α} {a : α} {f : α → Except Error β} {e : Error}
    (h : items = before ++ a :: after) (hbefore : ∀ b ∈ before, ∃ result, f b = .ok result)
    (ha : f a = .error e) : items.mapM f = .error e := by
  subst h
  induction before with
  | nil => rw [List.nil_append, List.mapM_cons, ha]; rfl
  | cons b before ih =>
      obtain ⟨⟨result, hb⟩, hbefore⟩ := List.forall_mem_cons.mp hbefore
      rw [List.cons_append, List.mapM_cons, hb, ih hbefore]
      rfl

/-! ## All relations -/

section Attaching

variable {materialize : ResultSet → Session.Run σ (List Row)}
  {deferreds before after : List Deferred} {rows : List Row} {s : Session σ}

/-- **The first relation with an owner that lacks its key is refused**, and nothing has happened. -/
theorem attachAll_of_lacks (h : deferreds = before ++ deferred :: after)
    (hbefore : ∀ d ∈ before, ¬ d.Lacks rows) (hlacks : deferred.Lacks rows) :
    attachAll materialize ctx deferreds rows s
      = (.error (.missingKey deferred.parentKey deferred.relation.aliasName), s) := by
  have hsome : (deferreds.isEmpty || rows.isEmpty) = false := by
    obtain ⟨row, hrow, -⟩ := hlacks
    simp [h, List.ne_nil_of_mem hrow]
  have hbatches := mapM_eq_error h (fun d hd => ⟨_, keys_of_not_lacks (hbefore d hd)⟩)
    (keys_of_lacks hlacks)
  rw [attachAll, if_neg (by simp [hsome]), run_bind, hbatches]
  rfl

/-- Without rows there are no keys, and nothing is loaded. -/
lemma attachEach_nil (deferreds : List Deferred) :
    attachEach materialize ctx (deferreds.map fun d => (d, d.distinctKeys [])) [] = pure [] := by
  induction deferreds with
  | nil => rfl
  | cons deferred deferreds ih => exact ih

/-- **All keys are there before anything is loaded**, if no owner lacks its own. -/
theorem attachAll_of_not_lacks (h : ∀ d ∈ deferreds, ¬ d.Lacks rows) :
    attachAll materialize ctx deferreds rows
      = attachEach materialize ctx (deferreds.map fun d => (d, d.distinctKeys rows)) rows := by
  have hbatches : deferreds.mapM (fun d => d.keys rows)
      = .ok (deferreds.map fun d => d.distinctKeys rows) :=
    mapM_eq_ok.mpr <| List.forall₂_map_right_iff.mpr <| List.forall₂_same.mpr fun d hd =>
      keys_of_not_lacks (h d hd)
  rw [attachAll]
  split
  · next hnone =>
      rw [Bool.or_eq_true, List.isEmpty_iff, List.isEmpty_iff] at hnone
      rcases hnone with rfl | rfl
      · rfl
      · exact (attachEach_nil deferreds).symm
  · rw [hbatches, List.map_prod_left_eq_zip]
    rfl

lemma attachEach_append (batches others : List (Deferred × List Value)) (rows : List Row) :
    attachEach materialize ctx (batches ++ others) rows
      = (attachEach materialize ctx batches rows >>= attachEach materialize ctx others) := by
  induction batches generalizing rows with
  | nil => rfl
  | cons batch batches ih =>
      rw [List.cons_append, attachEach, attachEach]
      simp only [ih, bind_assoc]

/-- A related row without its key is found when the rows are assigned. -/
lemma groups_of_missing {children : List Row} {child : Row} (hmem : child ∈ children)
    (h : child.get? deferred.keyColumn = none) : deferred.groups children
      = .error (.missingKey deferred.childKey deferred.relation.aliasName) := by
  induction children with
  | nil => exact absurd hmem List.not_mem_nil
  | cons first children ih =>
      rw [groups]
      split
      · rfl
      · next value kept hkey =>
          rcases List.mem_cons.mp hmem with rfl | hmem
          · rw [← keyOf_fst, hkey] at h
            cases h
          · rw [ih hmem]
            rfl

/-- **The relation whose related rows lack a key is refused**, and nothing is sent for those after
it. -/
theorem attachEach_of_missing {batches others : List (Deferred × List Value)} {keys : List Value}
    {rows' children : List Row} {u v : Session σ}
    (hbatches : attachEach materialize ctx batches rows s = (.ok rows', u))
    (hrelated : deferred.related materialize ctx keys u = (.ok children, v))
    (hmissing : ∃ child ∈ children, child.get? deferred.keyColumn = none) :
    attachEach materialize ctx (batches ++ (deferred, keys) :: others) rows s
      = (.error (.missingKey deferred.childKey deferred.relation.aliasName), v) := by
  obtain ⟨child, hmem, hchild⟩ := hmissing
  have hload : deferred.load materialize ctx keys u
      = (.error (.missingKey deferred.childKey deferred.relation.aliasName), v) := by
    rw [load_eq_bind_related, run_bind, hrelated]
    dsimp only
    rw [groups_of_missing hmem hchild]
    rfl
  rw [attachEach_append, run_bind, hbatches]
  dsimp only
  rw [attachEach, run_bind, hload]

end Attaching

/-! ## Queries -/

/-- Owners without rows get what no rows are in their shape, which never fails. -/
lemma failsOnly_embed_nil (deferred : Deferred) (rows : List Row) :
    FailsOnly (fun _ => False) (deferred.embed [] rows) := by
  have hshape (shape : Shaping) (aliasName : String) :
      FailsOnly (fun _ => False) (shape.apply [] aliasName) := by
    cases shape <;> exact .ok _
  have hembedded : FailsOnly (fun _ => False) (deferred.embedded []) := by
    rw [embedded]
    simp only [List.take_nil]
    cases deferred.relation.link.limit <;> cases deferred.relation.link.shape
    · exact .ok _
    · exact hshape _ _
    · exact .ok _
    · exact hshape _ _
  refine .mapM fun row _ => failsOnly_changeAt (fun owner => ?_) deferred.path row
  rw [embedInOwner]
  cases (owner.get? deferred.parentKey).bind Value.key? <;> exact hembedded.bind fun _ => .ok _

lemma asks_load {keys : List Value} (h : keys ≠ []) :
    Asks (deferred.load (ResultSet.materialize ctx.recording) ctx.recording keys) := by
  have hnone : ¬ keys.isEmpty = true := by simpa using h
  rw [load, if_neg hnone]
  exact ((AsksFirst.stable ctx).emit _).bind_asks fun _ =>
    (asksFirst_request ctx deferred keys).bind_asks fun result =>
      (result.asks_materialize ctx).bind fun rows =>
        (FetchesAtMost.stable ctx).ofExcept fun _ _ => trivial

/-- **Once the keys are collected, no column is missed before a query is sent.** -/
theorem asksFirst_attachEach (ctx : Context σ) (batches : List (Deferred × List Value))
    (rows : List Row) :
    AsksFirst (attachEach (ResultSet.materialize ctx.recording) ctx.recording batches rows) := by
  have hstable := AsksFirst.stable ctx
  induction batches generalizing rows with
  | nil => exact hstable.pure rows
  | cons batch batches ih =>
      obtain ⟨deferred, keys⟩ := batch
      by_cases hkeys : keys = []
      · subst hkeys
        have hload : Makes (deferred.load (ResultSet.materialize ctx.recording) ctx.recording [])
            (· = []) := Makes.pure rfl
        refine hstable.bind (hstable.pure []) hload ?_
        rintro _ rfl
        exact hstable.andThen
          (hstable.ofExcept ((deferred.failsOnly_embed_nil rows).mono fun _ => False.elim)) ih
      · have hembed (groups : List (String × Row)) : FetchesAtMost 0
            (Session.ofExcept (deferred.embed groups rows) : Session.Run _ (List Row)) :=
          (FetchesAtMost.stable ctx).ofExcept fun _ _ => trivial
        have hrest (groups : List (String × Row)) :=
          (hembed groups).bind_right (Makes.trivial _) fun rows _ =>
            fetchesAtMost_attachEach ctx (ResultSet.fetchesAtMost_materialize ctx) batches rows
        exact ((asks_load hkeys).bind hrest).asksFirst

/-- If some relation has an owner that lacks its key, then there is a first one. -/
lemma exists_first_lacks {deferreds : List Deferred} {rows : List Row}
    (h : ∃ d ∈ deferreds, d.Lacks rows) : ∃ before deferred after,
      deferreds = before ++ deferred :: after ∧ (∀ d ∈ before, ¬ d.Lacks rows)
        ∧ deferred.Lacks rows := by
  induction deferreds with
  | nil => simp at h
  | cons first deferreds ih =>
      by_cases hfirst : first.Lacks rows
      · exact ⟨[], first, deferreds, rfl, by simp, hfirst⟩
      · obtain ⟨before, deferred, after, rfl, hbefore, hlacks⟩ := ih (by simpa [hfirst] using h)
        exact ⟨first :: before, deferred, after, rfl,
          List.forall_mem_cons.mpr ⟨hfirst, hbefore⟩, hlacks⟩

/-- **Which relation is blamed for a missing key.**  Relations with an owner that lacks its key are
found before anything is sent or logged, and the first of them is blamed.  If there is none, then
all keys are known before the first query, and a relation with a related row that lacks its key is
blamed as soon as these rows are loaded: nothing is sent for the relations after it. -/
theorem attachAll_missingKey (ctx : Context σ) (deferreds : List Deferred) (rows : List Row)
    (s : Session (σ × List (String × Bindings))) :
    (∀ before deferred after, deferreds = before ++ deferred :: after →
      (∀ d ∈ before, ¬ d.Lacks rows) → deferred.Lacks rows →
        attachAll (ResultSet.materialize ctx.recording) ctx.recording deferreds rows s
          = (.error (.missingKey deferred.parentKey deferred.relation.aliasName), s))
    ∧ ((∃ d ∈ deferreds, d.Lacks rows) ↔ ∃ key aliasName t,
        attachAll (ResultSet.materialize ctx.recording) ctx.recording deferreds rows s
          = (.error (.missingKey key aliasName), t)
        ∧ t.fetched = s.fetched ∧ t.log = s.log)
    ∧ ((∀ d ∈ deferreds, ¬ d.Lacks rows) →
        (∀ d ∈ deferreds, d.keys rows = .ok (d.distinctKeys rows))
        ∧ attachAll (ResultSet.materialize ctx.recording) ctx.recording deferreds rows s
          = attachEach (ResultSet.materialize ctx.recording) ctx.recording
              (deferreds.map fun d => (d, d.distinctKeys rows)) rows s
        ∧ ∀ before deferred after rows' u children v,
            deferreds = before ++ deferred :: after →
            attachAll (ResultSet.materialize ctx.recording) ctx.recording before rows s
              = (.ok rows', u) →
            deferred.related (ResultSet.materialize ctx.recording) ctx.recording
              (deferred.distinctKeys rows) u = (.ok children, v) →
            (∃ child ∈ children, child.get? deferred.keyColumn = none) →
              attachAll (ResultSet.materialize ctx.recording) ctx.recording deferreds rows s
                = (.error (.missingKey deferred.childKey deferred.relation.aliasName), v)) := by
  refine ⟨fun before deferred after h => attachAll_of_lacks h, ⟨fun h => ?_, ?_⟩, fun h =>
    ⟨fun d hd => keys_of_not_lacks (h d hd), congrFun (attachAll_of_not_lacks h) s, ?_⟩⟩
  · obtain ⟨before, deferred, after, hsplit, hbefore, hlacks⟩ := exists_first_lacks h
    exact ⟨_, _, s, attachAll_of_lacks hsplit hbefore hlacks, rfl, rfl⟩
  · rintro ⟨key, aliasName, t, hrun, hfetched, -⟩
    by_contra hnone
    rw [attachAll_of_not_lacks fun d hd hlacks => hnone ⟨d, hd, hlacks⟩] at hrun
    obtain ⟨sent, hsent, hexcuse⟩ := asksFirst_attachEach ctx _ rows s
    rw [hrun] at hsent hexcuse
    -- No query was sent, so no column may have been missed.
    refine hexcuse ?_ _ rfl ⟨key, aliasName, rfl⟩
    rw [hfetched] at hsent
    exact List.self_eq_append_right.mp hsent
  · rintro before deferred after rows' u children v rfl hbefore hrelated hmissing
    rw [attachAll_of_not_lacks fun d hd => h d (List.mem_append_left _ hd)] at hbefore
    rw [attachAll_of_not_lacks h, List.map_append, List.map_cons]
    exact attachEach_of_missing hbefore hrelated hmissing

end Deferred

/-! ## Offices of companies without a key -/

namespace Sample

/-- A user whose company has some column. -/
def employee (column : String) : Row :=
  ⟨[("id", .str "1"), ("companies", .obj [(column, .str "5")])]⟩

/-- A session in which the first reply is an office. -/
def officeSession : Session (List (List Row) × List (String × Bindings)) :=
  { connection := ([[office]], []) }

end Sample

open Sample in
set_option maxRecDepth 20000 in
/-- If the company lacks its key, then not even the posts of the user are asked for.  Otherwise they
are, and the offices are not, if what is found are no posts. -/
theorem Deferred.attachAll_missingKey_of_office :
    attachAll (ResultSet.materialize ctx.recording) ctx.recording [posts, offices]
        [employee "name"] officeSession = (.error (.missingKey "id" "offices"), officeSession)
      ∧ (attachAll (ResultSet.materialize ctx.recording) ctx.recording [posts, offices]
          [employee "id"] officeSession).1 = .error (.missingKey "user_id" "posts")
      ∧ (attachAll (ResultSet.materialize ctx.recording) ctx.recording [posts, offices]
          [employee "id"] officeSession).2.fetched.length = 1 := by
  have hposts (column : String) : ¬ posts.Lacks [employee column] := by
    simp [Lacks, posts, ownerAt, employee, Row.get?]
  have hname : offices.Lacks [employee "name"] :=
    ⟨employee "name", List.mem_singleton_self _, _, rfl, rfl⟩
  have hid : ¬ offices.Lacks [employee "id"] := by
    simp [Lacks, offices, ownerAt, employee, Row.get?, List.lookup]
  obtain ⟨children, v, hrelated, hmissing, hfetched⟩ : ∃ children v,
      posts.related (ResultSet.materialize ctx.recording) ctx.recording
          (posts.distinctKeys [employee "id"]) officeSession = (.ok children, v)
        ∧ (∃ child ∈ children, child.get? posts.keyColumn = none) ∧ v.fetched.length = 1 :=
    ⟨[office], _, rfl, ⟨office, List.mem_singleton_self _, rfl⟩, rfl⟩
  have hrun := ((attachAll_missingKey ctx [posts, offices] [employee "id"] officeSession).2.2
    (by simp [hposts, hid])).2.2 [] posts [offices] _ _ _ _ rfl rfl hrelated hmissing
  refine ⟨?_, congrArg Prod.fst hrun, ?_⟩
  · exact (attachAll_missingKey ctx [posts, offices] [employee "name"] officeSession).1
      [posts] offices [] rfl (by simp [hposts]) hname
  · rw [hrun]
    exact hfetched

end RelQuery
