import RelQuery.Proofs.Plan.Siblings
import RelQuery.Proofs.Session.Fetches

/-!
# How many queries loading takes

A relation to many rows is loaded by one query for all parents, and the relations nested in it by
one query each for all of its rows.  However many rows the driver replies with, there is one query
for the result set and at most one for each relation to many rows that was declared.

* `Relation.toManyCount` is the number of these relations in a tree.
* `ResultSet.Spawns` relates a result set to those that are loaded for it.
* **`ResultSet.materialize_eq`** — loading is a recursion over the result sets that are spawned, and
  the bound on its depth cuts nothing off.
* **`ResultSet.fetchesAtMost_materializeTo`** — the number of queries does not depend on the rows.
* **`ResultSet.fetches_le_toManyCount`** — both, for the result set of a select.
-/

namespace RelQuery

open Session

variable {σ : Type}

/-! ## The recursion -/

namespace Deferred

variable {ctx : Context σ} {materialize materialize' : ResultSet → Session.Run σ (List Row)}

/-- Only the result set of the request is materialized. -/
lemma load_congr {deferred : Deferred} {keys : List Value}
    (h : ∀ s child t, Engine.alone (deferred.request ctx keys) s = (.ok child, t) →
      materialize child = materialize' child) :
    deferred.load materialize ctx keys = deferred.load materialize' ctx keys := by
  funext s
  rw [load, load]
  split
  · rfl
  · refine run_bind_congr fun _ t _ => run_bind_congr fun child u hchild => ?_
    rw [h t child u hchild]

lemma attachAll_congr {deferreds : List Deferred}
    (h : ∀ deferred ∈ deferreds, ∀ keys,
      deferred.load materialize ctx keys = deferred.load materialize' ctx keys)
    (rows : List Row) :
    attachAll materialize ctx deferreds rows = attachAll materialize' ctx deferreds rows := by
  have heach (batches : List (Deferred × List Value)) (hbatches : ∀ b ∈ batches, b.1 ∈ deferreds)
      (rows : List Row) :
      attachEach materialize ctx batches rows = attachEach materialize' ctx batches rows := by
    induction batches generalizing rows with
    | nil => rfl
    | cons batch batches ih =>
        obtain ⟨hfirst, hrest⟩ := List.forall_mem_cons.mp hbatches
        rw [attachEach, attachEach, h batch.1 hfirst batch.2]
        simp only [ih hrest]
  funext s
  rw [attachAll, attachAll]
  split
  · rfl
  · refine run_bind_congr fun keys t _ => ?_
    rw [heach _ fun batch hbatch => (List.of_mem_zip hbatch).1]

/-- The select of the related rows nests no deeper than the nested relations. -/
lemma depth_le_of_request {deferred : Deferred} {keys : List Value} {s t : Session σ}
    {child : ResultSet} (h : Engine.alone (deferred.request ctx keys) s = (.ok child, t)) :
    child.plan.depth ≤ Relation.depthOfAll deferred.relation.nested := by
  have hmakes : Makes (Engine.alone (deferred.request ctx keys)) fun child =>
      child.plan.depth ≤ Relation.depthOfAll deferred.relation.nested :=
    makes_request ctx keys (Plan.inductive_depth.makes_expandAll ctx true _ _ [] _)
  exact hmakes s child t h

end Deferred

namespace ResultSet

variable {ctx : Context σ}

/-- A result set that is loaded for the rows of another one. -/
def Spawns (ctx : Context σ) (child result : ResultSet) : Prop :=
  ∃ deferred ∈ result.plan.deferred, ∃ keys s t,
    Engine.alone (deferred.request ctx keys) s = (.ok child, t)

lemma Spawns.depth_lt {child result : ResultSet} (h : Spawns ctx child result) :
    child.plan.depth < result.plan.depth := by
  obtain ⟨deferred, hdeferred, keys, s, t, hchild⟩ := h
  exact (Deferred.depth_le_of_request hchild).trans_lt (Plan.depthOfAll_nested_lt hdeferred)

/-- **No result set is spawned without end.** -/
theorem wellFounded_spawns (ctx : Context σ) : WellFounded (Spawns ctx) :=
  Subrelation.wf Spawns.depth_lt (measure fun result : ResultSet => result.plan.depth).wf

lemma materializeTo_of_depth_eq_zero {result : ResultSet} (h : result.plan.depth = 0) (n : Nat) :
    result.materializeTo ctx n = result.flatRows ctx := by
  have hnone : result.plan.deferred = [] := List.eq_nil_iff_forall_not_mem.mpr fun deferred hmem =>
    Nat.not_lt_zero _ (h ▸ Plan.depthOfAll_nested_lt hmem)
  cases n with
  | zero => rfl
  | succ n =>
      rw [materializeTo, hnone]
      exact bind_pure _

/-- A bound that is deep enough is as good as any other. -/
lemma materializeTo_eq {m n : Nat} {result : ResultSet} (hm : result.plan.depth ≤ m)
    (hn : result.plan.depth ≤ n) : result.materializeTo ctx m = result.materializeTo ctx n := by
  induction m generalizing n result with
  | zero =>
      have hzero := Nat.le_zero.mp hm
      rw [materializeTo_of_depth_eq_zero hzero, materializeTo_of_depth_eq_zero hzero]
  | succ m ih =>
      cases n with
      | zero =>
          have hzero := Nat.le_zero.mp hn
          rw [materializeTo_of_depth_eq_zero hzero, materializeTo_of_depth_eq_zero hzero]
      | succ n =>
          have hloads : ∀ deferred ∈ result.plan.deferred, ∀ keys,
              deferred.load (materializeTo ctx m) ctx keys
                = deferred.load (materializeTo ctx n) ctx keys := by
            intro deferred hdeferred keys
            refine Deferred.load_congr fun s child t hchild => ?_
            have hlt := Spawns.depth_lt ⟨deferred, hdeferred, keys, s, t, hchild⟩
            exact ih (Nat.le_of_lt_succ (hlt.trans_le hm)) (Nat.le_of_lt_succ (hlt.trans_le hn))
          rw [materializeTo, materializeTo]
          simp only [Deferred.attachAll_congr hloads]

/-- **Loading is a recursion over the result sets that are spawned.** -/
theorem materialize_eq (ctx : Context σ) (result : ResultSet) :
    result.materialize ctx = (do
      let rows ← result.flatRows ctx
      Deferred.attachAll (materialize ctx) ctx result.plan.deferred rows) := by
  have hloads : ∀ deferred ∈ result.plan.deferred, ∀ keys,
      deferred.load (materializeTo ctx result.plan.depth) ctx keys
        = deferred.load (materialize ctx) ctx keys := by
    intro deferred hdeferred keys
    refine Deferred.load_congr fun s child t hchild => ?_
    exact materializeTo_eq (Spawns.depth_lt ⟨deferred, hdeferred, keys, s, t, hchild⟩).le le_rfl
  rw [materialize, materializeTo_eq le_rfl (Nat.le_succ _), materializeTo]
  simp only [Deferred.attachAll_congr hloads]

end ResultSet

/-! ## Relations to many rows -/

namespace Relation

mutual

/-- The number of relations to many rows in a tree, under relations of any mode. -/
def toManyCount : Relation → Nat
  | ⟨link, nested⟩ => toManyCountOfAll nested + if link.mode.isToOne then 0 else 1

/-- The number of relations to many rows in some trees. -/
def toManyCountOfAll : List Relation → Nat
  | [] => 0
  | relation :: relations => toManyCount relation + toManyCountOfAll relations

end

end Relation

/-- The number of queries that the deferred relations of a plan take, with those nested in them. -/
def Plan.queryCount (plan : Plan) : Nat :=
  (plan.deferred.map fun deferred =>
    Relation.toManyCountOfAll deferred.relation.nested + 1).sum

/-- A plan takes one query for each relation to many rows. -/
lemma Plan.inductive_queryCount : Relation.Inductive
    (fun _ relation plan => plan.queryCount = relation.toManyCount)
    (fun _ relations plan => plan.queryCount = Relation.toManyCountOfAll relations) where
  joined path link nested join columns inner hone hinner := by
    rw [Relation.toManyCount, if_pos hone]
    exact hinner
  postponed path link nested naming parentTable hone := by
    rw [Relation.toManyCount, hone]
    rfl
  nil _ := rfl
  cons path relation relations plan others hplan hothers := by
    rw [Relation.toManyCountOfAll, ← hplan, ← hothers, queryCount, append, List.map_append,
      List.sum_append]
    rfl

/-! ## Queries -/

/-- Everything but fetching sends no query. -/
lemma Session.FetchesAtMost.stable (ctx : Context σ) :
    Stable ctx.recording (fun _ run => FetchesAtMost 0 run) fun _ => True where
  pure _ := of_fetched_eq fun _ => rfl
  throw _ := of_fetched_eq fun _ => rfl
  bind := FetchesAtMost.bind
  note _ h := of_fetched_eq fun session => congrArg Prod.snd (h session)
  columns := FetchesAtMost.columns ctx
  noColumns _ _ := trivial

namespace Deferred

variable {ctx : Context σ}
  {materialize : ResultSet → Session.Run (σ × List (String × Bindings)) (List Row)}

lemma fetchesAtMost_request (ctx : Context σ) (deferred : Deferred) (keys : List Value) :
    FetchesAtMost 0 (Engine.alone (deferred.request ctx.recording keys)) :=
  (FetchesAtMost.stable ctx).request (fun _ _ => trivial) fun _ _ _ => trivial

/-- One relation takes its own query and those of the relations nested in it. -/
lemma fetchesAtMost_load
    (h : ∀ result, FetchesAtMost (result.plan.queryCount + 1) (materialize result))
    (deferred : Deferred) (keys : List Value) :
    FetchesAtMost (Relation.toManyCountOfAll deferred.relation.nested + 1)
      (deferred.load materialize ctx.recording keys) := by
  have hstable := FetchesAtMost.stable ctx
  have hrequest : Makes (Engine.alone (deferred.request ctx.recording keys)) fun result =>
      result.plan.queryCount = Relation.toManyCountOfAll deferred.relation.nested :=
    makes_request ctx.recording keys
      (Plan.inductive_queryCount.makes_expandAll ctx.recording true _ _ [] _)
  rw [load]
  split
  · exact (hstable.pure []).mono (Nat.zero_le _)
  · refine (hstable.emit _).bind_right (Makes.trivial _) fun _ _ =>
      (fetchesAtMost_request ctx deferred keys).bind_right hrequest fun result hresult => ?_
    rw [← hresult]
    exact (h result).bind (Makes.trivial _) fun rows _ => hstable.ofExcept fun _ _ => trivial

/-- Relations that are loaded one after the other take the queries of each of them. -/
lemma fetchesAtMost_attachEach (ctx : Context σ)
    (h : ∀ result, FetchesAtMost (result.plan.queryCount + 1) (materialize result))
    (batches : List (Deferred × List Value)) (rows : List Row) :
    FetchesAtMost ((batches.map Prod.fst).map fun deferred =>
        Relation.toManyCountOfAll deferred.relation.nested + 1).sum
      (attachEach materialize ctx.recording batches rows) := by
  have hstable := FetchesAtMost.stable ctx
  induction batches generalizing rows with
  | nil => exact hstable.pure rows
  | cons batch batches ih =>
      exact (fetchesAtMost_load h batch.1 batch.2).bind (Makes.trivial _) fun groups _ =>
        (hstable.ofExcept fun _ _ => trivial).bind_right (Makes.trivial _) fun rows _ => ih rows

lemma fetchesAtMost_attachAll
    (h : ∀ result, FetchesAtMost (result.plan.queryCount + 1) (materialize result))
    (deferreds : List Deferred) (rows : List Row) :
    FetchesAtMost (deferreds.map fun deferred =>
        Relation.toManyCountOfAll deferred.relation.nested + 1).sum
      (attachAll materialize ctx.recording deferreds rows) := by
  have hstable := FetchesAtMost.stable ctx
  rw [attachAll]
  split
  · exact (hstable.pure rows).mono (Nat.zero_le _)
  · refine (hstable.ofExcept fun _ _ => trivial).bind_right
      (fun s batches t hrun => mapM_eq_ok.mp (run_ofExcept_eq_ok.mp hrun).1)
      fun batches hbatches => ?_
    have hzip : (deferreds.zip batches).map Prod.fst = deferreds :=
      List.map_fst_zip hbatches.length_eq.le
    have hsum := fetchesAtMost_attachEach ctx h (deferreds.zip batches) rows
    rwa [hzip] at hsum

end Deferred

namespace ResultSet

/-- **The number of queries does not depend on the rows.** -/
theorem fetchesAtMost_materializeTo (ctx : Context σ) (depth : Nat) (result : ResultSet) :
    FetchesAtMost (result.plan.queryCount + 1) (result.materializeTo ctx.recording depth) := by
  have hflat (result : ResultSet) : FetchesAtMost 1 (result.flatRows ctx.recording) :=
    (FetchesAtMost.fetch ctx result.prepared).bind (Makes.trivial _) fun _ _ =>
      (FetchesAtMost.stable ctx).pure _
  induction depth generalizing result with
  | zero => exact (hflat result).mono (Nat.le_add_left 1 _)
  | succ depth ih =>
      rw [Nat.add_comm]
      exact (hflat result).bind (Makes.trivial _) fun rows _ =>
        Deferred.fetchesAtMost_attachAll ih result.plan.deferred rows

/-- **One query, and at most one for each relation to many rows.**  Loading the result set of a
select is a recursion that ends, and whatever the driver replies, it sends one query and at most one
more for each relation to many rows that the select contains, at any depth. -/
theorem fetches_le_toManyCount {ctx : Context σ} {statement : Statement} {result : ResultSet}
    {s t : Session (σ × List (String × Bindings))}
    (h : statement.resultSet ctx.recording s = (.ok result, t)) :
    WellFounded (Spawns ctx.recording)
    ∧ (∀ result : ResultSet, result.materialize ctx.recording = (do
        let rows ← result.flatRows ctx.recording
        Deferred.attachAll (materialize ctx.recording) ctx.recording result.plan.deferred rows))
    ∧ ∀ session, ∃ sent,
        (result.materialize ctx.recording session).2.fetched = session.fetched ++ sent
        ∧ sent.length ≤ 1 + Relation.toManyCountOfAll statement.relations := by
  have hcount : Makes (statement.resultSet ctx.recording) fun result =>
      result.plan.queryCount = Relation.toManyCountOfAll statement.relations :=
    Statement.makes_resultSet ctx.recording fun _ _ =>
      Plan.inductive_queryCount.makes_expandAll ctx.recording true _ _ [] _
  refine ⟨wellFounded_spawns _, materialize_eq _, fun session => ?_⟩
  rw [← hcount s result t h, Nat.add_comm]
  exact fetchesAtMost_materializeTo ctx result.plan.depth result session

open Sample in
set_option maxRecDepth 20000 in
/-- Two users with their offices and posts take three queries, as many as are allowed. -/
theorem fetched_of_users :
    ∃ result t, users.resultSet ctx.recording { connection := ([], []) } = (.ok result, t)
      ∧ Relation.toManyCountOfAll users.relations = 2
      ∧ (result.materialize ctx.recording
          { connection := ([[user, user], [office], [post]], []) }).2.fetched.length = 3
      ∧ ∀ session, ∃ sent,
        (result.materialize ctx.recording session).2.fetched = session.fetched ++ sent
        ∧ sent.length ≤ 3 := by
  obtain ⟨result, t, hresult, hthree⟩ : ∃ result t,
      users.resultSet ctx.recording { connection := ([], []) } = (.ok result, t)
      ∧ (result.materialize ctx.recording
          { connection := ([[user, user], [office], [post]], []) }).2.fetched.length = 3 :=
    ⟨_, _, rfl, rfl⟩
  exact ⟨result, t, hresult, rfl, hthree, (fetches_le_toManyCount hresult).2.2⟩

end ResultSet

end RelQuery
