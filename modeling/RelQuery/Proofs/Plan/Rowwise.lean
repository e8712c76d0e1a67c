import RelQuery.Proofs.Plan.MissingKeys

/-!
# Each row by itself

Deferred relations are loaded for all rows of a select at once.  A database that finds the same rows
for a key, whatever other keys it is asked for, makes no difference between this and loading them for
each row: what a row becomes depends on the row, and not on those around it.

* `Deferred.AnsweredByKey` says so of the replies to the selects of one relation.
* `Plan.Keyed` are plans whose relations are undisturbed and answered by key, on every level.
* `Statement.resultSet_fst_eq_ok` — what it takes to finish a select.
* **`ResultSet.exists_becomes`** — fewer rows are loaded like the same ones among all.
-/

namespace RelQuery

open Session

variable {σ : Type}

/-! ## Selects with other conditions -/

namespace Statement

/-- A select is finished if it has a table, its relations can be planned and it can be written. -/
lemma resultSet_fst_eq_ok {ctx : Context σ} {statement : Statement} {result : ResultSet}
    {s : Session σ} :
    (statement.resultSet ctx s).1 = .ok result ↔ ∃ main plan query,
      statement.mainTable = .ok main
      ∧ (Plan.ofRelations ctx true statement.relations main s).1 = .ok plan
      ∧ statement.selectQuery plan = .ok query
      ∧ { prepared := query.prepare ctx.dialect, plan, shaping := statement.shaping,
          aliasName := main.reference : ResultSet } = result := by
  constructor
  · intro h
    obtain ⟨main, _, hfirst, h⟩ := run_bind_eq_ok.mp (Prod.ext h rfl)
    obtain ⟨hmain, rfl⟩ := run_ofExcept_eq_ok.mp hfirst
    obtain ⟨prepared, _, hselect, h⟩ := run_bind_eq_ok.mp h
    obtain ⟨_, _, -, h⟩ := run_bind_eq_ok.mp h
    obtain ⟨rfl, -⟩ := run_pure_eq_ok.mp h
    obtain ⟨plan, _, hplan, hselect⟩ := run_bind_eq_ok.mp hselect
    obtain ⟨query, _, hwritten, hselect⟩ := run_bind_eq_ok.mp hselect
    obtain ⟨hquery, -⟩ := run_ofExcept_eq_ok.mp hwritten
    obtain ⟨rfl, -⟩ := run_pure_eq_ok.mp hselect
    obtain ⟨main', _, hsecond, hplan⟩ := run_bind_eq_ok.mp hplan
    obtain ⟨hmain', rfl⟩ := run_ofExcept_eq_ok.mp hsecond
    obtain rfl : main = main' := Except.ok.inj (hmain.symm.trans hmain')
    exact ⟨main, plan, query, hmain, by rw [hplan], hquery, rfl⟩
  · rintro ⟨main, plan, query, hmain, hplan, hquery, rfl⟩
    obtain ⟨u, hplanned⟩ : ∃ u, Plan.ofRelations ctx true statement.relations main s
        = (.ok plan, u) := ⟨_, Prod.ext hplan rfl⟩
    have hfirst : Session.ofExcept statement.mainTable s = (.ok main, s) :=
      run_ofExcept_eq_ok.mpr ⟨hmain, rfl⟩
    have hwritten : Session.ofExcept (statement.selectQuery plan) u = (.ok query, u) :=
      run_ofExcept_eq_ok.mpr ⟨hquery, rfl⟩
    have hselect : statement.prepareSelect ctx s = (.ok (query.prepare ctx.dialect, plan), u) := by
      rw [prepareSelect, Statement.plan, bind_assoc, run_bind, hfirst]
      simp only
      rw [run_bind, hplanned]
      simp only
      rw [run_bind, hwritten]
      rfl
    rw [resultSet, run_bind, hfirst]
    simp only
    rw [run_bind, hselect]
    rfl

/-- Other conditions that can be read in the same scopes leave a select one that can be written. -/
lemma exists_selectQuery {statement : Statement} {plan : Plan} {query : Query Slot}
    (h : statement.selectQuery plan = .ok query) {conditions : Conditions}
    (hread : ∀ scope filter, statement.conditions.predicate scope = .ok filter →
      ∃ filter', conditions.predicate scope = .ok filter') :
    ∃ query', selectQuery { statement with conditions } plan = .ok query' := by
  obtain ⟨frame, hframe, h⟩ := bind_eq_ok.mp h
  obtain ⟨items, hitems, h⟩ := bind_eq_ok.mp h
  obtain ⟨source, hsource, h⟩ := bind_eq_ok.mp h
  obtain ⟨order, horder, -⟩ := bind_eq_ok.mp h
  obtain ⟨table, htable, hsource⟩ := bind_eq_ok.mp hsource
  obtain ⟨name, hname, hsource⟩ := bind_eq_ok.mp hsource
  obtain ⟨aliasName, halias, hsource⟩ := bind_eq_ok.mp hsource
  obtain ⟨joins, hjoins, hsource⟩ := bind_eq_ok.mp hsource
  obtain ⟨filter, hfilter, -⟩ := bind_eq_ok.mp hsource
  obtain ⟨filter', hfilter'⟩ := hread _ _ hfilter
  refine ⟨_, bind_eq_ok.mpr ⟨frame, hframe, bind_eq_ok.mpr ⟨items, hitems, bind_eq_ok.mpr
    ⟨⟨name, aliasName, joins, filter'⟩, ?_, bind_eq_ok.mpr ⟨order, horder, rfl⟩⟩⟩⟩⟩
  exact bind_eq_ok.mpr ⟨table, htable, bind_eq_ok.mpr ⟨name, hname, bind_eq_ok.mpr
    ⟨aliasName, halias, bind_eq_ok.mpr ⟨joins, hjoins, bind_eq_ok.mpr ⟨filter', hfilter', rfl⟩⟩⟩⟩⟩

end Statement

/-- A list of other values can be read in the same scopes. -/
lemma Conditions.exists_predicate_of_list {c other : Conditions} {key : String}
    {items items' : List Value} {rest : List Entry}
    (hc : c.entries = .clause key (some .within) (.list items) :: rest)
    (hother : other.entries = .clause key (some .within) (.list items') :: rest) (scope : Scope)
    (filter : Predicate Slot) (h : c.predicate scope = .ok filter) :
    ∃ filter', other.predicate scope = .ok filter' := by
  rw [predicate, hc] at h
  obtain ⟨_, hlinks, -⟩ := map_eq_ok.mp h
  obtain ⟨term, hterm, links, hrest, -⟩ := Scope.links_clause_eq_ok.mp hlinks
  obtain ⟨term', hterm'⟩ : ∃ term', scope.clause key (some .within) (.list items') = .ok term' := by
    rcases Scope.clause_list_eq_ok.mp hterm with ⟨hlists, test, htest, -⟩ | ⟨hlists, -⟩
    · obtain ⟨column, hcolumn, -⟩ := bind_eq_ok.mp htest
      exact ⟨_, Scope.clause_list_eq_ok.mpr (.inl ⟨hlists, _, bind_eq_ok.mpr ⟨column, hcolumn, rfl⟩,
        rfl⟩)⟩
    · have hwithin : scope.listsValues key (some .within) = true := by
        rw [Scope.listsValues, Scope.resolveKey]
        cases scope.forcedKey <;> rfl
      rw [hwithin] at hlists
      cases hlists
  rw [predicate, hother]
  exact ⟨_, map_eq_ok.mpr ⟨_, Scope.links_clause_eq_ok.mpr ⟨term', hterm', links, hrest, rfl⟩, rfl⟩⟩

/-! ## Selects of related rows -/

/-- With a driver that always replies the same, relations are planned the same in all sessions. -/
lemma Plan.settled_ofRelations {ctx : Context σ} (hsteady : ctx.driver.Steady) (withFields : Bool)
    (relations : List Relation) (main : TableRef) :
    Settled (Plan.ofRelations ctx withFields relations main) :=
  hsteady.stable.planned.expandAll withFields main.reference main.name [] relations

namespace Deferred

variable {ctx : Context σ} {deferred : Deferred}

/-- Whether the related rows can be asked for does not depend on the keys, and neither does the plan
of the nested relations. -/
lemma exists_request (hsteady : ctx.driver.Steady) {keys : List Value} {child : ResultSet}
    {s t : Session σ} (h : Engine.alone (deferred.request ctx keys) s = (.ok child, t))
    (keys' : List Value) (s' : Session σ) :
    ∃ child' t', Engine.alone (deferred.request ctx keys') s' = (.ok child', t')
      ∧ child'.plan = child.plan := by
  rw [alone_request] at h
  obtain ⟨_, u, hwritten, h⟩ := run_bind_eq_ok.mp h
  obtain ⟨hselect, rfl⟩ := run_written_eq_ok.mp hwritten
  obtain ⟨hunambiguous, rfl⟩ := select_eq_ok.mp hselect
  obtain ⟨main, plan, query, hmain, hplan, hquery, rfl⟩ :=
    Statement.resultSet_fst_eq_ok.mp (congrArg Prod.fst h)
  have hread : ∀ scope filter, (deferred.statement keys).conditions.predicate scope = .ok filter →
      ∃ filter', (deferred.statement keys').conditions.predicate scope = .ok filter' := by
    cases hreplacement : deferred.relation.link.replacement with
    | some replacement =>
        -- the keys are not even written
        have hsame (keys : List Value) : (deferred.statement keys).conditions
            = Conditions.empty.extend replacement := by
          rw [Deferred.statement, requestFilter, hreplacement]
        intro scope filter hfilter
        rw [hsame] at hfilter ⊢
        exact ⟨filter, hfilter⟩
    | none =>
        obtain ⟨rest, hentries⟩ := exists_entries_of_statement hreplacement
        exact Conditions.exists_predicate_of_list (hentries keys) (hentries keys')
  obtain ⟨query', hquery'⟩ := Statement.exists_selectQuery hquery hread
  rw [Plan.settled_ofRelations hsteady _ _ _ s s'] at hplan
  obtain ⟨child', t', hresult, hsame⟩ : ∃ child' t',
      (deferred.statement keys').resultSet ctx s' = (.ok child', t') ∧ child'.plan = plan :=
    ⟨_, _, Prod.ext (Statement.resultSet_fst_eq_ok.mpr
      ⟨main, plan, query', hmain, hplan, hquery', rfl⟩) rfl, rfl⟩
  refine ⟨child', t', ?_, hsame⟩
  rw [alone_request]
  exact run_bind_eq_ok.mpr ⟨_, s', run_written_eq_ok.mpr
    ⟨select_eq_ok.mpr ⟨hunambiguous, rfl⟩, rfl⟩, hresult⟩

/-! ## Keys of fewer rows -/

variable {rows : List Row}

lemma Lacks.mono {rows' : List Row} (hsub : rows' ⊆ rows) (h : deferred.Lacks rows') :
    deferred.Lacks rows := by
  obtain ⟨row, hrow, howner⟩ := h
  exact ⟨row, hsub hrow, howner⟩

/-- Values that are left out have the key of one that is kept. -/
lemma mem_filterMap_eraseDupsBy {values : List Value} {key : String} :
    key ∈ (values.eraseDupsBy fun v w => v.key? == w.key?).filterMap Value.key?
      ↔ key ∈ values.filterMap Value.key? := by
  induction hlength : values.length using Nat.strong_induction_on generalizing values with
  | _ n ih =>
      cases values with
      | nil => rfl
      | cons v values =>
          have hshorter : (values.filter fun w => (w.key? == v.key?) = false).length < n := by
            rw [← hlength]
            exact Nat.lt_succ_of_le (List.length_filter_le _ _)
          have hrest := ih _ hshorter rfl
          simp only [List.mem_filterMap] at hrest
          simp only [List.eraseDupsBy_cons, List.mem_filterMap, List.mem_cons, exists_eq_or_imp]
          rw [hrest]
          simp only [List.mem_filter, decide_eq_true_eq, beq_eq_false_iff_ne]
          constructor
          · rintro (hv | ⟨w, ⟨hw, -⟩, hkey⟩)
            · exact .inl hv
            · exact .inr ⟨w, hw, hkey⟩
          · rintro (hv | ⟨w, hw, hkey⟩)
            · exact .inl hv
            · by_cases hsame : w.key? = v.key?
              · exact .inl (hsame ▸ hkey)
              · exact .inr ⟨w, ⟨hw, hsame⟩, hkey⟩

/-- The keys that are collected are those of the owners. -/
lemma mem_filterMap_distinctKeys {key : String} :
    key ∈ (deferred.distinctKeys rows).filterMap Value.key?
      ↔ ∃ row ∈ rows, (row.at? deferred.path deferred.parentKey).bind Value.key? = some key := by
  rw [distinctKeys, mem_filterMap_eraseDupsBy, ownerValues]
  simp only [List.mem_filterMap, List.mem_filter, Option.bind_eq_some_iff]
  constructor
  · rintro ⟨value, ⟨⟨row, hrow, hvalue⟩, -⟩, hkey⟩
    exact ⟨row, hrow, value, hvalue, hkey⟩
  · rintro ⟨row, hrow, value, hvalue, hkey⟩
    refine ⟨value, ⟨⟨row, hrow, hvalue⟩, ?_⟩, hkey⟩
    cases value with
    | null => cases hkey
    | _ => rfl

lemma filterMap_distinctKeys_subset {rows' : List Row} (hsub : rows' ⊆ rows) :
    (deferred.distinctKeys rows').filterMap Value.key?
      ⊆ (deferred.distinctKeys rows).filterMap Value.key? := by
  intro key hkey
  obtain ⟨row, hrow, hvalue⟩ := mem_filterMap_distinctKeys.mp hkey
  exact mem_filterMap_distinctKeys.mpr ⟨row, hsub hrow, hvalue⟩

/-! ## Groups of fewer rows -/

/-- Rows can be assigned if each of them has the column that is matched. -/
lemma exists_groups (h : ∀ row ∈ rows, (row.get? deferred.keyColumn).isSome) :
    ∃ groups, deferred.groups rows = .ok groups := by
  induction rows with
  | nil => exact ⟨[], rfl⟩
  | cons row rows ih =>
      obtain ⟨hrow, hrows⟩ := List.forall_mem_cons.mp h
      obtain ⟨rest, hrest⟩ := ih hrows
      rw [groups]
      rw [← keyOf_fst] at hrow
      split
      · next hnone =>
          rw [hnone] at hrow
          cases hrow
      · next value kept _ =>
          cases hkey : value.key? with
          | some key => exact ⟨_, bind_eq_ok.mpr ⟨rest, hrest, rfl⟩⟩
          | none => exact ⟨_, bind_eq_ok.mpr ⟨rest, hrest, rfl⟩⟩

lemma isSome_of_groups {groups : List (String × Row)} (h : deferred.groups rows = .ok groups) :
    ∀ row ∈ rows, (row.get? deferred.keyColumn).isSome := by
  intro row hrow
  by_contra hnone
  rw [groups_of_missing hrow (by simpa using hnone)] at h
  cases h

/-! ## Replies by key -/

/-- A database that finds the same rows for a key, whatever other keys it is asked for.  Asked for
fewer keys, it replies with no other rows. -/
structure AnsweredByKey (ctx : Context σ) (deferred : Deferred) (reply : List Value → List Row) :
    Prop where
  replies : ∀ keys, keys ≠ [] → ∀ s child t,
    Engine.alone (deferred.request ctx keys) s = (.ok child, t) →
      ∀ s', (ctx.fetch child.prepared s').1 = .ok (reply keys)
  same : ∀ keys keys' key, key ∈ keys.filterMap Value.key? → key ∈ keys'.filterMap Value.key? →
    (reply keys').filter (fun raw => deferred.relatedKey raw == some key)
      = (reply keys).filter fun raw => deferred.relatedKey raw == some key
  fewer : ∀ keys keys', keys'.filterMap Value.key? ⊆ keys.filterMap Value.key? →
    reply keys' ⊆ reply keys

end Deferred

/-- The relations of a plan are undisturbed and answered by key, and so are those nested in them. -/
def Plan.Keyed (ctx : Context σ) : Nat → Plan → Prop
  | 0, _ => True
  | depth + 1, plan => ∀ deferred ∈ plan.deferred, deferred.Undisturbed plan
      ∧ (∃ reply, deferred.AnsweredByKey ctx reply)
      ∧ ∀ keys s child t, Engine.alone (deferred.request ctx keys) s = (.ok child, t) →
          Keyed ctx depth child.plan

/-- Some of the rows that are fetched with a plan become what `become` says, whatever other ones are
fetched with them. -/
def Plan.Becomes (ctx : Context σ) (depth : Nat) (plan : Plan) (raws : List Row)
    (become : Row → Row) : Prop :=
  ∀ (result : ResultSet) (fetched : List Row) (s : Session σ), result.plan = plan →
    fetched ⊆ raws → (ctx.fetch result.prepared s).1 = .ok fetched →
      (result.materializeTo ctx depth s).1 = .ok (fetched.map become)

namespace Deferred

variable {ctx : Context σ} {deferred : Deferred} {plan : Plan}

/-- What is matched, if each row becomes something by itself. -/
lemma matching_map (raws : List Row) (become : Row → Row) (key : String) :
    deferred.matching (raws.map fun raw => (raw, become raw)) (some key)
      = (raws.filter fun raw => deferred.relatedKey raw == some key).map
        fun raw => (deferred.keyOf (become raw)).2 := by
  rw [matching, List.filter_map, List.map_map]
  rfl

/-- The groups of the related rows are those of the keys that were fetched with them. -/
lemma groupOf_become {depth : Nat} (hcheck : deferred.relation.check = .ok ())
    (hundisturbed : deferred.Undisturbed plan) {keys : List Value} {child : ResultSet}
    {s t : Session σ} (hchild : Engine.alone (deferred.request ctx keys) s = (.ok child, t))
    {raws : List Row} {become : Row → Row} (hfetch : (ctx.fetch child.prepared t).1 = .ok raws)
    (hrows : (child.materializeTo ctx depth t).1 = .ok (raws.map become))
    {groups : List (String × Row)} (h : deferred.groups (raws.map become) = .ok groups)
    (key : String) : groupOf groups (some key)
      = (raws.filter fun raw => deferred.relatedKey raw == some key).map
        fun raw => (deferred.keyOf (become raw)).2 := by
  have hfst : (raws.map fun raw => (raw, become raw)).map Prod.fst = raws := by
    rw [List.map_map]
    exact List.map_id raws
  have hsnd : (raws.map fun raw => (raw, become raw)).map Prod.snd = raws.map become := by
    rw [List.map_map]
    rfl
  have hyields : child.Yields ctx depth t (raws.map fun raw => (raw, become raw)) :=
    ⟨⟨_, Prod.ext (by rw [hfst, hfetch]) rfl⟩, ⟨_, Prod.ext (by rw [hsnd, hrows]) rfl⟩⟩
  have hfits := makes_fits_request ctx keys hcheck s child t hchild
  have hsame := hyields.get?_eq hfits.laidOut hundisturbed.nested hundisturbed.relatedColumn
  rw [groupOf_eq_matching hsame (by rw [hsnd, h]), matching_map]

/-- **A relation is loaded by fewer keys like by more of them**: each of the fewer keys gets the same
rows. -/
lemma exists_load (hsteady : ctx.driver.Steady) {depth : Nat}
    (hcheck : deferred.relation.check = .ok ()) (hundisturbed : deferred.Undisturbed plan)
    {reply : List Value → List Row} (hreply : deferred.AnsweredByKey ctx reply)
    (hbelow : ∀ keys s child t, Engine.alone (deferred.request ctx keys) s = (.ok child, t) →
      ∀ raws rows, (ctx.fetch child.prepared t).1 = .ok raws →
        (child.materializeTo ctx depth t).1 = .ok rows →
        ∃ become, rows = raws.map become ∧ child.plan.Becomes ctx depth raws become)
    {keys keys' : List Value} (hnone : keys = [] → keys' = [])
    (hfewer : keys'.filterMap Value.key? ⊆ keys.filterMap Value.key?)
    {groups : List (String × Row)} {s t : Session σ}
    (h : deferred.load (ResultSet.materializeTo ctx depth) ctx keys s = (.ok groups, t))
    (s' : Session σ) :
    ∃ groups' t', deferred.load (ResultSet.materializeTo ctx depth) ctx keys' s' = (.ok groups', t')
      ∧ ∀ key : Option String, (∀ k ∈ key, k ∈ keys'.filterMap Value.key?) →
        groupOf groups' key = groupOf groups key := by
  by_cases hkeys' : keys' = []
  · subst hkeys'
    refine ⟨[], s', rfl, fun key hkey => ?_⟩
    cases key with
    | none => rfl
    | some key => exact absurd (hkey key rfl) List.not_mem_nil
  · have hkeys : keys ≠ [] := fun hnil => hkeys' (hnone hnil)
    rw [load, if_neg (by simpa using hkeys)] at h
    obtain ⟨_, u, -, h⟩ := run_bind_eq_ok.mp h
    obtain ⟨child, v, hchild, h⟩ := run_bind_eq_ok.mp h
    obtain ⟨rows, w, hrows, h⟩ := run_bind_eq_ok.mp h
    obtain ⟨hgroups, -⟩ := run_ofExcept_eq_ok.mp h
    have hfetch := hreply.replies keys hkeys u child v hchild v
    obtain ⟨become, rfl, hbecome⟩ :=
      hbelow keys u child v hchild _ rows hfetch (congrArg Prod.fst hrows)
    -- the select of the fewer keys has the same plan, so the induction reaches it
    have hsub : reply keys' ⊆ reply keys := hreply.fewer keys keys' hfewer
    obtain ⟨u', hemit⟩ : ∃ u', Session.emit (.loading deferred.relation.link.aliasName
        deferred.relation.link.mode keys'.length) s' = (.ok (), u') := ⟨_, rfl⟩
    obtain ⟨child', v', hchild', hplan⟩ := exists_request hsteady hchild keys' u'
    have hfetch' := hreply.replies keys' hkeys' u' child' v' hchild' v'
    obtain ⟨w', hrows'⟩ : ∃ w', child'.materializeTo ctx depth v'
        = (.ok ((reply keys').map become), w') :=
      ⟨_, Prod.ext (hbecome child' (reply keys') v' hplan hsub hfetch') rfl⟩
    obtain ⟨groups', hgroups'⟩ :
        ∃ groups', deferred.groups ((reply keys').map become) = .ok groups' :=
      exists_groups fun row hrow => isSome_of_groups hgroups row (List.map_subset become hsub hrow)
    refine ⟨groups', w', ?_, fun key hkey => ?_⟩
    · rw [load, if_neg (by simpa using hkeys')]
      exact run_bind_eq_ok.mpr ⟨(), u', hemit, run_bind_eq_ok.mpr ⟨child', v', hchild',
        run_bind_eq_ok.mpr ⟨_, w', hrows', run_ofExcept_eq_ok.mpr ⟨hgroups', rfl⟩⟩⟩⟩
    · cases key with
      | none => rfl
      | some key =>
          rw [groupOf_become hcheck hundisturbed hchild hfetch (congrArg Prod.fst hrows) hgroups,
            groupOf_become hcheck hundisturbed hchild' hfetch' (congrArg Prod.fst hrows') hgroups',
            hreply.same keys keys' key (hfewer (hkey key rfl)) (hkey key rfl)]

/-! ## Rows of fewer rows -/

/-- A change of the owner can be told from another one by the owner that is there. -/
lemma changeAt_congr {change change' : Row → Except Error Row} {path : List String} {row : Row}
    (h : ∀ owner, ownerAt row path = some owner → change owner = change' owner) :
    changeAt change path row = changeAt change' path row := by
  induction path generalizing row with
  | nil => exact h row rfl
  | cons aliasName path ih =>
      rw [changeAt_cons, changeAt_cons]
      cases hmember : row.member? aliasName with
      | none => rfl
      | some object =>
          simp only
          rw [ih fun owner howner => h owner (by rw [ownerAt_cons, hmember]; exact howner)]

/-- What a fetched row becomes when loaded relations are embedded in it, if that succeeds. -/
def outcome (nodes : List Node) (steps : List (Deferred × List (String × Row))) (raw : Row) : Row :=
  (embedEach steps (Row.fold nodes raw)).toOption.getD raw

lemma outcome_eq {nodes : List Node} {steps : List (Deferred × List (String × Row))} {raw row : Row}
    (h : embedEach steps (Row.fold nodes raw) = .ok row) : outcome nodes steps raw = row := by
  rw [outcome, h]
  rfl

/-- One relation does to a row what it did to it among more rows, if the row's key has the same
group. -/
lemma changeAt_outcome {aliases : List String} (hlaid : Plan.LaidOut [] aliases plan)
    {before after : List (Deferred × List (String × Row))} {groups groups' : List (String × Row)}
    (hsteps : (before ++ (deferred, groups) :: after).map Prod.fst = plan.deferred)
    (hundisturbed : deferred.Undisturbed plan) {raws : List Row}
    (hlacks : ¬ deferred.Lacks (raws.map (Row.fold plan.nodes)))
    (hgroups : ∀ key : Option String,
      (∀ k ∈ key, k ∈ (deferred.distinctKeys (raws.map (Row.fold plan.nodes))).filterMap
        Value.key?) → groupOf groups' key = groupOf groups key)
    {raw row : Row} (hraw : raw ∈ raws)
    (h : embedEach (before ++ (deferred, groups) :: after) (Row.fold plan.nodes raw) = .ok row) :
    changeAt (deferred.embedInOwner groups') deferred.path (outcome plan.nodes before raw)
      = .ok (outcome plan.nodes (before ++ [(deferred, groups)]) raw) := by
  obtain ⟨mid, hmid, h⟩ := embedEach_append_eq_ok.mp h
  obtain ⟨next, hnext, -⟩ := embedEach_cons_eq_ok.mp h
  have hboth : embedEach (before ++ [(deferred, groups)]) (Row.fold plan.nodes raw) = .ok next :=
    embedEach_append_eq_ok.mpr ⟨mid, hmid, embedEach_cons_eq_ok.mpr ⟨next, hnext, rfl⟩⟩
  rw [outcome_eq hmid, outcome_eq hboth, ← hnext]
  have hkey : ∀ owner, ownerAt (Row.fold plan.nodes raw) deferred.path = some owner →
      (owner.get? deferred.parentKey).isSome :=
    not_lacks_iff.mp hlacks _ (List.mem_map_of_mem hraw)
  refine changeAt_congr fun owner howner => ?_
  obtain ⟨hfold, hsame⟩ := ownerKey_of_embedEach hlaid hsteps hundisturbed hkey hmid howner
  obtain ⟨foldOwner, hfoldOwner⟩ := Option.isSome_iff_exists.mp hfold
  have hmem : deferred ∈ plan.deferred := hsteps ▸ List.mem_map_of_mem
    (List.mem_append_right before List.mem_cons_self)
  rw [embedInOwner, embedInOwner, hgroups]
  intro key hkeyOf
  refine mem_filterMap_distinctKeys.mpr ⟨_, List.mem_map_of_mem hraw, ?_⟩
  rw [key_of_fold hlaid hmem hundisturbed, ← hsame]
  · exact hkeyOf
  · rw [Row.at?_of_ownerAt hfoldOwner]
    exact hkey foldOwner hfoldOwner

/-- **Fewer rows become what the same ones became among more of them.** -/
lemma attachEach_outcome {materialize : ResultSet → Session.Run σ (List Row)}
    {aliases : List String} (hlaid : Plan.LaidOut [] aliases plan)
    (hundisturbed : ∀ deferred ∈ plan.deferred, deferred.Undisturbed plan) {raws : List Row}
    (hlacks : ∀ deferred ∈ plan.deferred, ¬ deferred.Lacks (raws.map (Row.fold plan.nodes)))
    {before after : List (Deferred × List (String × Row))}
    (hsteps : (before ++ after).map Prod.fst = plan.deferred)
    (hload : ∀ step ∈ after, ∀ s, ∃ groups t,
      step.1.load materialize ctx (step.1.distinctKeys (raws.map (Row.fold plan.nodes))) s
          = (.ok groups, t)
        ∧ ∀ key : Option String,
          (∀ k ∈ key, k ∈ (step.1.distinctKeys (raws.map (Row.fold plan.nodes))).filterMap
            Value.key?) → groupOf groups key = groupOf step.2 key)
    (hdone : ∀ raw ∈ raws, ∃ row, embedEach (before ++ after) (Row.fold plan.nodes raw) = .ok row)
    (s : Session σ) :
    (attachEach materialize ctx
        (after.map fun step => (step.1, step.1.distinctKeys (raws.map (Row.fold plan.nodes))))
        (raws.map (outcome plan.nodes before)) s).1
      = .ok (raws.map (outcome plan.nodes (before ++ after))) := by
  induction after generalizing before s with
  | nil =>
      rw [List.append_nil]
      rfl
  | cons step after ih =>
      obtain ⟨deferred, groups⟩ := step
      obtain ⟨hfirst, hrest⟩ := List.forall_mem_cons.mp hload
      obtain ⟨groups', t, hrun, hgroups⟩ := hfirst s
      have hmem : deferred ∈ plan.deferred := hsteps ▸ List.mem_map_of_mem
        (List.mem_append_right before List.mem_cons_self)
      have hembed : deferred.embed groups' (raws.map (outcome plan.nodes before))
          = .ok (raws.map (outcome plan.nodes (before ++ [(deferred, groups)]))) := by
        rw [embed, mapM_eq_ok, List.forall₂_map_left_iff, List.forall₂_map_right_iff,
          List.forall₂_same]
        intro raw hraw
        obtain ⟨row, hrow⟩ := hdone raw hraw
        exact changeAt_outcome hlaid hsteps (hundisturbed deferred hmem) (hlacks deferred hmem)
          hgroups hraw hrow
      have hsplit : before ++ (deferred, groups) :: after
          = before ++ [(deferred, groups)] ++ after := (List.append_cons ..)
      rw [hsplit] at hsteps hdone
      have hlater := ih hsteps hrest hdone t
      rw [List.map_cons, attachEach, run_bind, hrun]
      simp only
      rw [run_bind, hembed, hsplit]
      exact hlater

end Deferred

/-! ## Every level -/

namespace ResultSet

variable {ctx : Context σ} {result : ResultSet} {s : Session σ} {raws : List Row}

lemma flatRows_fst (h : (ctx.fetch result.prepared s).1 = .ok raws) :
    (result.flatRows ctx s).1 = .ok (raws.map (Row.fold result.plan.nodes)) := by
  obtain ⟨t, hfetch⟩ : ∃ t, ctx.fetch result.prepared s = (.ok raws, t) := ⟨_, Prod.ext h rfl⟩
  rw [flatRows, run_bind, hfetch]
  rfl

/-- As many rows are read as are fetched. -/
lemma length_of_materializeTo {depth : Nat} {rows : List Row}
    (hfetch : (ctx.fetch result.prepared s).1 = .ok raws)
    (h : (result.materializeTo ctx depth s).1 = .ok rows) : rows.length = raws.length := by
  obtain ⟨pairs, rfl, hyields⟩ := exists_yields (Prod.ext h rfl)
  obtain ⟨t, hpairs⟩ := hyields.fetched
  obtain rfl : raws = pairs.map Prod.fst :=
    Except.ok.inj (hfetch.symm.trans (congrArg Prod.fst hpairs))
  rw [List.length_map, List.length_map]

/-- The relations of some rows are loaded once the rows are fetched. -/
lemma materializeTo_fst (depth : Nat) (h : (ctx.fetch result.prepared s).1 = .ok raws) :
    ∃ t, result.materializeTo ctx (depth + 1) s = Deferred.attachAll (materializeTo ctx depth) ctx
      result.plan.deferred (raws.map (Row.fold result.plan.nodes)) t := by
  obtain ⟨t, hflat⟩ : ∃ t, result.flatRows ctx s
      = (.ok (raws.map (Row.fold result.plan.nodes)), t) := ⟨_, Prod.ext (flatRows_fst h) rfl⟩
  exact ⟨t, by rw [materializeTo, run_bind, hflat]⟩

/-- The relations of fewer rows do to them what they did among more rows, if each key that is left
gets the same group. -/
lemma becomes_of_steps {depth : Nat} {plan : Plan} {aliases : List String}
    (hlaid : Plan.LaidOut [] aliases plan)
    (hundisturbed : ∀ deferred ∈ plan.deferred, deferred.Undisturbed plan)
    {steps : List (Deferred × List (String × Row))} (hsteps : steps.map Prod.fst = plan.deferred)
    (hlacks : ∀ deferred ∈ plan.deferred, ¬ deferred.Lacks (raws.map (Row.fold plan.nodes)))
    (hload : ∀ step ∈ steps, ∀ fetched ⊆ raws, ∀ s, ∃ groups t,
      step.1.load (materializeTo ctx depth) ctx
          (step.1.distinctKeys (fetched.map (Row.fold plan.nodes))) s = (.ok groups, t)
        ∧ ∀ key : Option String,
          (∀ k ∈ key, k ∈ (step.1.distinctKeys (fetched.map (Row.fold plan.nodes))).filterMap
            Value.key?) → Deferred.groupOf groups key = Deferred.groupOf step.2 key)
    (hdone : ∀ raw ∈ raws, ∃ row, Deferred.embedEach steps (Row.fold plan.nodes raw) = .ok row) :
    plan.Becomes ctx (depth + 1) raws (Deferred.outcome plan.nodes steps) := by
  rintro other fetched s rfl hsub hfetched
  obtain ⟨t, hrun⟩ := materializeTo_fst depth hfetched
  have hfewer : ∀ deferred ∈ other.plan.deferred,
      ¬ deferred.Lacks (fetched.map (Row.fold other.plan.nodes)) :=
    fun deferred hmem h => hlacks deferred hmem (h.mono (List.map_subset _ hsub))
  rw [hrun, Deferred.attachAll_of_not_lacks hfewer, ← hsteps, List.map_map]
  have hsteps' : ([] ++ steps).map Prod.fst = other.plan.deferred := hsteps
  exact Deferred.attachEach_outcome hlaid hundisturbed hfewer hsteps'
    (fun step hstep => hload step hstep fetched hsub) (fun raw hraw => hdone raw (hsub hraw)) t

/-- **What a row becomes does not depend on the rows around it.**  The relations of a plan are
undisturbed and answered by key, on every level, and all rows of a result set are loaded.  Then any
of the rows that were fetched become the same when they are fetched without the others. -/
theorem exists_becomes (hsteady : ctx.driver.Steady) {depth : Nat} {relations : List Relation}
    (hfits : Plan.Fits relations result.plan) (hkeyed : result.plan.Keyed ctx depth)
    {rows : List Row} (hfetch : (ctx.fetch result.prepared s).1 = .ok raws)
    (h : (result.materializeTo ctx depth s).1 = .ok rows) :
    ∃ become, rows = raws.map become ∧ result.plan.Becomes ctx depth raws become := by
  induction depth generalizing relations result s raws rows with
  | zero =>
      refine ⟨Row.fold result.plan.nodes, Except.ok.inj (h.symm.trans (flatRows_fst hfetch)), ?_⟩
      rintro other fetched s' hplan - hfetched
      rw [← hplan]
      exact flatRows_fst hfetched
  | succ depth ih =>
      obtain ⟨_, u, steps, hraws, hsteps, hloads, hrows⟩ :=
        exists_steps_of_materializeTo (Prod.ext h rfl)
      obtain rfl := Except.ok.inj (hfetch.symm.trans (congrArg Prod.fst hraws))
      refine ⟨Deferred.outcome result.plan.nodes steps, ?_, ?_⟩
      · have hdone := hrows.imp fun raw row hrow => Deferred.outcome_eq hrow
        rw [← List.forall₂_map_left_iff, List.forall₂_eq_eq_eq] at hdone
        exact hdone.symm
      refine becomes_of_steps hfits.laidOut (fun deferred h => (hkeyed deferred h).1) hsteps ?_ ?_ ?_
      · rw [← hsteps]
        refine List.forall_mem_map.mpr fun step hstep => ?_
        obtain ⟨keys, _, _, hkeys, -⟩ := hloads step hstep
        exact Deferred.not_lacks_iff.mpr (Deferred.isSome_of_keysFrom hkeys)
      · intro step hstep fetched hsub
        have hmem : step.1 ∈ result.plan.deferred := hsteps ▸ List.mem_map_of_mem hstep
        have hfewer : fetched.map (Row.fold result.plan.nodes)
            ⊆ raws.map (Row.fold result.plan.nodes) := List.map_subset _ hsub
        obtain ⟨hundisturbed, ⟨reply, hreply⟩, hbelow⟩ := hkeyed step.1 hmem
        obtain ⟨keys, _, _, hkeys, hload⟩ := hloads step hstep
        obtain rfl := Deferred.eq_distinctKeys_of_keys hkeys
        have hcheck := hfits.laidOut.checked step.1 hmem
        refine Deferred.exists_load hsteady hcheck hundisturbed hreply ?_ ?_
          (Deferred.filterMap_distinctKeys_subset hfewer) hload
        · intro keys v child w hchild raws rows
          exact ih (Deferred.makes_fits_request ctx keys hcheck v child w hchild)
            (hbelow keys v child w hchild)
        · simp only [Deferred.distinctKeys_eq_nil_iff]
          exact fun hnull row hrow => hnull row (hfewer hrow)
      · intro raw hraw
        obtain ⟨row, -, hrow⟩ := exists_mem_of_mapM (mapM_eq_ok.mpr hrows) hraw
        exact ⟨row, hrow⟩

end ResultSet

end RelQuery
