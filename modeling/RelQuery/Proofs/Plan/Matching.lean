import RelQuery.Proofs.Plan.Embedding
import RelQuery.Proofs.Plan.Related

/-!
# Which rows are attached

The keys of the owners are collected before anything is embedded, but they are read once more when
the rows of a relation are handed out, and the related rows are matched when their own relations are
in them.  As long as nothing is embedded over these columns, the rows that an owner gets are those
that were fetched with the key that was fetched with the owner.

* `Deferred.Undisturbed` says that nothing is embedded over the columns that are matched.
* `Deferred.Attached` says which related rows the owner in a row has.
* `Plan.Attaches` says so for all relations of a plan, and for those nested in them.
* **`ResultSet.Yields.attaches`** — undisturbed relations attach the rows of the fetched keys, on
  every level.
-/

namespace RelQuery

variable {σ : Type}

namespace Deferred

/-! ## Keys as they were fetched -/

/-- The key of the owner of a relation, in the row that was fetched. -/
def ownerKey (deferred : Deferred) (raw : Row) : Option String :=
  (raw.get? (Plan.columnAt deferred.path deferred.parentKey)).bind Value.key?

/-- The key of a related row, as it was fetched. -/
def relatedKey (deferred : Deferred) (raw : Row) : Option String :=
  (raw.get? deferred.keyColumn).bind Value.key?

/-- The related rows of a key, without the junction table's column.  Each row stands behind the row
that was fetched for it, and that one decides. -/
def matching (deferred : Deferred) (related : List (Row × Row)) : Option String → List Row
  | none => []
  | some key =>
    (related.filter fun pair => deferred.relatedKey pair.1 == some key).map
      fun pair => (deferred.keyOf pair.2).2

/-- A row has an owner as it had one when it was folded, and the owner has the related rows of the
key that was fetched, in the declared shape. -/
structure Attached (plan : Plan) (deferred : Deferred) (related : List (Row × Row))
    (raw row : Row) : Prop where
  owner : (ownerAt row deferred.path).isSome
    = (ownerAt (Row.fold plan.nodes raw) deferred.path).isSome
  value : ∀ owner, ownerAt row deferred.path = some owner →
    ∃ value, owner.get? deferred.relation.aliasName = some value
      ∧ deferred.embedded (deferred.matching related (deferred.ownerKey raw)) = .ok value

/-- Nothing gets in the way of the columns that a relation is matched by, before they are read. -/
structure Undisturbed (plan : Plan) (deferred : Deferred) : Prop where
  /-- No joined relation is put over the column of the owner. -/
  joined : ¬ Node.Leads plan.nodes (deferred.path ++ [deferred.parentKey])
  /-- No relation that is loaded earlier is embedded over it. -/
  earlier : ∀ other, [other, deferred].Sublist plan.deferred →
    other.place ≠ deferred.path ++ [deferred.parentKey]
  /-- No nested relation is put or embedded over the column of the related rows. -/
  nested : deferred.keyColumn ∉ deferred.relation.nested.map Relation.aliasName
  /-- Folding takes neither column for one of a joined relation. -/
  ownerColumn : deferred.path = [] → ¬ Plan.IsPrefixed deferred.parentKey
  relatedColumn : ¬ Plan.IsPrefixed deferred.keyColumn
  /-- Folding does not mix up names, where the owner is a joined relation. -/
  tidy : deferred.path ≠ [] → plan.Tidy

end Deferred

/-! ## Places of a layout -/

namespace Plan.LaidOut

variable {aliases : List String} {plan : Plan} {deferred other : Deferred}

lemma leads_path (h : LaidOut [] aliases plan) (hmem : deferred ∈ plan.deferred) :
    Node.Leads plan.nodes deferred.path := by
  obtain ⟨rest, hpath, hleads, -⟩ := h.owners deferred hmem
  rwa [hpath]

lemma not_leads_place (h : LaidOut [] aliases plan) (hmem : deferred ∈ plan.deferred) :
    ¬ Node.Leads plan.nodes deferred.place := by
  obtain ⟨rest, hpath, -, hfree⟩ := h.owners deferred hmem
  rwa [Deferred.place, hpath]

/-- No relation is embedded on the way to an owner. -/
lemma not_prefix_path (h : LaidOut [] aliases plan) (hmem : deferred ∈ plan.deferred)
    (hother : other ∈ plan.deferred) : ¬ other.place <+: deferred.path := by
  rintro ⟨rest, hrest⟩
  have hleads := h.leads_path hmem
  rw [← hrest] at hleads
  exact h.not_leads_place hother hleads.of_append

/-- A relation is embedded apart from a column of an owner, unless it is embedded over it. -/
lemma place_apart (h : LaidOut [] aliases plan) (hmem : deferred ∈ plan.deferred)
    (hother : other ∈ plan.deferred) {name : String}
    (hfree : ¬ Node.Leads plan.nodes (deferred.path ++ [name]))
    (hne : other.place ≠ deferred.path ++ [name]) :
    ¬ other.place <+: deferred.path ++ [name] ∧ ¬ deferred.path ++ [name] <+: other.place := by
  refine ⟨fun hunder => ?_, fun hover => ?_⟩
  · exact (List.prefix_concat_iff.mp hunder).elim hne (h.not_prefix_path hmem hother)
  · rcases List.prefix_concat_iff.mp hover with heq | ⟨rest, hrest⟩
    · exact hne heq.symm
    · have hleads := h.leads_path hother
      rw [← hrest] at hleads
      exact hfree hleads.of_append

end Plan.LaidOut

/-! ## One row -/

namespace Deferred

variable {aliases : List String} {plan : Plan} {deferred : Deferred}

/-- The key that stands in the owner of a folded row is the one that was fetched. -/
lemma key_of_fold (hlaid : Plan.LaidOut [] aliases plan)
    (hmem : deferred ∈ plan.deferred) (hundisturbed : deferred.Undisturbed plan) {raw : Row}
    (hkey : ((Row.fold plan.nodes raw).at? deferred.path deferred.parentKey).isSome) :
    ((Row.fold plan.nodes raw).at? deferred.path deferred.parentKey).bind Value.key?
      = deferred.ownerKey raw := by
  rw [ownerKey]
  by_cases hpath : deferred.path = []
  · have hplain := hundisturbed.ownerColumn hpath
    have hjoined := hundisturbed.joined
    rw [hpath] at hjoined ⊢
    rw [Row.at?_nil, Row.get?_fold_of_not_mem]
    · rfl
    · exact fun hname => hplain (Node.isPrefixed_of_mem_namesOfAll _ hname)
    · intro hname
      obtain ⟨node, hnode, heq⟩ := List.mem_map.mp hname
      exact hjoined ⟨node, hnode, heq, trivial⟩
  · obtain ⟨value, hvalue⟩ := Option.isSome_iff_exists.mp hkey
    have hread := Row.at?_fold (hundisturbed.tidy hpath) hlaid.apart hpath (hlaid.leads_path hmem)
      hundisturbed.joined hvalue
    rw [hvalue, Option.bind_some, hread, Row.read]
    cases raw.get? (Plan.columnAt deferred.path deferred.parentKey) <;> rfl

/-- What is embedded before a relation leaves its owners, and the keys that stand in them are still
those that were fetched. -/
lemma ownerKey_of_embedEach (hlaid : Plan.LaidOut [] aliases plan)
    {before after : List (Deferred × List (String × Row))} {groups : List (String × Row)}
    (hsteps : (before ++ (deferred, groups) :: after).map Prod.fst = plan.deferred)
    (hundisturbed : deferred.Undisturbed plan) {raw mid owner : Row}
    (hkey : ∀ owner, ownerAt (Row.fold plan.nodes raw) deferred.path = some owner →
      (owner.get? deferred.parentKey).isSome)
    (h : embedEach before (Row.fold plan.nodes raw) = .ok mid)
    (howner : ownerAt mid deferred.path = some owner) :
    (ownerAt (Row.fold plan.nodes raw) deferred.path).isSome
      ∧ (owner.get? deferred.parentKey).bind Value.key? = deferred.ownerKey raw := by
  have hall : ∀ step ∈ before ++ (deferred, groups) :: after, step.1 ∈ plan.deferred :=
    fun step hstep => hsteps ▸ List.mem_map_of_mem hstep
  obtain ⟨hbefore, hrest⟩ := List.forall_mem_append.mp hall
  have hmem : deferred ∈ plan.deferred := hrest _ List.mem_cons_self
  have hfoldSome : (ownerAt (Row.fold plan.nodes raw) deferred.path).isSome := by
    rw [← isSome_ownerAt_embedEach h fun step hstep => hlaid.not_prefix_path hmem
      (hbefore step hstep), howner, Option.isSome_some]
  refine ⟨hfoldSome, ?_⟩
  obtain ⟨foldOwner, hfoldOwner⟩ := Option.isSome_iff_exists.mp hfoldSome
  have hisSome : ((Row.fold plan.nodes raw).at? deferred.path deferred.parentKey).isSome := by
    rw [Row.at?_of_ownerAt hfoldOwner]
    exact hkey foldOwner hfoldOwner
  -- What is embedded earlier is not embedded over the key.
  have hearlier : ∀ step ∈ before, step.1.place ≠ deferred.path ++ [deferred.parentKey] := by
    intro step hstep
    refine hundisturbed.earlier step.1 ?_
    rw [← hsteps, List.map_append, List.map_cons]
    exact (List.singleton_sublist.mpr (List.mem_map_of_mem hstep)).append
      (List.cons_sublist_cons.mpr (List.nil_sublist _))
  have hat : mid.at? deferred.path deferred.parentKey
      = (Row.fold plan.nodes raw).at? deferred.path deferred.parentKey :=
    at?_embedEach h fun step hstep => hlaid.place_apart hmem (hbefore step hstep)
      hundisturbed.joined (hearlier step hstep)
  rw [← key_of_fold hlaid hmem hundisturbed hisSome, ← hat, Row.at?_of_ownerAt howner]

/-- What becomes of one row: an undisturbed relation attaches the rows of the fetched key. -/
lemma attached_of_embedEach (hlaid : Plan.LaidOut [] aliases plan)
    {before after : List (Deferred × List (String × Row))} {groups : List (String × Row)}
    (hsteps : (before ++ (deferred, groups) :: after).map Prod.fst = plan.deferred)
    (hundisturbed : deferred.Undisturbed plan) {related : List (Row × Row)}
    (hgroups : ∀ key, groupOf groups key = deferred.matching related key) {raw row : Row}
    (hkey : ∀ owner, ownerAt (Row.fold plan.nodes raw) deferred.path = some owner →
      (owner.get? deferred.parentKey).isSome)
    (h : embedEach (before ++ (deferred, groups) :: after) (Row.fold plan.nodes raw) = .ok row) :
    deferred.Attached plan related raw row := by
  have hall : ∀ step ∈ before ++ (deferred, groups) :: after, step.1 ∈ plan.deferred :=
    fun step hstep => hsteps ▸ List.mem_map_of_mem hstep
  obtain ⟨hbefore, hrest⟩ := List.forall_mem_append.mp hall
  obtain ⟨hmem, hafter⟩ := List.forall_mem_cons.mp hrest
  have howners : (ownerAt row deferred.path).isSome
      = (ownerAt (Row.fold plan.nodes raw) deferred.path).isSome :=
    isSome_ownerAt_embedEach h fun step hstep => hlaid.not_prefix_path hmem (hall step hstep)
  refine ⟨howners, fun owner howner => ?_⟩
  -- The row right before the relation is embedded, and right after.
  obtain ⟨mid, hmid, h⟩ := embedEach_append_eq_ok.mp h
  obtain ⟨next, hnext, h⟩ := embedEach_cons_eq_ok.mp h
  have hfoldSome : (ownerAt (Row.fold plan.nodes raw) deferred.path).isSome := by
    rw [← howners, howner, Option.isSome_some]
  have hmidSome : (ownerAt mid deferred.path).isSome := by
    rwa [isSome_ownerAt_embedEach hmid fun step hstep =>
      hlaid.not_prefix_path hmem (hbefore step hstep)]
  obtain ⟨midOwner, hmidOwner⟩ := Option.isSome_iff_exists.mp hmidSome
  obtain ⟨nextOwner, hembed, hnextOwner⟩ := exists_change_of_ownerAt hmidOwner hnext
  obtain ⟨value, hvalue, rfl⟩ := embedInOwner_eq_ok.mp hembed
  refine ⟨value, ?_, ?_⟩
  · -- What is embedded later is embedded elsewhere.
    have hlater : ∀ step ∈ after, step.1.place ≠ deferred.place := by
      intro step hstep heq
      have hnodup := hlaid.nodup
      rw [← hsteps, List.map_append, List.map_cons, List.map_append, List.map_cons] at hnodup
      exact (List.nodup_cons.mp (List.nodup_append'.mp hnodup).2.1).1
        (List.mem_map.mpr ⟨step.1, List.mem_map_of_mem hstep, heq⟩)
    have hat : row.at? deferred.path deferred.relation.aliasName
        = next.at? deferred.path deferred.relation.aliasName :=
      at?_embedEach h fun step hstep => hlaid.place_apart hmem (hafter step hstep)
        (hlaid.not_leads_place hmem) (hlater step hstep)
    rw [← Row.at?_of_ownerAt howner, hat, Row.at?_of_ownerAt hnextOwner, Row.get?_insert,
      if_pos rfl]
  · rw [← (ownerKey_of_embedEach hlaid hsteps hundisturbed hkey hmid hmidOwner).2, ← hgroups]
    exact hvalue

/-- The groups of related rows are the rows that were fetched with their keys. -/
lemma groupOf_eq_matching {deferred : Deferred} {related : List (Row × Row)}
    (hsame : ∀ pair ∈ related, pair.2.get? deferred.keyColumn = pair.1.get? deferred.keyColumn)
    {groups : List (String × Row)} (h : deferred.groups (related.map Prod.snd) = .ok groups)
    (key : Option String) : groupOf groups key = deferred.matching related key := by
  cases key with
  | none => rfl
  | some key =>
      rw [groupOf_groups h, List.filter_map, List.map_map, matching]
      have hfilter : related.filter
            ((fun row => (row.get? deferred.keyColumn).bind Value.key? == some key) ∘ Prod.snd)
          = related.filter fun pair => deferred.relatedKey pair.1 == some key := by
        refine List.filter_congr fun pair hpair => ?_
        rw [Function.comp_apply, hsame pair hpair, relatedKey]
      rw [hfilter]
      rfl

end Deferred

/-! ## Every level -/

/-- The rows that are related to some keys: none for no keys, else those that the select of the keys
yields.  `below` holds of its plan and of the rows. -/
def Deferred.Relates (ctx : Context σ) (depth : Nat) (below : Plan → List (Row × Row) → Prop)
    (deferred : Deferred) (keys : List Value) (related : List (Row × Row)) : Prop :=
  if keys.isEmpty then related = []
  else ∃ child s t, Engine.alone (deferred.request ctx keys) s = (.ok child, t)
    ∧ child.Yields ctx depth t related ∧ below child.plan related

/-- What is attached to rows, by the relations of a plan and by those nested in them.  The keys are
those of the folded rows, and on each level undisturbed relations attach the rows that were fetched
with the keys that were fetched. -/
def Plan.Attaches (ctx : Context σ) : Nat → Plan → List (Row × Row) → Prop
  | 0, plan, _ => plan.deferred = []
  | depth + 1, plan, pairs =>
    ∀ deferred ∈ plan.deferred, ∃ keys related,
      deferred.keys (pairs.map fun pair => Row.fold plan.nodes pair.1) = .ok keys
      ∧ deferred.Relates ctx depth (Attaches ctx depth) keys related
      ∧ (deferred.Undisturbed plan →
          ∀ pair ∈ pairs, deferred.Attached plan related pair.1 pair.2)

/-- The rows of a relation, and how they are grouped, from what is attached one level below. -/
lemma Deferred.exists_related_of_load {ctx : Context σ} {depth : Nat} {deferred : Deferred}
    (hcheck : deferred.relation.check = .ok ())
    (hbelow : ∀ (child : ResultSet) s pairs, Plan.Fits deferred.relation.nested child.plan →
      child.Yields ctx depth s pairs → Plan.Attaches ctx depth child.plan pairs)
    {keys : List Value} {groups : List (String × Row)} {s t : Session σ}
    (h : deferred.load (ResultSet.materializeTo ctx depth) ctx keys s = (.ok groups, t)) :
    ∃ related, deferred.Relates ctx depth (Plan.Attaches ctx depth) keys related
      ∧ (deferred.keyColumn ∉ deferred.relation.nested.map Relation.aliasName →
          ¬ Plan.IsPrefixed deferred.keyColumn →
          ∀ key, groupOf groups key = deferred.matching related key) := by
  rw [load] at h
  split at h
  · next hkeys =>
      obtain ⟨rfl, -⟩ := run_pure_eq_ok.mp h
      refine ⟨[], by rw [Relates, if_pos hkeys], fun _ _ key => ?_⟩
      cases key <;> rfl
  · next hkeys =>
      obtain ⟨_, u, -, h⟩ := run_bind_eq_ok.mp h
      obtain ⟨child, v, hchild, h⟩ := run_bind_eq_ok.mp h
      obtain ⟨rows, w, hrows, h⟩ := run_bind_eq_ok.mp h
      obtain ⟨hgroups, -⟩ := Session.run_ofExcept_eq_ok.mp h
      obtain ⟨related, rfl, hyields⟩ := ResultSet.exists_yields hrows
      have hfits := makes_fits_request ctx keys hcheck u child v hchild
      refine ⟨related, ?_, fun hfree hplain => ?_⟩
      · rw [Relates, if_neg hkeys]
        exact ⟨child, u, v, hchild, hyields, hbelow child v related hfits hyields⟩
      · exact groupOf_eq_matching (hyields.get?_eq hfits.laidOut hfree hplain) hgroups

/-- **Undisturbed relations attach the rows of the fetched keys**, on every level. -/
theorem ResultSet.Yields.attaches {ctx : Context σ} {depth : Nat} {relations : List Relation}
    {result : ResultSet} (hfits : Plan.Fits relations result.plan)
    (hdepth : result.plan.depth ≤ depth) {pairs : List (Row × Row)} {s : Session σ}
    (h : result.Yields ctx depth s pairs) : Plan.Attaches ctx depth result.plan pairs := by
  induction depth generalizing relations result pairs s with
  | zero =>
      refine List.eq_nil_iff_forall_not_mem.mpr fun deferred hmem => ?_
      exact Nat.not_lt_zero _ ((Plan.depthOfAll_nested_lt hmem).trans_le hdepth)
  | succ depth ih =>
      intro deferred hmem
      obtain ⟨steps, hsteps, hloads, hrows⟩ := h.exists_steps
      obtain ⟨⟨first, groups⟩, hstep, hfirst⟩ := List.mem_map.mp (hsteps ▸ hmem)
      obtain rfl : deferred = first := hfirst.symm
      obtain ⟨before, after, rfl⟩ := List.append_of_mem hstep
      obtain ⟨keys, u, v, hkeys, hload⟩ := hloads _ hstep
      have hbelow : ∀ (child : ResultSet) s pairs, Plan.Fits deferred.relation.nested child.plan →
          child.Yields ctx depth s pairs → Plan.Attaches ctx depth child.plan pairs := by
        intro child s pairs hchild hyields
        have hlt := hchild.depth_le.trans_lt (Plan.depthOfAll_nested_lt hmem)
        exact ih hchild (Nat.le_of_lt_succ (hlt.trans_le hdepth)) hyields
      obtain ⟨related, hrelated, hgroups⟩ :=
        Deferred.exists_related_of_load (hfits.laidOut.checked _ hmem) hbelow hload
      refine ⟨keys, related, hkeys, hrelated, fun hundisturbed pair hpair => ?_⟩
      refine Deferred.attached_of_embedEach hfits.laidOut hsteps hundisturbed
        (hgroups hundisturbed.nested hundisturbed.relatedColumn) ?_ (hrows pair hpair)
      exact Deferred.isSome_of_keysFrom hkeys _ (List.mem_map_of_mem hpair)

end RelQuery
