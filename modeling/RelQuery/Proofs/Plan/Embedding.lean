import RelQuery.Proofs.Plan.Owners
import RelQuery.Proofs.Session.Steps

/-!
# Embedding row by row

Deferred relations are loaded one after the other, each for all rows.  What becomes of one row can
be told without the others: the relations are embedded in it one after the other.

* `Deferred.embedEach` embeds loaded relations in one row, `Deferred.Loads` says where their groups
  come from.
* `ResultSet.Yields` pairs the rows that a result set fetches with what becomes of them.
* **`ResultSet.Yields.exists_steps`** — each row is folded, and has every loaded relation embedded.
* `Deferred.groupOf_groups` — the rows of a key are those with this key in the matched column.
-/

namespace RelQuery

variable {σ : Type}

/-! ## Rows in parallel -/

/-- Lists that are related row by row through a third one. -/
lemma forall₂_comp {α β γ : Type} {R : α → β → Prop} {S : β → γ → Prop} {l : List α} {m : List β}
    {n : List γ} (h : List.Forall₂ R l m) (h' : List.Forall₂ S m n) :
    List.Forall₂ (fun a c => ∃ b, R a b ∧ S b c) l n := by
  induction h generalizing n with
  | nil =>
      cases h'
      exact .nil
  | cons hfirst _ ih =>
      obtain ⟨c, rest, hc, hrest, rfl⟩ := List.forall₂_cons_left_iff.mp h'
      exact .cons ⟨_, hfirst, hc⟩ (ih hrest)

namespace Deferred

/-! ## One row -/

/-- Embed loaded relations in a row, in order. -/
def embedEach (steps : List (Deferred × List (String × Row))) (row : Row) : Except Error Row :=
  steps.foldlM (fun row step => changeAt (step.1.embedInOwner step.2) step.1.path row) row

variable {deferred : Deferred} {groups : List (String × Row)} {row row' : Row}

lemma embedInOwner_eq_ok {owner owner' : Row} :
    deferred.embedInOwner groups owner = .ok owner' ↔
      ∃ value,
        deferred.embedded (groupOf groups ((owner.get? deferred.parentKey).bind Value.key?))
            = .ok value
          ∧ owner.insert deferred.relation.aliasName value = owner' := by
  simp only [embedInOwner, bind_eq_ok, return_eq_ok]

lemma get?_embedInOwner {owner owner' : Row} (h : deferred.embedInOwner groups owner = .ok owner')
    (other : String) (hne : other ≠ deferred.relation.aliasName) :
    owner'.get? other = owner.get? other := by
  obtain ⟨value, -, rfl⟩ := embedInOwner_eq_ok.mp h
  rw [Row.get?_insert, if_neg hne]

section EmbedEach

variable {steps : List (Deferred × List (String × Row))} {path : List String}

lemma embedEach_cons_eq_ok {step : Deferred × List (String × Row)} :
    embedEach (step :: steps) row = .ok row' ↔
      ∃ next, changeAt (step.1.embedInOwner step.2) step.1.path row = .ok next
        ∧ embedEach steps next = .ok row' := by
  rw [embedEach, List.foldlM_cons, bind_eq_ok]
  rfl

lemma embedEach_append_eq_ok {others : List (Deferred × List (String × Row))} :
    embedEach (steps ++ others) row = .ok row' ↔
      ∃ next, embedEach steps row = .ok next ∧ embedEach others next = .ok row' := by
  rw [embedEach, List.foldlM_append, bind_eq_ok]
  rfl

lemma isSome_ownerAt_embedEach (h : embedEach steps row = .ok row')
    (hapart : ∀ step ∈ steps, ¬ step.1.place <+: path) :
    (ownerAt row' path).isSome = (ownerAt row path).isSome := by
  induction steps generalizing row with
  | nil =>
      cases h
      rfl
  | cons step steps ih =>
      obtain ⟨hfirst, hrest⟩ := List.forall_mem_cons.mp hapart
      obtain ⟨next, hnext, h⟩ := embedEach_cons_eq_ok.mp h
      rw [ih h hrest]
      exact isSome_ownerAt_changeAt (fun _ _ => get?_embedInOwner) hnext hfirst

/-- A lookup apart from the places of relations is not changed by embedding them. -/
lemma at?_embedEach (h : embedEach steps row = .ok row') {name : String}
    (hapart : ∀ step ∈ steps,
      ¬ step.1.place <+: path ++ [name] ∧ ¬ path ++ [name] <+: step.1.place) :
    row'.at? path name = row.at? path name := by
  induction steps generalizing row with
  | nil =>
      cases h
      rfl
  | cons step steps ih =>
      obtain ⟨hfirst, hrest⟩ := List.forall_mem_cons.mp hapart
      obtain ⟨next, hnext, h⟩ := embedEach_cons_eq_ok.mp h
      rw [ih h hrest]
      exact at?_changeAt (fun _ _ => get?_embedInOwner) hnext hfirst.1 hfirst.2

end EmbedEach

/-! ## All rows -/

/-- The groups that a relation is loaded as for some rows. -/
def Loads (materialize : ResultSet → Session.Run σ (List Row)) (ctx : Context σ) (rows : List Row)
    (step : Deferred × List (String × Row)) : Prop :=
  ∃ keys s t, step.1.keys rows = .ok keys ∧ step.1.load materialize ctx keys s = (.ok step.2, t)

section Attaching

variable {materialize : ResultSet → Session.Run σ (List Row)} {ctx : Context σ}
  {deferreds : List Deferred} {rows rows' : List Row} {s t : Session σ}

lemma exists_steps_of_attachEach {start : List Row} {batches : List (List Value)}
    (hkeys : List.Forall₂ (fun d keys => d.keys start = .ok keys) deferreds batches)
    (h : attachEach materialize ctx (deferreds.zip batches) rows s = (.ok rows', t)) :
    ∃ steps, steps.map Prod.fst = deferreds ∧ (∀ step ∈ steps, Loads materialize ctx start step)
      ∧ List.Forall₂ (fun row row' => embedEach steps row = .ok row') rows rows' := by
  induction hkeys generalizing rows s with
  | nil =>
      rw [List.zip_nil_left, attachEach] at h
      obtain ⟨rfl, -⟩ := run_pure_eq_ok.mp h
      exact ⟨[], rfl, by simp, List.forall₂_same.mpr fun row _ => rfl⟩
  | @cons deferred keys deferreds batches hfirst _ ih =>
      rw [List.zip_cons_cons, attachEach] at h
      obtain ⟨groups, u, hload, h⟩ := run_bind_eq_ok.mp h
      obtain ⟨next, v, hembed, h⟩ := run_bind_eq_ok.mp h
      obtain ⟨hembed, -⟩ := Session.run_ofExcept_eq_ok.mp hembed
      obtain ⟨steps, rfl, hloads, hrows⟩ := ih h
      refine ⟨(deferred, groups) :: steps, rfl,
        List.forall_mem_cons.mpr ⟨⟨keys, s, u, hfirst, hload⟩, hloads⟩, ?_⟩
      refine (forall₂_comp (mapM_eq_ok.mp hembed) hrows).imp ?_
      rintro row row' ⟨mid, hmid, hrest⟩
      exact embedEach_cons_eq_ok.mpr ⟨mid, hmid, hrest⟩

lemma exists_steps_of_attachAll
    (h : attachAll materialize ctx deferreds rows s = (.ok rows', t)) :
    ∃ steps, steps.map Prod.fst = deferreds ∧ (∀ step ∈ steps, Loads materialize ctx rows step)
      ∧ List.Forall₂ (fun row row' => embedEach steps row = .ok row') rows rows' := by
  rw [attachAll] at h
  split at h
  · next hnone =>
      -- There is nothing to load: no relations, or no rows to collect keys from.
      obtain ⟨rfl, -⟩ := run_pure_eq_ok.mp h
      rw [Bool.or_eq_true, List.isEmpty_iff, List.isEmpty_iff] at hnone
      rcases hnone with rfl | rfl
      · exact ⟨[], rfl, by simp, List.forall₂_same.mpr fun row _ => rfl⟩
      · refine ⟨deferreds.map fun d => (d, []), ?_, ?_, .nil⟩
        · rw [List.map_map]
          exact List.map_id deferreds
        · rintro step hstep
          obtain ⟨d, -, rfl⟩ := List.mem_map.mp hstep
          exact ⟨[], s, s, rfl, rfl⟩
  · obtain ⟨batches, u, hbatches, h⟩ := run_bind_eq_ok.mp h
    obtain ⟨hbatches, -⟩ := Session.run_ofExcept_eq_ok.mp hbatches
    exact exists_steps_of_attachEach (mapM_eq_ok.mp hbatches) h

end Attaching

end Deferred

/-! ## Result sets -/

namespace ResultSet

variable {ctx : Context σ} {result : ResultSet} {rows : List Row} {s t : Session σ}
  {pairs : List (Row × Row)}

/-- The rows of a result set: each as it is fetched, and with its relations down to a depth. -/
structure Yields (ctx : Context σ) (depth : Nat) (result : ResultSet) (session : Session σ)
    (pairs : List (Row × Row)) : Prop where
  fetched : ∃ t, ctx.fetch result.prepared session = (.ok (pairs.map Prod.fst), t)
  materialized : ∃ t, result.materializeTo ctx depth session = (.ok (pairs.map Prod.snd), t)

lemma exists_raws_of_flatRows (h : result.flatRows ctx s = (.ok rows, t)) :
    ∃ raws, ctx.fetch result.prepared s = (.ok raws, t)
      ∧ raws.map (Row.fold result.plan.nodes) = rows := by
  obtain ⟨raws, u, hfetch, h⟩ := run_bind_eq_ok.mp h
  obtain ⟨rfl, rfl⟩ := run_pure_eq_ok.mp h
  exact ⟨raws, hfetch, rfl⟩

lemma exists_steps_of_materializeTo {depth : Nat}
    (h : result.materializeTo ctx (depth + 1) s = (.ok rows, t)) :
    ∃ raws u steps, ctx.fetch result.prepared s = (.ok raws, u)
      ∧ steps.map Prod.fst = result.plan.deferred
      ∧ (∀ step ∈ steps, Deferred.Loads (materializeTo ctx depth) ctx
          (raws.map (Row.fold result.plan.nodes)) step)
      ∧ List.Forall₂
          (fun raw row => Deferred.embedEach steps (Row.fold result.plan.nodes raw) = .ok row)
          raws rows := by
  obtain ⟨flat, u, hflat, h⟩ := run_bind_eq_ok.mp h
  obtain ⟨raws, hfetch, rfl⟩ := exists_raws_of_flatRows hflat
  obtain ⟨steps, hsteps, hloads, hrows⟩ := Deferred.exists_steps_of_attachAll h
  exact ⟨raws, u, steps, hfetch, hsteps, hloads, List.forall₂_map_left_iff.mp hrows⟩

/-- A result set that can be materialized yields rows. -/
lemma exists_yields {depth : Nat} (h : result.materializeTo ctx depth s = (.ok rows, t)) :
    ∃ pairs, pairs.map Prod.snd = rows ∧ result.Yields ctx depth s pairs := by
  obtain ⟨raws, u, hfetch, hlength⟩ : ∃ raws u, ctx.fetch result.prepared s = (.ok raws, u)
      ∧ raws.length = rows.length := by
    cases depth with
    | zero =>
        obtain ⟨raws, hfetch, rfl⟩ := exists_raws_of_flatRows h
        exact ⟨raws, t, hfetch, (List.length_map _).symm⟩
    | succ depth =>
        obtain ⟨raws, u, _, hfetch, -, -, hrows⟩ := exists_steps_of_materializeTo h
        exact ⟨raws, u, hfetch, hrows.length_eq⟩
  have hfst := List.map_fst_zip hlength.le
  have hsnd := List.map_snd_zip hlength.ge
  exact ⟨raws.zip rows, hsnd, ⟨u, by rw [hfetch, hfst]⟩, ⟨t, by rw [h, hsnd]⟩⟩

namespace Yields

/-- **Each row is folded, and has every loaded relation embedded.** -/
theorem exists_steps {depth : Nat} (h : result.Yields ctx (depth + 1) s pairs) :
    ∃ steps, steps.map Prod.fst = result.plan.deferred
      ∧ (∀ step ∈ steps, Deferred.Loads (materializeTo ctx depth) ctx
          (pairs.map fun pair => Row.fold result.plan.nodes pair.1) step)
      ∧ ∀ pair ∈ pairs,
          Deferred.embedEach steps (Row.fold result.plan.nodes pair.1) = .ok pair.2 := by
  obtain ⟨⟨u, hfetched⟩, ⟨t, hmaterialized⟩⟩ := h
  obtain ⟨raws, u', steps, hfetch, hsteps, hloads, hrows⟩ :=
    exists_steps_of_materializeTo hmaterialized
  rw [hfetched] at hfetch
  cases hfetch
  rw [List.map_map] at hloads
  rw [List.forall₂_map_left_iff, List.forall₂_map_right_iff, List.forall₂_same] at hrows
  exact ⟨steps, hsteps, hloads, hrows⟩

/-- A column that no relation is embedded over keeps what was fetched. -/
theorem get?_eq {depth : Nat} (h : result.Yields ctx depth s pairs) {aliases : List String}
    (hlaid : Plan.LaidOut [] aliases result.plan) {column : String} (hfree : column ∉ aliases)
    (hplain : ¬ Plan.IsPrefixed column) :
    ∀ pair ∈ pairs, pair.2.get? column = pair.1.get? column := by
  have hfold : ∀ raw, (Row.fold result.plan.nodes raw).get? column = raw.get? column := by
    refine Row.get?_fold_of_not_mem (fun hmem => hplain ?_) fun hmem => hfree ?_
    · exact Node.isPrefixed_of_mem_namesOfAll _ hmem
    · obtain ⟨node, hnode, rfl⟩ := List.mem_map.mp hmem
      exact hlaid.nodes node hnode
  cases depth with
  | zero =>
      obtain ⟨⟨u, hfetched⟩, ⟨t, hmaterialized⟩⟩ := h
      obtain ⟨raws, hfetch, hflat⟩ := exists_raws_of_flatRows hmaterialized
      rw [hfetched] at hfetch
      cases hfetch
      rw [List.map_map, List.map_inj_left] at hflat
      intro pair hpair
      rw [← hflat pair hpair]
      exact hfold pair.1
  | succ depth =>
      obtain ⟨steps, hsteps, -, hrows⟩ := h.exists_steps
      intro pair hpair
      rw [← hfold pair.1, ← Row.at?_nil, ← Row.at?_nil]
      refine Deferred.at?_embedEach (hrows pair hpair) fun step hstep => ?_
      -- Every place begins with an alias, so it lies neither under the column nor over it.
      have hmem : step.1 ∈ result.plan.deferred := hsteps ▸ List.mem_map_of_mem hstep
      obtain ⟨aliasName, halias, tail, hplace⟩ := hlaid.places step.1 hmem
      have hne : aliasName ≠ column := fun heq => hfree (heq ▸ halias)
      rw [← hplace]
      simp [hne, hne.symm]

end Yields

end ResultSet

/-! ## Keys and groups -/

namespace Deferred

variable {deferred : Deferred}

/-- The keys are collected only if every owner has the column. -/
lemma isSome_of_keysFrom {rows : List Row} {seen : List String} {keys : List Value}
    (h : deferred.keysFrom seen rows = .ok keys) :
    ∀ row ∈ rows, ∀ owner, ownerAt row deferred.path = some owner →
      (owner.get? deferred.parentKey).isSome := by
  induction rows generalizing seen keys with
  | nil => exact fun row hrow => absurd hrow List.not_mem_nil
  | cons first rows ih =>
      rw [keysFrom] at h
      refine List.forall_mem_cons.mpr ⟨fun owner howner => ?_, ?_⟩
      · rw [howner] at h
        obtain ⟨value, hvalue, -⟩ := bind_eq_ok.mp h
        rw [Row.require] at hvalue
        split at hvalue
        · next hget => rw [hget]; rfl
        · cases hvalue
      · split at h
        · exact ih h
        · obtain ⟨value, -, h⟩ := bind_eq_ok.mp h
          split at h
          · exact ih h
          · split at h
            · exact ih h
            · obtain ⟨rest, hrest, -⟩ := bind_eq_ok.mp h
              exact ih hrest

/-- The column of related rows that the keys of the owners are matched with. -/
def keyColumn (deferred : Deferred) : String :=
  if deferred.junction.isSome then pivotKey else deferred.childKey

lemma keyOf_fst (deferred : Deferred) (row : Row) :
    (deferred.keyOf row).1 = row.get? deferred.keyColumn := by
  rw [keyOf, keyColumn]
  cases deferred.junction <;> rfl

lemma groupOf_cons (key' : String) (row : Row) (groups : List (String × Row)) (key : String) :
    groupOf ((key', row) :: groups) (some key) =
      if key' == key then row :: groupOf groups (some key) else groupOf groups (some key) := by
  cases hkey : key' == key <;> simp [groupOf, hkey]

/-- **The rows of a key are those with this key in the matched column.** -/
theorem groupOf_groups {rows : List Row} {groups : List (String × Row)}
    (h : deferred.groups rows = .ok groups) (key : String) :
    groupOf groups (some key) =
      (rows.filter fun row => (row.get? deferred.keyColumn).bind Value.key? == some key).map
        fun row => (deferred.keyOf row).2 := by
  induction rows generalizing groups with
  | nil =>
      cases h
      rfl
  | cons row rows ih =>
      rw [Deferred.groups] at h
      split at h
      · cases h
      · next value kept hkey =>
          have hget : row.get? deferred.keyColumn = some value := by
            rw [← keyOf_fst, hkey]
          obtain ⟨rest, hrest, h⟩ := bind_eq_ok.mp h
          rw [List.filter_cons, hget, Option.bind_some]
          split at h
          · next key' hkey' =>
              cases h
              have hbeq : (some key' == some key) = (key' == key) := rfl
              rw [groupOf_cons, ih hrest, hkey', hbeq]
              split
              · rw [List.map_cons, hkey]
              · rfl
          · next hnone =>
              cases h
              rw [hnone]
              exact ih hrest

end Deferred

end RelQuery
