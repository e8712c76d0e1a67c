import RelQuery.Proofs.Bindings.Name
import RelQuery.Proofs.Value.Row

/-!
# Names are given out once

A name is searched among numbered candidates.  The search looks at as many of them as there are
names in use, and falls back on the next one.  That one is free then, because the candidates all
differ.

* **`freshName_not_mem`** — the name that is given out is not in use.
* **`nodup_names_bind`** — so no two parameters share a name.
* **`mapM_get?_names`** — and every name leads back to the value that was bound under it.
-/

namespace RelQuery.Bindings

/-! ## Candidates -/

lemma candidate_of_two_le (base : String) {n : Nat} (hn : 2 ≤ n) :
    candidate base n = base ++ "_" ++ toString n := by
  rw [candidate, if_neg (by omega)]

lemma candidate_ne_base (base : String) {n : Nat} (hn : 2 ≤ n) : candidate base n ≠ base := by
  intro h
  have hlength := congrArg String.length h
  have hmark : "_".length = 1 := rfl
  rw [candidate_of_two_le base hn, String.length_append, String.length_append] at hlength
  omega

/-- The candidates of a base differ from each other. -/
lemma candidate_injective (base : String) {m n : Nat} (hm : 1 ≤ m) (hn : 1 ≤ n)
    (h : candidate base m = candidate base n) : m = n := by
  rcases Nat.eq_or_lt_of_le hm with rfl | hm
  · rcases Nat.eq_or_lt_of_le hn with rfl | hn
    · rfl
    · exact absurd h.symm (candidate_ne_base base hn)
  · rcases Nat.eq_or_lt_of_le hn with rfl | hn
    · exact absurd h (candidate_ne_base base hm)
    · rw [candidate_of_two_le base hm, candidate_of_two_le base hn,
        String.append_right_inj] at h
      exact Nat.repr_inj.mp h

/-! ## The search -/

/-- A search that ends with a name in use has met candidates in use only. -/
lemma candidate_mem_of_firstFree_mem {taken : List String} {base : String} {tries n : Nat}
    (h : firstFree taken base n tries ∈ taken) :
    ∀ i ≤ tries, candidate base (n + i) ∈ taken := by
  induction tries generalizing n with
  | zero =>
      intro i hi
      obtain rfl := Nat.le_zero.mp hi
      exact h
  | succ tries ih =>
      rw [firstFree] at h
      split at h
      · next htaken =>
          intro i hi
          cases i with
          | zero => exact List.contains_iff_mem.mp htaken
          | succ i =>
              have hmem := ih h i (by omega)
              rwa [Nat.add_assoc, Nat.add_comm 1 i] at hmem
      · next hfree => exact absurd (List.contains_iff_mem.mpr h) hfree

/-- With as many tries as names in use, the search ends with a free one. -/
lemma firstFree_not_mem {taken : List String} (base : String) {tries n : Nat} (hn : 1 ≤ n)
    (htries : taken.length ≤ tries) : firstFree taken base n tries ∉ taken := by
  intro h
  have hnodup : ((List.range (tries + 1)).map fun i => candidate base (n + i)).Nodup := by
    refine List.Nodup.map_on (fun i _ j _ heq => ?_) List.nodup_range
    have hsame := candidate_injective base (by omega) (by omega) heq
    omega
  have hsubset : ((List.range (tries + 1)).map fun i => candidate base (n + i)) ⊆ taken := by
    intro name hname
    obtain ⟨i, hi, rfl⟩ := List.mem_map.mp hname
    exact candidate_mem_of_firstFree_mem h i (Nat.le_of_lt_succ (List.mem_range.mp hi))
  have hlength := hnodup.length_le_of_subset hsubset
  rw [List.length_map, List.length_range] at hlength
  omega

/-- **A name that is given out is not in use.** -/
theorem freshName_not_mem (bindings : Bindings) (base : String) :
    bindings.freshName base ∉ bindings.names := by
  refine firstFree_not_mem _ (Nat.le_refl 1) ?_
  rw [names, List.length_map, size]

/-! ## Names and values -/

@[simp] lemma names_bind (bindings : Bindings) (base : String) (value : Value) :
    (bindings.bind base value).2.names = bindings.names ++ [bindings.freshName base] := by
  rw [names, params_bind, List.map_append]
  rfl

/-- **No two parameters share a name.** -/
theorem nodup_names_bind {bindings : Bindings} (h : bindings.names.Nodup) (base : String)
    (value : Value) : (bindings.bind base value).2.names.Nodup := by
  rw [names_bind, List.nodup_append]
  refine ⟨h, List.nodup_singleton _, ?_⟩
  rintro name hname _ hfresh rfl
  rw [List.mem_singleton] at hfresh
  exact freshName_not_mem bindings base (hfresh ▸ hname)

lemma get?_of_mem {bindings : Bindings} (h : bindings.names.Nodup) {name : String} {value : Value}
    (hmem : (name, value) ∈ bindings.params) : bindings.get? name = some value :=
  lookup_eq_some_of_mem h hmem

/-- **The names of the parameters lead back to their values**, in the order of binding. -/
theorem mapM_get?_names {bindings : Bindings} (h : bindings.names.Nodup) :
    bindings.names.mapM bindings.get? = some bindings.values := by
  have hpart : ∀ params, params ⊆ bindings.params →
      (params.map Prod.fst).mapM bindings.get? = some (params.map Prod.snd) := by
    intro params
    induction params with
    | nil => exact fun _ => rfl
    | cons param params ih =>
        intro hsubset
        have hown := get?_of_mem h (hsubset List.mem_cons_self)
        have hrest := ih fun p hp => hsubset (List.mem_cons_of_mem param hp)
        rw [List.map_cons, List.mapM_cons, hown, hrest]
        rfl
  exact hpart bindings.params (List.Subset.refl _)

end RelQuery.Bindings
