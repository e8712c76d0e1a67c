import RelQuery.Proofs.Predicate.Chain
import RelQuery.Proofs.Predicate.Parts

/-!
# The truth of a predicate

An assignment gives each comparison of a predicate a truth value.  Here it is the list of those
values in the order of the text, so that two comparisons are independent even where they are spelled
alike.

* `Term.truth` reads a term and hands on the values that it did not use.
* **`exists_linkTruths`** — an assignment can be found for any truth values of the links.
* **`linksHold_append_forall_iff`** — so links behind others mean the conjunction of both under
  every assignment exactly when their connectors narrow.
-/

namespace RelQuery

variable {ρ : Type}

/-! ## Reading an assignment -/

mutual

/-- The truth of a term, and the values that are left. -/
def Term.truth : Term ρ → List Bool → Bool × List Bool
  | .test _, truths => (truths.headD true, truths.tail)
  | .chain links, truths =>
    let read := linkTruths links truths
    (Chain.holds ((links.map Prod.fst).zip read.1), read.2)

/-- The truths of the terms in a chain, and the values that are left. -/
def Term.linkTruths : List (Connector × Term ρ) → List Bool → List Bool × List Bool
  | [], truths => ([], truths)
  | (_, term) :: links, truths =>
    let first := term.truth truths
    let rest := linkTruths links first.2
    (first.1 :: rest.1, rest.2)

end

/-- The truth of links under an assignment of their comparisons. -/
def Term.linksHold (links : List (Connector × Term ρ)) (truths : List Bool) : Bool :=
  Chain.holds ((links.map Prod.fst).zip (linkTruths links truths).1)

/-- The truth of a predicate under an assignment of its comparisons. -/
def Predicate.holds (p : Predicate ρ) (truths : List Bool) : Bool := Term.linksHold p.links truths

/-! ## Each term reads its own part -/

namespace Term

@[simp] lemma length_linkTruths (links : List (Connector × Term ρ)) (truths : List Bool) :
    (linkTruths links truths).1.length = links.length := by
  induction links generalizing truths with
  | nil => rfl
  | cons link links ih =>
      obtain ⟨c, term⟩ := link
      simp only [linkTruths, List.length_cons, ih]

mutual

/-- A term reads as many values as it has comparisons. -/
lemma exists_truth_append : (term : Term ρ) → (own : List Bool) →
    own.length = term.comparisons.length →
    ∃ b, ∀ rest, term.truth (own ++ rest) = (b, rest)
  | .test c, own, h => by
      rw [comparisons, List.length_singleton, List.length_eq_one_iff] at h
      obtain ⟨b, rfl⟩ := h
      exact ⟨b, fun rest => rfl⟩
  | .chain links, own, h => by
      obtain ⟨bs, hbs⟩ := exists_linkTruths_append links own h
      exact ⟨Chain.holds ((links.map Prod.fst).zip bs), fun rest => by rw [truth, hbs rest]⟩

/-- Links read as many values as they have comparisons. -/
lemma exists_linkTruths_append : (links : List (Connector × Term ρ)) → (own : List Bool) →
    own.length = (linkComparisons links).length →
    ∃ bs, ∀ rest, linkTruths links (own ++ rest) = (bs, rest)
  | [], own, h => by
      rw [linkComparisons, List.length_nil, List.length_eq_zero_iff] at h
      exact ⟨[], fun rest => by rw [h, List.nil_append, linkTruths]⟩
  | (c, term) :: links, own, h => by
      rw [linkComparisons, List.length_append] at h
      obtain ⟨b, hb⟩ := exists_truth_append term (own.take term.comparisons.length)
        (by rw [List.length_take]; omega)
      obtain ⟨bs, hbs⟩ := exists_linkTruths_append links (own.drop term.comparisons.length)
        (by rw [List.length_drop]; omega)
      refine ⟨b :: bs, fun rest => ?_⟩
      rw [← List.take_append_drop term.comparisons.length own, List.append_assoc, linkTruths]
      simp only [hb, hbs]

end

/-- Values behind those of the links are left alone. -/
lemma linkTruths_append_right {links : List (Connector × Term ρ)} {own : List Bool}
    (h : own.length = (linkComparisons links).length) (rest : List Bool) :
    linkTruths links (own ++ rest) = ((linkTruths links own).1, rest) := by
  obtain ⟨bs, hbs⟩ := exists_linkTruths_append links own h
  have hown := hbs []
  rw [List.append_nil] at hown
  rw [hbs rest, hown]

lemma linkTruths_append (as bs : List (Connector × Term ρ)) (truths : List Bool) :
    linkTruths (as ++ bs) truths
      = ((linkTruths as truths).1 ++ (linkTruths bs (linkTruths as truths).2).1,
        (linkTruths bs (linkTruths as truths).2).2) := by
  induction as generalizing truths with
  | nil => rfl
  | cons a as ih =>
      obtain ⟨c, term⟩ := a
      simp only [List.cons_append, linkTruths, ih]

/-- The connectors have no part in what the terms read. -/
lemma linkTruths_congr {as bs : List (Connector × Term ρ)}
    (h : as.map Prod.snd = bs.map Prod.snd) (truths : List Bool) :
    linkTruths as truths = linkTruths bs truths := by
  induction as generalizing bs truths with
  | nil =>
      rw [List.map_nil, eq_comm, List.map_eq_nil_iff] at h
      rw [h]
  | cons a as ih =>
      cases bs with
      | nil => simp at h
      | cons b bs =>
          simp only [List.map_cons, List.cons.injEq] at h
          obtain ⟨c, term⟩ := a
          obtain ⟨c', term'⟩ := b
          obtain ⟨rfl, hrest⟩ := h
          simp only [linkTruths, ih hrest]

mutual

lemma truth_bind : (term : Term Slot) → (start : Bindings) → (truths : List Bool) →
    (term.bind start).1.truth truths = term.truth truths
  | .test _, _, _ => rfl
  | .chain links, start, truths => by
      show (chain (bindLinks links start).1).truth truths = _
      rw [truth, truth, map_fst_bindLinks, linkTruths_bindLinks links start truths]

lemma linkTruths_bindLinks : (links : List (Connector × Term Slot)) → (start : Bindings) →
    (truths : List Bool) →
    linkTruths (bindLinks links start).1 truths = linkTruths links truths
  | [], _, _ => rfl
  | (c, term) :: links, start, truths => by
      show linkTruths ((c, (term.bind start).1) :: (bindLinks links (term.bind start).2).1) truths
        = _
      rw [linkTruths, linkTruths, truth_bind term start truths, linkTruths_bindLinks links]

end

/-! ## Comparisons judged one by one -/

mutual

/-- The truth of a term whose comparisons are judged by themselves. -/
def value (judge : Comparison ρ → Bool) : Term ρ → Bool
  | .test c => judge c
  | .chain links => Chain.holds (linkValues judge links)

/-- The connectors of links with the truths of their terms. -/
def linkValues (judge : Comparison ρ → Bool) :
    List (Connector × Term ρ) → List (Connector × Bool)
  | [] => []
  | (c, term) :: links => (c, term.value judge) :: linkValues judge links

end

lemma zip_fst_linkValues (judge : Comparison ρ → Bool) (links : List (Connector × Term ρ)) :
    (links.map Prod.fst).zip ((linkValues judge links).map Prod.snd) = linkValues judge links := by
  induction links with
  | nil => rfl
  | cons link links ih =>
      obtain ⟨c, term⟩ := link
      rw [linkValues, List.map_cons, List.map_cons, List.zip_cons_cons, ih]

mutual

/-- To judge comparisons by themselves is to assign their truths in order. -/
lemma truth_map (judge : Comparison ρ → Bool) : (term : Term ρ) → (rest : List Bool) →
    term.truth (term.comparisons.map judge ++ rest) = (term.value judge, rest)
  | .test _, _ => rfl
  | .chain links, rest => by
      rw [comparisons, truth, linkTruths_map judge links rest, value]
      simp only [zip_fst_linkValues]

lemma linkTruths_map (judge : Comparison ρ → Bool) : (links : List (Connector × Term ρ)) →
    (rest : List Bool) →
    linkTruths links ((linkComparisons links).map judge ++ rest)
      = ((linkValues judge links).map Prod.snd, rest)
  | [], _ => rfl
  | (c, term) :: links, rest => by
      rw [linkComparisons, List.map_append, List.append_assoc, linkTruths, truth_map judge term,
        linkValues]
      simp only [linkTruths_map judge links rest, List.map_cons]

end

mutual

/-- A solid term is true under some assignment and false under another. -/
lemma exists_truth : (term : Term ρ) → term.Solid → (b : Bool) →
    ∃ own, own.length = term.comparisons.length ∧ ∀ rest, term.truth (own ++ rest) = (b, rest)
  | .test c, _, b => ⟨[b], rfl, fun rest => rfl⟩
  | .chain links, ⟨hne, hall⟩, b => by
      obtain ⟨own, hlen, hown⟩ := exists_linkTruths links hall
        (Chain.all b (links.map Prod.fst)) (by simp)
      refine ⟨own, hlen, fun rest => ?_⟩
      rw [truth, hown rest]
      simp only [Chain.holds_all (mt List.map_eq_nil_iff.mp hne)]

/-- **Solid links are independent**: any truth values of theirs come from some assignment. -/
theorem exists_linkTruths : (links : List (Connector × Term ρ)) → AllSolid links →
    (bs : List Bool) → bs.length = links.length →
    ∃ own, own.length = (linkComparisons links).length
      ∧ ∀ rest, linkTruths links (own ++ rest) = (bs, rest)
  | [], _, bs, h => by
      rw [List.length_nil, List.length_eq_zero_iff] at h
      exact ⟨[], rfl, fun rest => by rw [h, List.nil_append, linkTruths]⟩
  | (c, term) :: links, ⟨hterm, hlinks⟩, bs, h => by
      cases bs with
      | nil => simp at h
      | cons b bs =>
          obtain ⟨own, hlen, hown⟩ := exists_truth term hterm b
          obtain ⟨own', hlen', hown'⟩ := exists_linkTruths links hlinks bs (by simpa using h)
          refine ⟨own ++ own', by simp [linkComparisons, hlen, hlen'], fun rest => ?_⟩
          rw [List.append_assoc, linkTruths]
          simp only [hown, hown']

end

/-! ## Links put behind others -/

/-- **Links behind others mean both under every assignment exactly when their connectors narrow.**
The links read `alone` where they stand by themselves; behind the others they are the same terms
under connectors of their own. -/
theorem linksHold_append_forall_iff {own alone after : List (Connector × Term ρ)}
    (hown : AllSolid own) (hafter : AllSolid after)
    (hterms : after.map Prod.snd = alone.map Prod.snd) :
    (∀ as bs : List Bool, as.length = (linkComparisons own).length →
      bs.length = (linkComparisons alone).length →
      linksHold (own ++ after) (as ++ bs) = (linksHold own as && linksHold alone bs))
      ↔ Chain.Narrows (own.map Prod.fst) (alone.map Prod.fst) (after.map Prod.fst) := by
  have hlen : alone.length = after.length := by
    rw [← List.length_map (f := Prod.snd), ← hterms, List.length_map]
  have hsplit : ∀ as bs : List Bool, as.length = (linkComparisons own).length →
      linksHold (own ++ after) (as ++ bs)
        = Chain.holds ((own.map Prod.fst).zip (linkTruths own as).1
          ++ (after.map Prod.fst).zip (linkTruths alone bs).1) := by
    intro as bs has
    rw [linksHold, linkTruths_append, linkTruths_append_right has, linkTruths_congr hterms,
      List.map_append, List.zip_append (by simp)]
  rw [← Chain.holds_append_forall_iff (by simp [hlen])]
  -- truths of comparisons reach every row of truths of links, as solid terms are independent
  constructor
  · intro h xs ys hxs hys
    rw [List.length_map] at hxs hys
    obtain ⟨as, has, hreadas⟩ := exists_linkTruths own hown xs hxs
    obtain ⟨bs, hbs, hreadbs⟩ := exists_linkTruths after hafter ys hys
    have htruthsas : (linkTruths own as).1 = xs := by
      rw [← List.append_nil as, hreadas]
    have htruthsbs : (linkTruths alone bs).1 = ys := by
      rw [← linkTruths_congr hterms, ← List.append_nil bs, hreadbs]
    have hboth := h as bs has (by rw [hbs, linkComparisons_congr hterms])
    rw [hsplit as bs has, htruthsas, htruthsbs, linksHold, linksHold, htruthsas, htruthsbs]
      at hboth
    exact hboth
  · intro h as bs has hbs
    rw [hsplit as bs has, linksHold, linksHold]
    exact h _ _ (by simp) (by simp [hlen])

end Term

/-- Names have no part in the truth of a predicate. -/
lemma Predicate.holds_bind (p : Predicate Slot) (start : Bindings) (truths : List Bool) :
    (p.bind start).1.holds truths = p.holds truths := by
  show Term.linksHold (Term.bindLinks p.links start).1 truths = _
  rw [Term.linksHold, Term.map_fst_bindLinks, Term.linkTruths_bindLinks]
  rfl

end RelQuery
