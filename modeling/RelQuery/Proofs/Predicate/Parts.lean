import RelQuery.Predicate.Basic
import RelQuery.Proofs.Bindings.Name

/-!
# The comparisons of a predicate

A predicate is a tree, but most of what can be said about it is said about the row of comparisons
at its leaves.

* `Predicate.comparisons` is that row, in the order of the text; `Predicate.slots` are the
  parameters in it.
* `Predicate.Solid` says that no chain inside is empty, so that each of them writes something.
* **`comparisons_bind`** — naming the parameters of a predicate is naming those of its comparisons,
  one after the other.
* **`clear_bind`** — a predicate on columns that exist has sound names once it is named.
-/

namespace RelQuery

variable {ρ σ : Type}

/-! ## Comparisons in order -/

mutual

/-- The comparisons of a term. -/
def Term.comparisons : Term ρ → List (Comparison ρ)
  | .test c => [c]
  | .chain links => linkComparisons links

/-- The comparisons of the links of a chain. -/
def Term.linkComparisons : List (Connector × Term ρ) → List (Comparison ρ)
  | [] => []
  | (_, term) :: links => term.comparisons ++ linkComparisons links

end

/-- The comparisons of a predicate, in the order of the text. -/
def Predicate.comparisons (p : Predicate ρ) : List (Comparison ρ) := Term.linkComparisons p.links

lemma Term.linkComparisons_append (as bs : List (Connector × Term ρ)) :
    linkComparisons (as ++ bs) = linkComparisons as ++ linkComparisons bs := by
  induction as with
  | nil => rfl
  | cons a as ih =>
      obtain ⟨c, term⟩ := a
      simp only [List.cons_append, linkComparisons, ih, List.append_assoc]

/-- The connectors have no part in the comparisons. -/
lemma Term.linkComparisons_congr {as bs : List (Connector × Term ρ)}
    (h : as.map Prod.snd = bs.map Prod.snd) : linkComparisons as = linkComparisons bs := by
  induction as generalizing bs with
  | nil =>
      rw [List.map_nil, eq_comm, List.map_eq_nil_iff] at h
      rw [h]
  | cons a as ih =>
      cases bs with
      | nil => simp at h
      | cons b bs =>
          simp only [List.map_cons, List.cons.injEq] at h
          obtain ⟨c, term⟩ := a
          obtain ⟨c', term'⟩ := b
          simp only [linkComparisons]
          rw [show term = term' from h.1, ih h.2]

/-! ## Chains that are not empty -/

mutual

/-- Every chain in a term has a link. -/
def Term.Solid : Term ρ → Prop
  | .test _ => True
  | .chain links => links ≠ [] ∧ AllSolid links

/-- Every chain in the links has a link. -/
def Term.AllSolid : List (Connector × Term ρ) → Prop
  | [] => True
  | (_, term) :: links => term.Solid ∧ AllSolid links

end

/-- Every chain inside a predicate has a link. -/
def Predicate.Solid (p : Predicate ρ) : Prop := Term.AllSolid p.links

mutual

lemma Term.comparisons_ne_nil : (term : Term ρ) → term.Solid → term.comparisons ≠ []
  | .test _, _ => by simp [comparisons]
  | .chain links, ⟨hne, hall⟩ => by
      rw [comparisons]
      exact linkComparisons_ne_nil links hne hall

lemma Term.linkComparisons_ne_nil : (links : List (Connector × Term ρ)) → links ≠ [] →
    AllSolid links → linkComparisons links ≠ []
  | [], hne, _ => absurd rfl hne
  | (_, term) :: links, _, ⟨hterm, _⟩ => by
      rw [linkComparisons]
      exact List.append_ne_nil_of_left_ne_nil (comparisons_ne_nil term hterm) _

end

/-- A solid predicate says nothing exactly when it has no comparison. -/
lemma Predicate.comparisons_eq_nil_iff {p : Predicate ρ} (h : p.Solid) :
    p.comparisons = [] ↔ p.links = [] := by
  constructor
  · intro hnil
    by_contra hne
    exact Term.linkComparisons_ne_nil p.links hne h hnil
  · intro hnil
    rw [comparisons, hnil, Term.linkComparisons]

/-! ## Parameters in order -/

/-- The parameters of an atom. -/
def Atom.slots : Atom ρ → List ρ
  | column _ => []
  | literal _ => []
  | param slot => [slot]

/-- The parameters of a right-hand side. -/
def Side.slots : Side ρ → List ρ
  | one a => a.slots
  | many items => items.flatMap Atom.slots

/-- The parameters of a comparison. -/
def Comparison.slots (c : Comparison ρ) : List ρ := c.side.slots

/-- The parameters of a predicate, in the order of the text. -/
def Predicate.slots (p : Predicate ρ) : List ρ := p.comparisons.flatMap Comparison.slots

/-! ## Naming from left to right -/

mutual

lemma Term.comparisons_bind : (term : Term Slot) → (start : Bindings) →
    ((term.bind start).1.comparisons, (term.bind start).2)
      = term.comparisons.mapM Comparison.bind start
  | .test c, start => by
      simp only [comparisons, List.mapM_cons, List.mapM_nil]
      rfl
  | .chain links, start => linkComparisons_bind links start

lemma Term.linkComparisons_bind : (links : List (Connector × Term Slot)) → (start : Bindings) →
    (linkComparisons (bindLinks links start).1, (bindLinks links start).2)
      = (linkComparisons links).mapM Comparison.bind start
  | [], _ => rfl
  | (c, term) :: links, start => by
      have hterm := comparisons_bind term start
      have hlinks := linkComparisons_bind links (term.bind start).2
      rw [linkComparisons, List.mapM_append]
      show _ = (let xs := term.comparisons.mapM Comparison.bind start
        let ys := (linkComparisons links).mapM Comparison.bind xs.2
        (xs.1 ++ ys.1, ys.2))
      rw [← hterm]
      show _ = (let ys := (linkComparisons links).mapM Comparison.bind (term.bind start).2
        ((term.bind start).1.comparisons ++ ys.1, ys.2))
      rw [← hlinks]
      rfl

end

/-- **Naming a predicate names its comparisons in order.** -/
theorem Predicate.comparisons_bind (p : Predicate Slot) (start : Bindings) :
    ((p.bind start).1.comparisons, (p.bind start).2)
      = p.comparisons.mapM Comparison.bind start :=
  Term.linkComparisons_bind p.links start

mutual

lemma Term.solid_bind : (term : Term Slot) → (start : Bindings) → term.Solid →
    (term.bind start).1.Solid
  | .test _, _, _ => trivial
  | .chain links, start, ⟨hne, hall⟩ => by
      refine ⟨?_, allSolid_bindLinks links start hall⟩
      cases links with
      | nil => exact absurd rfl hne
      | cons _ _ => exact List.cons_ne_nil _ _

lemma Term.allSolid_bindLinks : (links : List (Connector × Term Slot)) → (start : Bindings) →
    AllSolid links → AllSolid (bindLinks links start).1
  | [], _, _ => trivial
  | (_, term) :: links, start, ⟨hterm, hlinks⟩ =>
      ⟨solid_bind term start hterm, allSolid_bindLinks links (term.bind start).2 hlinks⟩

end

lemma Predicate.solid_bind {p : Predicate Slot} (h : p.Solid) (start : Bindings) :
    (p.bind start).1.Solid :=
  Term.allSolid_bindLinks p.links start h

lemma Term.map_fst_bindLinks (links : List (Connector × Term Slot)) (start : Bindings) :
    (bindLinks links start).1.map Prod.fst = links.map Prod.fst := by
  induction links generalizing start with
  | nil => rfl
  | cons link links ih =>
      obtain ⟨c, term⟩ := link
      exact congrArg (c :: ·) (ih (term.bind start).2)

/-! ## Sound names -/

/-- An atom whose column has a part, and whose parameter is as `p` says. -/
def Atom.Clear (p : ρ → Prop) : Atom ρ → Prop
  | column c => c.parts ≠ []
  | literal _ => True
  | param slot => p slot

/-- A right-hand side of such atoms. -/
def Side.Clear (p : ρ → Prop) : Side ρ → Prop
  | one a => a.Clear p
  | many items => ∀ a ∈ items, a.Clear p

/-- A comparison of such columns and parameters. -/
def Comparison.Clear (p : ρ → Prop) (c : Comparison ρ) : Prop :=
  c.column.parts ≠ [] ∧ c.side.Clear p

lemma Atom.clear_bind {p : Slot → Prop} {a : Atom Slot} (h : a.Clear p) (start : Bindings) :
    (a.bind start).1.Clear Bindings.Plain := by
  cases a with
  | column c => exact h
  | literal v => trivial
  | param slot => exact Bindings.plain_freshName start slot.base

/-- What naming gives every item of a list, it gives the list. -/
lemma forall_mem_mapM {α β : Type} {f : α → StateM Bindings β} {p : α → Prop} {q : β → Prop}
    (hf : ∀ a start, p a → q (f a start).1) :
    (items : List α) → (start : Bindings) → (∀ a ∈ items, p a) →
    ∀ b ∈ (items.mapM f start).1, q b
  | [], _, _, b, hb => absurd hb List.not_mem_nil
  | a :: items, start, h, b, hb => by
      rw [List.mapM_cons] at hb
      have hcases : b = (f a start).1 ∨ b ∈ (items.mapM f (f a start).2).1 := List.mem_cons.mp hb
      rcases hcases with rfl | hb
      · exact hf a start (h a List.mem_cons_self)
      · exact forall_mem_mapM hf items _ (fun c hc => h c (List.mem_cons_of_mem a hc)) b hb

/-- What naming leaves as it is in every item of a list, it leaves as it is in the list. -/
lemma map_mapM {α β γ : Type} {f : α → StateM Bindings β} {g : α → γ} {g' : β → γ}
    (hf : ∀ a start, g' (f a start).1 = g a) (items : List α) (start : Bindings) :
    (items.mapM f start).1.map g' = items.map g := by
  induction items generalizing start with
  | nil => rfl
  | cons a items ih =>
      rw [List.mapM_cons, List.map_cons, ← hf a start, ← ih (f a start).2]
      rfl

lemma flatMap_mapM {α β γ : Type} {f : α → StateM Bindings β} {g : α → List γ} {g' : β → List γ}
    (hf : ∀ a start, g' (f a start).1 = g a) (items : List α) (start : Bindings) :
    (items.mapM f start).1.flatMap g' = items.flatMap g := by
  rw [List.flatMap_def, map_mapM hf, List.flatMap_def]

lemma Comparison.clear_bind {p : Slot → Prop} {c : Comparison Slot} (h : c.Clear p)
    (start : Bindings) : (c.bind start).1.Clear Bindings.Plain := by
  obtain ⟨column, op, side⟩ := c
  refine ⟨h.1, ?_⟩
  cases side with
  | one a => exact Atom.clear_bind h.2 start
  | many items => exact forall_mem_mapM (fun a start ha => Atom.clear_bind ha start) items start h.2

/-- **Naming leaves a predicate with sound names in all comparisons.** -/
theorem Predicate.clear_bind {q : Slot → Prop} {p : Predicate Slot}
    (h : ∀ c ∈ p.comparisons, c.Clear q) (start : Bindings) :
    ∀ c ∈ (p.bind start).1.comparisons, c.Clear Bindings.Plain := by
  rw [show (p.bind start).1.comparisons = _ from congrArg Prod.fst (p.comparisons_bind start)]
  exact forall_mem_mapM (fun c start hc => Comparison.clear_bind hc start) p.comparisons start h

/-! ## Values from left to right -/

lemma Atom.values_bind (a : Atom Slot) (start : Bindings) :
    (a.bind start).2.values = start.values ++ a.slots.map Slot.value := by
  cases a with
  | column c => exact (List.append_nil _).symm
  | literal v => exact (List.append_nil _).symm
  | param slot => exact Bindings.values_bind start slot.base slot.value

lemma Atom.values_mapM_bind (items : List (Atom Slot)) (start : Bindings) :
    (items.mapM Atom.bind start).2.values
      = start.values ++ (items.flatMap Atom.slots).map Slot.value := by
  induction items generalizing start with
  | nil => exact (List.append_nil _).symm
  | cons a items ih =>
      rw [List.mapM_cons]
      show (items.mapM Atom.bind (a.bind start).2).2.values = _
      rw [ih, values_bind, List.flatMap_cons, List.map_append, List.append_assoc]

lemma Comparison.values_bind (c : Comparison Slot) (start : Bindings) :
    (c.bind start).2.values = start.values ++ c.slots.map Slot.value := by
  obtain ⟨column, op, side⟩ := c
  cases side with
  | one a => exact a.values_bind start
  | many items => exact Atom.values_mapM_bind items start

/-- **Binding a predicate appends its values in the order of the text.** -/
theorem Predicate.values_bind (p : Predicate Slot) (start : Bindings) :
    (p.bind start).2.values = start.values ++ p.slots.map Slot.value := by
  have hall : ∀ (cs : List (Comparison Slot)) (start : Bindings),
      (cs.mapM Comparison.bind start).2.values
        = start.values ++ (cs.flatMap Comparison.slots).map Slot.value := by
    intro cs
    induction cs with
    | nil => exact fun start => (List.append_nil _).symm
    | cons c cs ih =>
        intro start
        rw [List.mapM_cons]
        show (cs.mapM Comparison.bind (c.bind start).2).2.values = _
        rw [ih, Comparison.values_bind, List.flatMap_cons, List.map_append, List.append_assoc]
  have hbind := congrArg Prod.snd (p.comparisons_bind start)
  rw [show (p.bind start).2 = _ from hbind, hall, slots]

end RelQuery
