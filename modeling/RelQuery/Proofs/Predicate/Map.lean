import RelQuery.Proofs.Predicate.Parts

/-!
# Predicates with other parameters

A parameter is named after its base and the names in use.  Its value has no part in that, so
predicates that differ in the values of their parameters are written alike.

* `Predicate.map` changes the parameters of a predicate and nothing else.
* **`bind_map`** — a predicate with other values gets the same names.
-/

namespace RelQuery

variable {ρ σ : Type}

/-! ## Changing parameters -/

/-- An atom with its parameter changed. -/
def Atom.map (f : ρ → σ) : Atom ρ → Atom σ
  | column c => column c
  | literal v => literal v
  | param slot => param (f slot)

/-- A right-hand side with its parameters changed. -/
def Side.map (f : ρ → σ) : Side ρ → Side σ
  | one a => one (a.map f)
  | many items => many (items.map (Atom.map f))

/-- A comparison with its parameters changed. -/
def Comparison.map (f : ρ → σ) (c : Comparison ρ) : Comparison σ :=
  ⟨c.column, c.op, c.side.map f⟩

mutual

/-- A term with its parameters changed. -/
def Term.map (f : ρ → σ) : Term ρ → Term σ
  | .test c => .test (c.map f)
  | .chain links => .chain (mapLinks f links)

/-- Links with their parameters changed. -/
def Term.mapLinks (f : ρ → σ) : List (Connector × Term ρ) → List (Connector × Term σ)
  | [] => []
  | (c, term) :: links => (c, term.map f) :: mapLinks f links

end

/-- A predicate with its parameters changed. -/
def Predicate.map (f : ρ → σ) (p : Predicate ρ) : Predicate σ := ⟨Term.mapLinks f p.links⟩

/-! ## Names without values -/

namespace Bindings

lemma freshName_congr {start start' : Bindings} (h : start'.names = start.names) (base : String) :
    start'.freshName base = start.freshName base := by
  have hsize : start'.size = start.size := by
    simpa [names, size] using congrArg List.length h
  rw [freshName, freshName, h, hsize]

/-- Results that agree but for the values that are bound. -/
def Alike {α : Type} (x x' : α × Bindings) : Prop := x'.1 = x.1 ∧ x'.2.names = x.2.names

lemma Alike.map {α β : Type} {x x' : α × Bindings} (h : Alike x x') (g : α → β) :
    Alike (g x.1, x.2) (g x'.1, x'.2) :=
  ⟨congrArg g h.1, h.2⟩

end Bindings

open Bindings

variable {f : Slot → Slot} {start start' : Bindings}

lemma Atom.bind_map (hf : ∀ slot, (f slot).base = slot.base) (a : Atom Slot)
    (h : start'.names = start.names) : Alike (a.bind start) ((a.map f).bind start') := by
  cases a with
  | column c => exact ⟨rfl, h⟩
  | literal v => exact ⟨rfl, h⟩
  | param slot =>
      have hname : start'.freshName (f slot).base = start.freshName slot.base := by
        rw [hf, freshName_congr h]
      refine ⟨congrArg Atom.param hname, ?_⟩
      show (start'.params ++ [(start'.freshName (f slot).base, _)]).map Prod.fst
        = (start.params ++ [(start.freshName slot.base, _)]).map Prod.fst
      rw [List.map_append, List.map_append, hname]
      exact congrArg (· ++ [start.freshName slot.base]) h

lemma Atom.mapM_bind_map (hf : ∀ slot, (f slot).base = slot.base) (items : List (Atom Slot))
    (h : start'.names = start.names) :
    Alike (items.mapM Atom.bind start) ((items.map (Atom.map f)).mapM Atom.bind start') := by
  induction items generalizing start start' with
  | nil => exact ⟨rfl, h⟩
  | cons a items ih =>
      rw [List.map_cons, List.mapM_cons, List.mapM_cons]
      have ha := Atom.bind_map hf a h
      have hrest := ih ha.2
      exact ⟨congrArg₂ List.cons ha.1 hrest.1, hrest.2⟩

lemma Comparison.bind_map (hf : ∀ slot, (f slot).base = slot.base) (c : Comparison Slot)
    (h : start'.names = start.names) : Alike (c.bind start) ((c.map f).bind start') := by
  obtain ⟨column, op, side⟩ := c
  cases side with
  | one a => exact (Atom.bind_map hf a h).map fun a => Comparison.mk column op (.one a)
  | many items =>
      exact (Atom.mapM_bind_map hf items h).map fun items => Comparison.mk column op (.many items)

mutual

lemma Term.bind_map (hf : ∀ slot, (f slot).base = slot.base) : (term : Term Slot) →
    {start start' : Bindings} → start'.names = start.names →
    Alike (term.bind start) ((term.map f).bind start')
  | .test c, _, _, h => (Comparison.bind_map hf c h).map Term.test
  | .chain links, _, _, h => (bindLinks_mapLinks hf links h).map Term.chain

lemma Term.bindLinks_mapLinks (hf : ∀ slot, (f slot).base = slot.base) :
    (links : List (Connector × Term Slot)) → {start start' : Bindings} →
    start'.names = start.names →
    Alike (bindLinks links start) (bindLinks (mapLinks f links) start')
  | [], _, _, h => ⟨rfl, h⟩
  | (c, term) :: links, start, start', h => by
      have hterm := bind_map hf term h
      have hlinks := bindLinks_mapLinks hf links hterm.2
      exact ⟨congrArg₂ List.cons (congrArg (Prod.mk c) hterm.1) hlinks.1, hlinks.2⟩

end

/-- **A predicate with other values gets the same names**, from bindings with the same names. -/
theorem Predicate.bind_map (hf : ∀ slot, (f slot).base = slot.base) (p : Predicate Slot)
    (h : start'.names = start.names) : Alike (p.bind start) ((p.map f).bind start') :=
  (Term.bindLinks_mapLinks hf p.links h).map Predicate.mk

end RelQuery
