import RelQuery.Proofs.Condition.Steps

/-!
# Compiled conditions

A condition is compiled in two steps.  It becomes a predicate in its scope, and the predicate is
written while its parameters are named after those that are bound already.

* `Conditions.compile` is both steps; `Predicate.write` is the second one.
* `Word.holds?` is what a database makes of the text, under truth values for its comparisons.
* **`holds?_write`** — the text of a sound predicate is true when the predicate is.
-/

namespace RelQuery

/-! ## Definitions -/

/-- The text of a predicate with its parameters named, and the bindings with them. -/
def Predicate.write (dialect : Dialect) (start : Bindings) (p : Predicate Slot) :
    String × Bindings :=
  let named := p.bind start
  (named.1.text dialect, named.2)

/-- A condition as text, its values bound after those of `start`. -/
def Conditions.compile (c : Conditions) (dialect : Dialect) (scope : Scope) (start : Bindings) :
    Except Error (String × Bindings) :=
  (c.predicate scope).map (Predicate.write dialect start)

/-- The truth of a text under truth values for its comparisons, in order.  A text without words
restricts nothing; one that is no condition has no truth. -/
def Word.holds? (dialect : Dialect) (text : String) (truths : List Bool) : Option Bool :=
  let words := scan dialect text
  if words.isEmpty then some true else truth? (assign words truths)

/-- A predicate without an empty chain, all of its columns named. -/
def Predicate.Sound (p : Predicate Slot) : Prop := Scope.AllSound p.links

/-! ## What compiles -/

namespace Conditions

variable {c : Conditions} {dialect : Dialect} {scope : Scope} {start : Bindings}

lemma predicate_eq_ok {p : Predicate Slot} :
    c.predicate scope = .ok p ↔ scope.links none c.entries = .ok p.links := by
  rw [predicate, map_eq_ok]
  constructor
  · rintro ⟨links, hlinks, rfl⟩
    exact hlinks
  · intro hlinks
    exact ⟨p.links, hlinks, rfl⟩

/-- A condition that compiles is a sound predicate. -/
lemma sound_of_predicate {p : Predicate Slot} (h : c.predicate scope = .ok p) : p.Sound :=
  Scope.sound_of_links c.entries scope none p.links (predicate_eq_ok.mp h)

lemma compile_eq_ok {compiled : String × Bindings} :
    c.compile dialect scope start = .ok compiled
      ↔ ∃ p, c.predicate scope = .ok p ∧ p.write dialect start = compiled := by
  rw [compile, map_eq_ok]

end Conditions

/-! ## What is written -/

namespace Predicate

open Word

variable {p : Predicate Slot}

lemma Sound.solid_bind (h : p.Sound) (start : Bindings) : (p.bind start).1.Solid :=
  Predicate.solid_bind h.1 start

lemma Sound.clear_bind (h : p.Sound) (start : Bindings) :
    ∀ c ∈ (p.bind start).1.comparisons, c.Clear Bindings.Plain :=
  Predicate.clear_bind h.2 start

/-- Naming keeps the links apart from their parameters. -/
lemma links_bind_eq_nil_iff (start : Bindings) : (p.bind start).1.links = [] ↔ p.links = [] := by
  have h := Term.map_fst_bindLinks p.links start
  show (Term.bindLinks p.links start).1 = [] ↔ p.links = []
  rw [← List.map_eq_nil_iff (f := Prod.fst), h, List.map_eq_nil_iff]

/-- Nothing is written exactly where there is no link. -/
lemma write_eq_empty_iff (h : p.Sound) (dialect : Dialect) (start : Bindings) :
    (p.write dialect start).1 = "" ↔ p.links = [] := by
  rw [write, text_eq_empty_iff (h.solid_bind start) (h.clear_bind start), links_bind_eq_nil_iff]

/-- **The text of a sound predicate is true when the predicate is**, under every assignment. -/
theorem holds?_write (h : p.Sound) (dialect : Dialect) (start : Bindings) (truths : List Bool) :
    holds? dialect (p.write dialect start).1 truths = some (p.holds truths) := by
  by_cases hne : p.links = []
  · have hempty := (write_eq_empty_iff h dialect start).mpr hne
    rw [hempty, Predicate.holds, hne]
    rfl
  · have hlinks : (p.bind start).1.links ≠ [] := mt (links_bind_eq_nil_iff start).mp hne
    have hread : truth? (assign (scan dialect ((p.bind start).1.text dialect)) truths)
        = some ((p.bind start).1.holds truths) :=
      truth?_scan_text (h.solid_bind start) (h.clear_bind start) hlinks truths
    rw [holds_bind] at hread
    rw [holds?, write]
    cases hscan : scan dialect ((p.bind start).1.text dialect) with
    | nil =>
        rw [hscan] at hread
        cases hread
    | cons w ws => rw [← hread, hscan]; rfl

/-- The comparisons in the text are those of the predicate, named one after the other. -/
lemma comparisonsIn_write (h : p.Sound) (dialect : Dialect) (start : Bindings) :
    comparisonsIn dialect (p.write dialect start).1
      = (p.comparisons.mapM Comparison.bind start).1.map (Comparison.text dialect) := by
  rw [write, comparisonsIn_text (h.solid_bind start) (h.clear_bind start),
    ← p.comparisons_bind start]

lemma bindings_write (p : Predicate Slot) (dialect : Dialect) (start : Bindings) :
    (p.write dialect start).2 = (p.comparisons.mapM Comparison.bind start).2 :=
  congrArg Prod.snd (p.comparisons_bind start)

/-- The comparisons in the text are as many as those of the predicate. -/
lemma length_comparisonsIn_write (h : p.Sound) (dialect : Dialect) (start : Bindings) :
    (comparisonsIn dialect (p.write dialect start).1).length = p.comparisons.length := by
  rw [comparisonsIn_write h, List.length_map]
  generalize p.comparisons = cs
  induction cs generalizing start with
  | nil => rfl
  | cons c cs ih =>
      rw [List.mapM_cons]
      exact congrArg (· + 1) (ih (c.bind start).2)

end Predicate

end RelQuery
