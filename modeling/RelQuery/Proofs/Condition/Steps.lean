import RelQuery.Predicate.Scope
import RelQuery.Proofs.Reading.Written

/-!
# The steps of compiling a condition

A condition is compiled entry by entry, and each entry is compiled on its own.  The equations here
say what one entry does to the links of the rest; everything that is said about compiled conditions
goes by induction over them.

* `Scope.attach` puts the term of an entry, if it has one, in front of the other links.
* `Scope.inside` is the scope of a condition under a key.
* **`links_append`** — entries in a row compile one part after the other.
* **`sound_of_links`** — what comes out has no empty chain and no column without a name.
-/

namespace RelQuery

/-! ## Steps that succeed -/

lemma bind_eq_ok {α β : Type} {x : Except Error α} {f : α → Except Error β} {b : β} :
    x >>= f = .ok b ↔ ∃ a, x = .ok a ∧ f a = .ok b := by
  cases x with
  | error e => simp [bind, Except.bind]
  | ok a => simp [bind, Except.bind]

lemma bind_eq_error {α β : Type} {x : Except Error α} {f : α → Except Error β} {e : Error} :
    x >>= f = .error e ↔ x = .error e ∨ ∃ a, x = .ok a ∧ f a = .error e := by
  cases x with
  | error e' => simp [bind, Except.bind]
  | ok a => simp [bind, Except.bind]

lemma map_eq_ok {α β : Type} {x : Except Error α} {f : α → β} {b : β} :
    x.map f = .ok b ↔ ∃ a, x = .ok a ∧ f a = b := by
  cases x with
  | error e => simp [Except.map]
  | ok a => simp [Except.map]

lemma return_eq_ok {α : Type} {a b : α} : (pure a : Except Error α) = .ok b ↔ a = b := by
  simp [pure, Except.pure]

/-- A check in front of something else. -/
lemma check_bind_eq_ok {β : Type} {x : Except Error Unit} {y : Except Error β} {b : β} :
    (do x; y) = .ok b ↔ x = .ok () ∧ y = .ok b := by
  rw [bind_eq_ok]
  exact ⟨fun ⟨_, hx, hy⟩ => ⟨hx, hy⟩, fun ⟨hx, hy⟩ => ⟨(), hx, hy⟩⟩

/-- A check of every item succeeds if each of them does. -/
lemma forM_eq_ok {α : Type} {check : α → Except Error Unit} {items : List α} :
    forM items check = .ok () ↔ ∀ a ∈ items, check a = .ok () := by
  induction items with
  | nil => exact iff_of_true rfl fun _ ha => absurd ha List.not_mem_nil
  | cons a items ih => rw [List.forM_cons, check_bind_eq_ok, ih, List.forall_mem_cons]

/-- A list of results has one for each item, in order. -/
lemma mapM_eq_ok {α β : Type} {f : α → Except Error β} {items : List α} {results : List β} :
    items.mapM f = .ok results ↔ List.Forall₂ (fun a b => f a = .ok b) items results := by
  induction items generalizing results with
  | nil =>
      rw [List.mapM_nil, return_eq_ok, List.forall₂_nil_left_iff]
      exact eq_comm
  | cons a items ih =>
      simp only [List.mapM_cons, bind_eq_ok, return_eq_ok, ih, List.forall₂_cons_left_iff]
      constructor
      · rintro ⟨b, hb, rest, hrest, rfl⟩
        exact ⟨b, rest, hb, hrest, rfl⟩
      · rintro ⟨b, rest, hb, hrest, rfl⟩
        exact ⟨b, hb, rest, hrest, rfl⟩

/-- What a list of results comes from. -/
lemma exists_of_mem_mapM {α β : Type} {f : α → Except Error β} {items : List α} {results : List β}
    (h : items.mapM f = .ok results) {b : β} (hb : b ∈ results) : ∃ a ∈ items, f a = .ok b := by
  have hall := mapM_eq_ok.mp h
  clear h
  induction hall with
  | nil => exact absurd hb List.not_mem_nil
  | cons hfirst _ ih =>
      rcases List.mem_cons.mp hb with rfl | hb
      · exact ⟨_, List.mem_cons_self, hfirst⟩
      · obtain ⟨c, hc, hcb⟩ := ih hb
        exact ⟨c, List.mem_cons_of_mem _ hc, hcb⟩

/-- Each item has its result in the list. -/
lemma exists_mem_of_mapM {α β : Type} {f : α → Except Error β} {items : List α} {results : List β}
    (h : items.mapM f = .ok results) {a : α} (ha : a ∈ items) : ∃ b ∈ results, f a = .ok b := by
  have hall := mapM_eq_ok.mp h
  clear h
  induction hall with
  | nil => exact absurd ha List.not_mem_nil
  | @cons first result _ _ hfirst _ ih =>
      rcases List.mem_cons.mp ha with rfl | ha
      · exact ⟨result, List.mem_cons_self, hfirst⟩
      · obtain ⟨b, hb, hab⟩ := ih ha
        exact ⟨b, List.mem_cons_of_mem _ hb, hab⟩

namespace Scope

variable {ρ : Type} {scope : Scope}

/-! ## One entry -/

/-- The term of an entry in front of the links of others, unless it contributes none. -/
def attach (c : Connector) (term : Option (Term ρ)) (links : List (Connector × Term ρ)) :
    List (Connector × Term ρ) :=
  match term with
  | some term => (c, term) :: links
  | none => links

@[simp] lemma attach_some (c : Connector) (term : Term ρ) (links : List (Connector × Term ρ)) :
    attach c (some term) links = (c, term) :: links := rfl

@[simp] lemma attach_none (c : Connector) (links : List (Connector × Term ρ)) :
    attach c none links = links := rfl

lemma attach_append (c : Connector) (term : Option (Term ρ)) (as bs : List (Connector × Term ρ)) :
    attach c term as ++ bs = attach c term (as ++ bs) := by
  cases term <;> rfl

lemma chainOf_eq_none_iff {links : List (Connector × Term ρ)} :
    chainOf links = none ↔ links = [] := by
  cases links <;> simp [chainOf]

lemma chainOf_eq_some_iff {links : List (Connector × Term ρ)} {term : Term ρ} :
    chainOf links = some term ↔ links ≠ [] ∧ term = .chain links := by
  cases links <;> simp [chainOf, eq_comm]

/-- The comparisons of a term that may be missing. -/
def comparisonsOf (term : Option (Term ρ)) : List (Comparison ρ) :=
  match term with
  | some term => term.comparisons
  | none => []

lemma linkComparisons_attach (c : Connector) (term : Option (Term ρ))
    (links : List (Connector × Term ρ)) :
    Term.linkComparisons (attach c term links)
      = comparisonsOf term ++ Term.linkComparisons links := by
  cases term <;> rfl

lemma comparisonsOf_chainOf (links : List (Connector × Term ρ)) :
    comparisonsOf (chainOf links) = Term.linkComparisons links := by
  cases links <;> rfl

lemma links_clause (current : Option Connector) (key : String) (op : Option Operator)
    (operand : Operand) (entries : List Entry) :
    scope.links current (.clause key op operand :: entries) = (do
      let term ← scope.clause key op operand
      let links ← scope.links current entries
      return attach (current.getD scope.connector) term links) := by
  rw [links]
  congr 1
  funext term
  cases term <;> rfl

lemma links_group (current : Option Connector) (inner entries : List Entry) :
    scope.links current (.group inner :: entries) = (do
      let own ← scope.grouped.links none inner
      let links ← scope.links current entries
      return attach (current.getD scope.connector) (chainOf own) links) := by
  rw [links]
  congr 1
  funext own
  cases chainOf own <;> rfl

lemma alternative_list (op : Operator) (key : String) (items : List Value) :
    scope.alternative op key (.arr items)
      = (do return chainOf (← scope.alternatives op (Operator.splitKey key).1 items)) := rfl

lemma alternative_single {v : Value} (h : ∀ items, v ≠ .arr items) (op : Operator) (key : String) :
    scope.alternative op key v
      = (do return some (.test (← scope.compareValue (Operator.splitKey key).1 op v))) := by
  cases v with
  | arr items => exact absurd rfl (h items)
  | null | bool | num | str | obj => rfl

lemma alternatives_cons (op : Operator) (key : String) (v : Value) (items : List Value) :
    scope.alternatives op key (v :: items) = (do
      let term ← scope.alternative op key v
      let links ← scope.alternatives op key items
      return attach .or term links) := by
  rw [alternatives]
  congr 1
  funext term
  cases term <;> rfl

/-! ## Clauses -/

/-- Whether the key of a nested condition names a joined table. -/
def entersTable (scope : Scope) (key : String) : Bool :=
  scope.forcedKey.isNone && scope.joined.contains (Text.trim key)

/-- The scope of a condition under a key. -/
def inside (scope : Scope) (key : String) (op : Option Operator) : Scope :=
  if scope.entersTable key then scope.inTable (Text.trim key)
  else scope.forced (scope.resolveKey key op).1

/-- A nested condition takes no operator, unless its key names a table. -/
def checkNested (scope : Scope) (key : String) (op : Option Operator) : Except Error Unit :=
  if !scope.entersTable key && (scope.resolveKey key op).2.isSome then
    misuse (.nestedOperator (scope.resolveKey key op).1)
  else .ok ()

/-- Whether the list of a clause is the list of an `IN`. -/
def listsValues (scope : Scope) (key : String) (op : Option Operator) : Bool :=
  (scope.resolveKey key op).2.getD .within = .within

lemma clause_nested (key : String) (op : Option Operator) (entries : List Entry) :
    scope.clause key op (.nested entries) = (do
      scope.checkNested key op
      let links ← (scope.inside key op).links none entries
      return chainOf links) := by
  rw [clause, checkNested, inside, entersTable]
  cases hin : scope.forcedKey.isNone && scope.joined.contains (Text.trim key)
  · cases hop : (scope.resolveKey key op).2.isSome
    · simp [hop]
      rfl
    · simp [hop]
      rfl
  · simp
    rfl

lemma clause_scalar (key : String) (op : Option Operator) (v : Value) :
    scope.clause key op (.scalar v)
      = (do return some (.test (← scope.compareValue (scope.resolveKey key op).1
          ((scope.resolveKey key op).2.getD .eq) v))) := rfl

lemma clause_column (key : String) (op : Option Operator) (other : String) :
    scope.clause key op (.column other)
      = (do return some (.test (← scope.compareColumn (scope.resolveKey key op).1
          ((scope.resolveKey key op).2.getD .eq) other))) := rfl

lemma clause_list (key : String) (op : Option Operator) (items : List Value) :
    scope.clause key op (.list items) =
      if scope.listsValues key op then
        (do return some (.test (← scope.compareList (scope.resolveKey key op).1 items)))
      else
        (do return chainOf (← scope.grouped.alternatives
          ((scope.resolveKey key op).2.getD .within) (scope.resolveKey key op).1 items)) := by
  rw [clause, listsValues]
  cases h : (scope.resolveKey key op).2.getD .within <;> simp [h]

/-! ## Entries in a row -/

/-- The connector that was given last. -/
def lastConnector (current : Option Connector) : List Entry → Option Connector
  | [] => current
  | .connector c :: entries => lastConnector (some c) entries
  | .clause _ _ _ :: entries => lastConnector current entries
  | .group _ :: entries => lastConnector current entries

/-- **Entries in a row compile one part after the other**, the second under the last connector of
the first. -/
theorem links_append (current : Option Connector) (as bs : List Entry) :
    scope.links current (as ++ bs) = (do
      let own ← scope.links current as
      let rest ← scope.links (lastConnector current as) bs
      return own ++ rest) := by
  induction as generalizing current with
  | nil => simp [links, lastConnector]
  | cons entry as ih =>
      cases entry with
      | connector c => exact ih (some c)
      | clause key op operand =>
          rw [List.cons_append, links_clause, links_clause, ih, lastConnector]
          simp only [bind_assoc, pure_bind, attach_append]
      | group inner =>
          rw [List.cons_append, links_group, links_group, ih, lastConnector]
          simp only [bind_assoc, pure_bind, attach_append]

/-- Connectors alone compile to nothing. -/
lemma links_of_all_isConnector (current : Option Connector) {entries : List Entry}
    (h : entries.all Entry.isConnector = true) : scope.links current entries = .ok [] := by
  induction entries generalizing current with
  | nil => rfl
  | cons entry entries ih =>
      rw [List.all_cons, Bool.and_eq_true] at h
      cases entry with
      | connector c => exact ih (some c) h.2
      | clause key op operand => exact absurd h.1 (by simp [Entry.isConnector])
      | group inner => exact absurd h.1 (by simp [Entry.isConnector])

/-! ## What is behind an entry that compiles -/

section Inversion

variable {op : Operator} {op? : Option Operator} {key : String} {current : Option Connector}
  {entries : List Entry} {term : Option (Term Slot)} {links : List (Connector × Term Slot)}

lemma alternative_list_eq_ok {items : List Value} :
    scope.alternative op key (.arr items) = .ok term
      ↔ ∃ links, scope.alternatives op (Operator.splitKey key).1 items = .ok links
        ∧ chainOf links = term := by
  rw [alternative_list]
  simp only [bind_eq_ok, return_eq_ok]

lemma alternative_single_eq_ok {v : Value} (hv : ∀ items, v ≠ .arr items) :
    scope.alternative op key v = .ok term
      ↔ ∃ c, scope.compareValue (Operator.splitKey key).1 op v = .ok c
        ∧ some (.test c) = term := by
  rw [alternative_single hv]
  simp only [bind_eq_ok, return_eq_ok]

lemma alternatives_cons_eq_ok {v : Value} {items : List Value} :
    scope.alternatives op key (v :: items) = .ok links
      ↔ ∃ term, scope.alternative op key v = .ok term
        ∧ ∃ rest, scope.alternatives op key items = .ok rest ∧ attach .or term rest = links := by
  rw [alternatives_cons]
  simp only [bind_eq_ok, return_eq_ok]

lemma clause_scalar_eq_ok {v : Value} :
    scope.clause key op? (.scalar v) = .ok term
      ↔ ∃ c, scope.compareValue (scope.resolveKey key op?).1
          ((scope.resolveKey key op?).2.getD .eq) v = .ok c ∧ some (.test c) = term := by
  rw [clause_scalar]
  simp only [bind_eq_ok, return_eq_ok]

lemma clause_column_eq_ok {other : String} :
    scope.clause key op? (.column other) = .ok term
      ↔ ∃ c, scope.compareColumn (scope.resolveKey key op?).1
          ((scope.resolveKey key op?).2.getD .eq) other = .ok c ∧ some (.test c) = term := by
  rw [clause_column]
  simp only [bind_eq_ok, return_eq_ok]

lemma clause_list_eq_ok {items : List Value} :
    scope.clause key op? (.list items) = .ok term
      ↔ (scope.listsValues key op? = true
          ∧ ∃ c, scope.compareList (scope.resolveKey key op?).1 items = .ok c
            ∧ some (.test c) = term)
        ∨ (scope.listsValues key op? = false
          ∧ ∃ links, scope.grouped.alternatives ((scope.resolveKey key op?).2.getD .within)
              (scope.resolveKey key op?).1 items = .ok links
            ∧ chainOf links = term) := by
  rw [clause_list]
  cases scope.listsValues key op? with
  | true =>
      simp only [if_true, bind_eq_ok, return_eq_ok, true_and, Bool.true_eq_false, false_and,
        or_false]
  | false =>
      simp only [Bool.false_eq_true, if_false, bind_eq_ok, return_eq_ok, false_and, true_and,
        false_or]

lemma clause_nested_eq_ok :
    scope.clause key op? (.nested entries) = .ok term
      ↔ ∃ checked, scope.checkNested key op? = .ok checked
        ∧ ∃ links, (scope.inside key op?).links none entries = .ok links
          ∧ chainOf links = term := by
  rw [clause_nested]
  simp only [bind_eq_ok, return_eq_ok]

lemma links_clause_eq_ok {operand : Operand} :
    scope.links current (.clause key op? operand :: entries) = .ok links
      ↔ ∃ term, scope.clause key op? operand = .ok term
        ∧ ∃ rest, scope.links current entries = .ok rest
          ∧ attach (current.getD scope.connector) term rest = links := by
  rw [links_clause]
  simp only [bind_eq_ok, return_eq_ok]

lemma links_group_eq_ok {inner : List Entry} :
    scope.links current (.group inner :: entries) = .ok links
      ↔ ∃ own, scope.grouped.links none inner = .ok own
        ∧ ∃ rest, scope.links current entries = .ok rest
          ∧ attach (current.getD scope.connector) (chainOf own) rest = links := by
  rw [links_group]
  simp only [bind_eq_ok, return_eq_ok]

end Inversion

/-! ## Fields and operators -/

section Fields

variable (key : String) (op : Option Operator)

lemma resolveKey_of_eq_none (h : scope.forcedKey = none) : scope.resolveKey key op
    = ((Operator.splitKey key).1, op <|> (Operator.splitKey key).2) := by
  rw [resolveKey, h]

lemma resolveKey_of_eq_some {forced : String} (h : scope.forcedKey = some forced) :
    scope.resolveKey key op
      = (forced, op <|> Operator.parse? key <|> (Operator.splitKey key).2) := by
  rw [resolveKey, h]

end Fields

/-! ## Comparisons that come out -/

section Comparisons

variable {field : String} {op : Operator} {v : Value} {c : Comparison Slot}

/-- A value becomes a parameter, or else a column if it is a text and a literal if it is not. -/
lemma atomOf_cases {a : Atom Slot} (h : scope.atomOf field v = .ok a) :
    (scope.parameterize = true ∧ a = .param ⟨scope.parameterBase field, v.normalized⟩)
      ∨ (scope.parameterize = false
        ∧ ((∃ s other, v = .str s ∧ Identifier.parse s = .ok other ∧ a = .column other)
          ∨ (∀ s, v ≠ .str s) ∧ a = .literal v.normalized)) := by
  unfold atomOf at h
  split at h
  · next hparameterize => exact .inl ⟨hparameterize, (Except.ok.inj h).symm⟩
  · next hparameterize =>
      refine .inr ⟨by simpa using hparameterize, ?_⟩
      split at h
      · next s =>
          obtain ⟨other, hother, rfl⟩ := map_eq_ok.mp h
          exact .inl ⟨s, other, rfl, hother, rfl⟩
      · next hstr => exact .inr ⟨hstr, (Except.ok.inj h).symm⟩

/-- A comparison is with null, or with what the value becomes. -/
lemma compareValue_cases (h : scope.compareValue field op v = .ok c) :
    ∃ column, scope.columnOf field = .ok column
      ∧ ((v.isNull = true ∧ c = ⟨column, nullOperator op, .one (.literal .null)⟩)
        ∨ (v.isNull = false
          ∧ ∃ a, scope.atomOf field v = .ok a ∧ c = ⟨column, op, sideOf op a⟩)) := by
  obtain ⟨column, hcolumn, h⟩ := bind_eq_ok.mp h
  refine ⟨column, hcolumn, ?_⟩
  split at h
  · next hnull => exact .inl ⟨hnull, (return_eq_ok.mp h).symm⟩
  · next hnull =>
      obtain ⟨a, ha, h⟩ := bind_eq_ok.mp h
      exact .inr ⟨by simpa using hnull, a, ha, (return_eq_ok.mp h).symm⟩

lemma compareColumn_cases {name : String} (h : scope.compareColumn field op name = .ok c) :
    ∃ column other, scope.columnOf field = .ok column ∧ Identifier.parse name = .ok other
      ∧ c = ⟨column, op, .one (.column other)⟩ := by
  obtain ⟨column, hcolumn, h⟩ := bind_eq_ok.mp h
  obtain ⟨other, hother, h⟩ := bind_eq_ok.mp h
  exact ⟨column, other, hcolumn, hother, (return_eq_ok.mp h).symm⟩

/-- The list of an `IN` is one of literals, and never empty. -/
lemma compareList_cases {items : List Value} (h : scope.compareList field items = .ok c) :
    ∃ column values, scope.columnOf field = .ok column ∧ values ≠ []
      ∧ c = ⟨column, .within, .many (values.map .literal)⟩ := by
  obtain ⟨column, hcolumn, h⟩ := bind_eq_ok.mp h
  obtain rfl := return_eq_ok.mp h
  cases items with
  | nil => exact ⟨column, [.null], hcolumn, List.cons_ne_nil _ _, rfl⟩
  | cons v items =>
      refine ⟨column, (v :: items).map Value.normalized, hcolumn, List.cons_ne_nil _ _, ?_⟩
      rw [List.map_map]
      rfl

end Comparisons

/-! ## What comes out is sound -/

/-- A term without an empty chain, all of its columns named. -/
def Sound (term : Term Slot) : Prop :=
  term.Solid ∧ ∀ c ∈ term.comparisons, c.Clear fun _ => True

/-- Links of such terms. -/
def AllSound (links : List (Connector × Term Slot)) : Prop :=
  Term.AllSolid links ∧ ∀ c ∈ Term.linkComparisons links, c.Clear fun _ => True

lemma sound_test {c : Comparison Slot} (h : c.Clear fun _ => True) : Sound (.test c) :=
  ⟨trivial, by simpa [Term.comparisons] using h⟩

lemma sound_of_chainOf {links : List (Connector × Term Slot)} {term : Term Slot}
    (h : AllSound links) (hterm : chainOf links = some term) : Sound term := by
  obtain ⟨hne, rfl⟩ := chainOf_eq_some_iff.mp hterm
  exact ⟨⟨hne, h.1⟩, h.2⟩

lemma allSound_nil : AllSound [] := ⟨trivial, by simp [Term.linkComparisons]⟩

lemma allSound_attach {c : Connector} {term : Option (Term Slot)}
    {links : List (Connector × Term Slot)} (hterm : ∀ t, term = some t → Sound t)
    (hlinks : AllSound links) : AllSound (attach c term links) := by
  cases term with
  | none => exact hlinks
  | some term =>
      obtain ⟨hsolid, hclear⟩ := hterm term rfl
      refine ⟨⟨hsolid, hlinks.1⟩, fun d hd => ?_⟩
      exact (List.mem_append.mp hd).elim (hclear d) (hlinks.2 d)

lemma parts_ne_nil_of_parse {s : String} {identifier : Identifier}
    (h : Identifier.parse s = .ok identifier) : identifier.parts ≠ [] := by
  rw [Identifier.parse] at h
  dsimp only at h
  split at h
  · simp [misuse] at h
  · split at h
    · simp [misuse] at h
    · rw [Except.ok.injEq] at h
      subst h
      dsimp only
      exact Text.pieces_ne_nil _ _

lemma parts_ne_nil_of_columnOf {field : String} {identifier : Identifier}
    (h : scope.columnOf field = .ok identifier) : identifier.parts ≠ [] := by
  rw [columnOf] at h
  split at h
  · exact parts_ne_nil_of_parse h
  · unfold Identifier.column at h
    split at h <;> exact parts_ne_nil_of_parse h

lemma clear_of_atomOf {field : String} {v : Value} {a : Atom Slot}
    (h : scope.atomOf field v = .ok a) : a.Clear fun _ => True := by
  rcases atomOf_cases h with ⟨-, rfl⟩ | ⟨-, ⟨s, other, -, hother, rfl⟩ | ⟨-, rfl⟩⟩
  · trivial
  · exact parts_ne_nil_of_parse hother
  · trivial

lemma clear_of_compareValue {field : String} {op : Operator} {v : Value} {c : Comparison Slot}
    (h : scope.compareValue field op v = .ok c) : c.Clear fun _ => True := by
  obtain ⟨column, hcolumn, ⟨-, rfl⟩ | ⟨-, a, ha, rfl⟩⟩ := compareValue_cases h
  · exact ⟨parts_ne_nil_of_columnOf hcolumn, trivial⟩
  · refine ⟨parts_ne_nil_of_columnOf hcolumn, ?_⟩
    rw [sideOf]
    split
    · simpa [Side.Clear] using clear_of_atomOf ha
    · exact clear_of_atomOf ha

lemma clear_of_compareColumn {field : String} {op : Operator} {other : String}
    {c : Comparison Slot} (h : scope.compareColumn field op other = .ok c) :
    c.Clear fun _ => True := by
  obtain ⟨column, identifier, hcolumn, hidentifier, rfl⟩ := compareColumn_cases h
  exact ⟨parts_ne_nil_of_columnOf hcolumn, parts_ne_nil_of_parse hidentifier⟩

lemma clear_of_compareList {field : String} {items : List Value} {c : Comparison Slot}
    (h : scope.compareList field items = .ok c) : c.Clear fun _ => True := by
  obtain ⟨column, values, hcolumn, -, rfl⟩ := compareList_cases h
  exact ⟨parts_ne_nil_of_columnOf hcolumn, List.forall_mem_map.mpr fun _ _ => trivial⟩

lemma sound_of_alternative_single {v : Value} (hv : ∀ items, v ≠ .arr items) {op : Operator}
    {key : String} {term : Term Slot} (h : scope.alternative op key v = .ok (some term)) :
    Sound term := by
  obtain ⟨c, hc, hterm⟩ := (alternative_single_eq_ok hv).mp h
  cases hterm
  exact sound_test (clear_of_compareValue hc)

mutual

lemma sound_of_alternative : (v : Value) → ∀ (op : Operator) (key : String) (term : Term Slot),
    scope.alternative op key v = .ok (some term) → Sound term
  | .arr items => by
      intro op key term h
      obtain ⟨links, hlinks, hterm⟩ := alternative_list_eq_ok.mp h
      exact sound_of_chainOf (sound_of_alternatives items op _ _ hlinks) hterm
  | .null => fun _ _ _ h => sound_of_alternative_single (by simp) h
  | .bool _ => fun _ _ _ h => sound_of_alternative_single (by simp) h
  | .num _ => fun _ _ _ h => sound_of_alternative_single (by simp) h
  | .str _ => fun _ _ _ h => sound_of_alternative_single (by simp) h
  | .obj _ => fun _ _ _ h => sound_of_alternative_single (by simp) h

lemma sound_of_alternatives : (items : List Value) → (op : Operator) → (key : String) →
    (links : List (Connector × Term Slot)) → scope.alternatives op key items = .ok links →
    AllSound links
  | [], op, key, links, h => by
      cases h
      exact allSound_nil
  | v :: items, op, key, links, h => by
      obtain ⟨term, hterm, rest, hrest, rfl⟩ := alternatives_cons_eq_ok.mp h
      refine allSound_attach ?_ (sound_of_alternatives items op key rest hrest)
      rintro t rfl
      exact sound_of_alternative v op key t hterm

end

mutual

lemma sound_of_clause : (operand : Operand) → (scope : Scope) → (key : String) →
    (op : Option Operator) → (term : Term Slot) → scope.clause key op operand = .ok (some term) →
    Sound term
  | .scalar v, scope, key, op, term, h => by
      obtain ⟨c, hc, hterm⟩ := clause_scalar_eq_ok.mp h
      cases hterm
      exact sound_test (clear_of_compareValue hc)
  | .column other, scope, key, op, term, h => by
      obtain ⟨c, hc, hterm⟩ := clause_column_eq_ok.mp h
      cases hterm
      exact sound_test (clear_of_compareColumn hc)
  | .list items, scope, key, op, term, h => by
      rcases clause_list_eq_ok.mp h with ⟨-, c, hc, hterm⟩ | ⟨-, links, hlinks, hterm⟩
      · cases hterm
        exact sound_test (clear_of_compareList hc)
      · exact sound_of_chainOf (sound_of_alternatives items _ _ _ hlinks) hterm
  | .nested entries, scope, key, op, term, h => by
      obtain ⟨-, -, links, hlinks, hterm⟩ := clause_nested_eq_ok.mp h
      exact sound_of_chainOf (sound_of_links entries _ _ _ hlinks) hterm

/-- **The links of a compiled condition are sound.** -/
theorem sound_of_links : (entries : List Entry) → (scope : Scope) → (current : Option Connector) →
    (links : List (Connector × Term Slot)) → scope.links current entries = .ok links →
    AllSound links
  | [], _, _, _, h => by
      cases h
      exact allSound_nil
  | .connector c :: entries, scope, current, links, h =>
      sound_of_links entries scope (some c) links h
  | .clause key op operand :: entries, scope, current, links, h => by
      obtain ⟨term, hterm, rest, hrest, rfl⟩ := links_clause_eq_ok.mp h
      refine allSound_attach ?_ (sound_of_links entries scope current rest hrest)
      rintro t rfl
      exact sound_of_clause operand scope key op t hterm
  | .group inner :: entries, scope, current, links, h => by
      obtain ⟨own, hown, rest, hrest, rfl⟩ := links_group_eq_ok.mp h
      refine allSound_attach ?_ (sound_of_links entries scope current rest hrest)
      exact fun t ht => sound_of_chainOf (sound_of_links inner _ _ own hown) ht

end

end Scope

end RelQuery
