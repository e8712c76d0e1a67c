import RelQuery.Proofs.Condition.Compile
import RelQuery.Proofs.Condition.KeyName

/-!
# Places of comparisons

A condition nests in three ways, and each of them may change what a key inside is about.  Which
column a comparison is about can be told from where it stands alone, by looking at what encloses it
from the inside out, without walking through the condition.  What it is compared with is written at
that place, too.

* `Site` is the place of a clause: its key, and what encloses it.
* `Scope.forceAt` is the key that is in force at a place, `Scope.tableAt` the table that bare names
  belong to there, and `Scope.columnAt` the column that a comparison there is about.
* `Counterpart` is what a column is compared with, and how.
* `Scope.sites` are the places of all comparisons of a condition, in order; `Scope.origins` are the
  places with the counterparts.
* **`Scope.Stands.inside`** — a nested condition is entered with the scope of its place.
* **`Scope.yields_of_links`** — each comparison of a compiled condition comes from the counterpart
  at its place.
-/

namespace RelQuery

open Identifier

/-! ## Places -/

/-- What a clause may stand in. -/
inductive Enclosure where
  | group
  /-- A nested condition under a key. -/
  | nested (key : String)

/-- The place of a comparison. -/
structure Site where
  /-- What encloses it, innermost first. -/
  path : List Enclosure
  /-- The key of its clause. -/
  key : String

namespace Scope

/-- The key that is in force at a place: it is forced on all comparisons there.  A nested key comes
into force unless it is a joined table or another key is in force, and stays in force until a group
begins. -/
def forceAt (scope : Scope) : List Enclosure → Option String
  | [] => scope.forcedKey
  | .group :: _ => none
  | .nested key :: outer =>
    match scope.forceAt outer with
    | some forced => some forced
    | none => if Text.trim key ∈ scope.joined then none else some key

/-- The table that bare names belong to at a place.  A nested key that is a joined table is entered
as one unless a key is in force. -/
def tableAt (scope : Scope) : List Enclosure → Option String
  | [] => scope.defaultTable
  | .group :: outer => scope.tableAt outer
  | .nested key :: outer =>
    if scope.forceAt outer = none ∧ Text.trim key ∈ scope.joined then some (Text.trim key)
    else scope.tableAt outer

/-- The column that a comparison at a place is about: the key in force or else its own, by the name
in it, of the table that it names or else of the table there. -/
def columnAt (scope : Scope) (site : Site) : Identifier :=
  columnNamed (scope.tableAt site.path) (leadingName ((scope.forceAt site.path).getD site.key))

/-- If the key without its operator is a name, then the column has this name. -/
lemma columnAt_eq_columnNamed {scope : Scope} {site : Site} {name : String}
    {identifier : Identifier}
    (hname : (Operator.splitKey ((scope.forceAt site.path).getD site.key)).1 = name)
    (h : parse name = .ok identifier) :
    scope.columnAt site = columnNamed (scope.tableAt site.path) name := by
  subst hname
  rw [columnAt, leadingName_eq_splitKey h]

end Scope

/-! ## Comparisons -/

mutual

/-- The number of values in a value: one, unless it is a list. -/
def Value.leafCount : Value → Nat
  | .arr items => leafCountOfAll items
  | .null => 1
  | .bool _ => 1
  | .num _ => 1
  | .str _ => 1
  | .obj _ => 1

/-- The number of values in some values and in the lists among them. -/
def Value.leafCountOfAll : List Value → Nat
  | [] => 0
  | v :: items => v.leafCount + leafCountOfAll items

end

mutual

/-- The values in a value: itself, unless it is a list. -/
def Value.leaves : Value → List Value
  | .arr items => leavesOfAll items
  | .null => [.null]
  | .bool b => [.bool b]
  | .num n => [.num n]
  | .str s => [.str s]
  | .obj members => [.obj members]

/-- The values in some values and in the lists among them. -/
def Value.leavesOfAll : List Value → List Value
  | [] => []
  | v :: items => v.leaves ++ leavesOfAll items

end

mutual

lemma Value.length_leaves : (v : Value) → v.leaves.length = v.leafCount
  | .arr items => length_leavesOfAll items
  | .null => rfl
  | .bool _ => rfl
  | .num _ => rfl
  | .str _ => rfl
  | .obj _ => rfl

lemma Value.length_leavesOfAll : (items : List Value) →
    (leavesOfAll items).length = leafCountOfAll items
  | [] => rfl
  | v :: items => by
      rw [leavesOfAll, List.length_append, length_leaves v, length_leavesOfAll items]
      rfl

end

/-- What a column is compared with, and how. -/
inductive Counterpart where
  | value (op : Operator) (v : Value)
  | column (op : Operator) (name : String)
  /-- The list of an `IN`. -/
  | values (items : List Value)

/-- Where a comparison comes from. -/
structure Origin where
  site : Site
  counterpart : Counterpart

namespace Scope

/-- The operator of a clause.  Where a key is in force, an operator may stand in place of a key. -/
def operatorAt (scope : Scope) (site : Site) (op : Option Operator) : Option Operator :=
  op <|> (if scope.forceAt site.path = none then none else Operator.parse? site.key)
    <|> (Operator.splitKey site.key).2

mutual

/-- The places of the comparisons that entries make, in order. -/
def sites (scope : Scope) (path : List Enclosure) : List Entry → List Site
  | [] => []
  | .connector _ :: entries => scope.sites path entries
  | .clause key op operand :: entries =>
    scope.operandSites ⟨path, key⟩ op operand ++ scope.sites path entries
  | .group inner :: entries => scope.sites (.group :: path) inner ++ scope.sites path entries

/-- The places of the comparisons that a clause makes.  A list is one comparison for `IN`, and one
for each value for any other operator. -/
def operandSites (scope : Scope) (site : Site) (op : Option Operator) : Operand → List Site
  | .scalar _ => [site]
  | .column _ => [site]
  | .list items =>
    if (scope.operatorAt site op).getD .within = .within then [site]
    else List.replicate (Value.leafCountOfAll items) site
  | .nested entries => scope.sites (.nested site.key :: site.path) entries

end

mutual

/-- The places of the comparisons that entries make, each with what is written there, in order. -/
def origins (scope : Scope) (path : List Enclosure) : List Entry → List Origin
  | [] => []
  | .connector _ :: entries => scope.origins path entries
  | .clause key op operand :: entries =>
    scope.operandOrigins ⟨path, key⟩ op operand ++ scope.origins path entries
  | .group inner :: entries => scope.origins (.group :: path) inner ++ scope.origins path entries

/-- The same for the comparisons that a clause makes.  A list belongs to an `IN` unless there is
another operator; then each value in it belongs to that one. -/
def operandOrigins (scope : Scope) (site : Site) (op : Option Operator) : Operand → List Origin
  | .scalar v => [⟨site, .value ((scope.operatorAt site op).getD .eq) v⟩]
  | .column name => [⟨site, .column ((scope.operatorAt site op).getD .eq) name⟩]
  | .list items =>
    if (scope.operatorAt site op).getD .within = .within then [⟨site, .values items⟩]
    else (Value.leavesOfAll items).map fun v =>
      ⟨site, .value ((scope.operatorAt site op).getD .within) v⟩
  | .nested entries => scope.origins (.nested site.key :: site.path) entries

end

/-! ## Scopes at places -/

/-- A scope that a condition has been entered with down to a place. -/
structure Stands (scope : Scope) (path : List Enclosure) (inner : Scope) : Prop where
  joined : inner.joined = scope.joined
  parameterize : inner.parameterize = scope.parameterize
  table : inner.defaultTable = scope.tableAt path
  force : inner.forcedKey.map leadingName = (scope.forceAt path).map leadingName

namespace Stands

variable {scope inner : Scope} {path : List Enclosure}

lemma refl (scope : Scope) : scope.Stands [] scope := ⟨rfl, rfl, rfl, rfl⟩

lemma grouped (h : scope.Stands path inner) : scope.Stands (.group :: path) inner.grouped :=
  ⟨h.joined, h.parameterize, h.table, rfl⟩

lemma forceAt_eq_none_iff (h : scope.Stands path inner) :
    scope.forceAt path = none ↔ inner.forcedKey = none := by
  rw [← Option.map_eq_none_iff (f := leadingName), ← h.force, Option.map_eq_none_iff]

/-- The field of a clause begins with the name at its place. -/
lemma leadingName_resolveKey (h : scope.Stands path inner) (key : String) (op : Option Operator) :
    leadingName (inner.resolveKey key op).1 = leadingName ((scope.forceAt path).getD key) := by
  have hforce := h.force
  cases hinner : inner.forcedKey with
  | none =>
      rw [resolveKey_of_eq_none key op hinner, h.forceAt_eq_none_iff.mpr hinner, Option.getD_none,
        leadingName_splitKey]
  | some forced =>
      rw [resolveKey_of_eq_some key op hinner]
      cases hat : scope.forceAt path with
      | none =>
          rw [h.forceAt_eq_none_iff.mp hat] at hinner
          cases hinner
      | some other =>
          rw [hinner, hat] at hforce
          exact Option.some.inj hforce

/-- The operator of a clause is the one at its place. -/
lemma resolveKey_snd (h : scope.Stands path inner) (key : String) (op : Option Operator) :
    (inner.resolveKey key op).2 = scope.operatorAt ⟨path, key⟩ op := by
  rw [operatorAt]
  cases hinner : inner.forcedKey with
  | none =>
      rw [resolveKey_of_eq_none key op hinner, if_pos (h.forceAt_eq_none_iff.mpr hinner)]
      generalize Operator.splitKey key = split
      rfl
  | some forced =>
      rw [resolveKey_of_eq_some key op hinner, if_neg fun hnone => Option.some_ne_none forced
        (hinner.symm.trans (h.forceAt_eq_none_iff.mp hnone))]

lemma entersTable_iff (h : scope.Stands path inner) (key : String) :
    inner.entersTable key = true ↔ scope.forceAt path = none ∧ Text.trim key ∈ scope.joined := by
  rw [entersTable, Bool.and_eq_true, List.contains_iff_mem, h.joined, Option.isNone_iff_eq_none,
    h.forceAt_eq_none_iff]

/-- **A nested condition is entered with the scope of its place.** -/
theorem inside (h : scope.Stands path inner) (key : String) (op : Option Operator) :
    scope.Stands (.nested key :: path) (inner.inside key op) := by
  by_cases henters : inner.entersTable key = true
  · obtain ⟨hnone, hjoined⟩ := (h.entersTable_iff key).mp henters
    rw [Scope.inside, if_pos henters]
    exact ⟨h.joined, h.parameterize, by rw [tableAt, if_pos ⟨hnone, hjoined⟩]; rfl,
      by rw [forceAt, hnone, if_pos hjoined]; rfl⟩
  · have hforced := h.leadingName_resolveKey key op
    rw [Scope.inside, if_neg henters]
    rw [h.entersTable_iff] at henters
    refine ⟨h.joined, h.parameterize, by rw [tableAt, if_neg henters]; exact h.table, ?_⟩
    show some (leadingName (inner.resolveKey key op).1) = _
    rw [hforced, forceAt]
    cases hat : scope.forceAt path with
    | none => rw [if_neg fun hjoined => henters ⟨hat, hjoined⟩]; rfl
    | some forced => rfl

end Stands

/-! ## Comparisons at places -/

/-- The comparison of a field with a counterpart. -/
def compare (scope : Scope) (field : String) : Counterpart → Except Error (Comparison Slot)
  | .value op v => scope.compareValue field op v
  | .column op name => scope.compareColumn field op name
  | .values items => scope.compareList field items

section Compared

variable {inner : Scope} {field : String} {c : Comparison Slot}

lemma columnOf_of_compareValue {op : Operator} {v : Value}
    (h : inner.compareValue field op v = .ok c) : inner.columnOf field = .ok c.column := by
  obtain ⟨column, hcolumn, ⟨-, rfl⟩ | ⟨-, a, -, rfl⟩⟩ := compareValue_cases h
  · exact hcolumn
  · exact hcolumn

/-- Whatever a column is compared with, it is the one that the field names. -/
lemma columnOf_of_compare {counterpart : Counterpart}
    (h : inner.compare field counterpart = .ok c) : inner.columnOf field = .ok c.column := by
  cases counterpart with
  | value op v => exact columnOf_of_compareValue h
  | column op name =>
      obtain ⟨column, other, hcolumn, -, rfl⟩ := compareColumn_cases h
      exact hcolumn
  | values items =>
      obtain ⟨column, values, hcolumn, -, rfl⟩ := compareList_cases h
      exact hcolumn

end Compared

/-- A comparison looks at the table of its scope and at what becomes of values there. -/
lemma compare_congr {a b : Scope} (htable : a.defaultTable = b.defaultTable)
    (hparameterize : a.parameterize = b.parameterize) : a.compare = b.compare := by
  obtain ⟨table, _, _, parameterize, _⟩ := a
  subst htable hparameterize
  rfl

/-- The scope of comparisons at a place. -/
def atPlace (scope : Scope) (path : List Enclosure) : Scope :=
  { scope with defaultTable := scope.tableAt path }

/-- What a comparison is made of: a field that begins with the name at a place, and the counterpart
that is written there. -/
def Yields (scope : Scope) (c : Comparison Slot) (origin : Origin) : Prop :=
  ∃ field, leadingName field
      = leadingName ((scope.forceAt origin.site.path).getD origin.site.key)
    ∧ (scope.atPlace origin.site.path).compare field origin.counterpart = .ok c

section Compiled

variable {scope inner : Scope} {path : List Enclosure}

lemma Stands.compare_eq (h : scope.Stands path inner) :
    inner.compare = (scope.atPlace path).compare :=
  compare_congr h.table h.parameterize

/-- The comparisons of alternatives with a key: each has a field with the name in the key. -/
def YieldsAll (inner : Scope) (op : Operator) (key : String) (comparisons : List (Comparison Slot))
    (values : List Value) : Prop :=
  List.Forall₂ (fun c v => ∃ field, leadingName field = leadingName key
    ∧ inner.compareValue field op v = .ok c) comparisons values

lemma yieldsAll_single {v : Value} (hv : ∀ items, v ≠ .arr items) {op : Operator} {key : String}
    {term : Option (Term Slot)} (h : inner.alternative op key v = .ok term) :
    inner.YieldsAll op key (comparisonsOf term) [v] := by
  obtain ⟨c, hc, rfl⟩ := (alternative_single_eq_ok hv).mp h
  exact .cons ⟨_, leadingName_splitKey key, hc⟩ .nil

mutual

/-- The comparisons of an alternative are with its values, however often its key is read. -/
lemma yieldsAll_of_alternative : (v : Value) → ∀ (op : Operator) (key : String)
    (term : Option (Term Slot)), inner.alternative op key v = .ok term →
    inner.YieldsAll op key (comparisonsOf term) v.leaves
  | .arr items => by
      intro op key term h
      obtain ⟨links, hlinks, rfl⟩ := alternative_list_eq_ok.mp h
      rw [comparisonsOf_chainOf, Value.leaves, YieldsAll, ← leadingName_splitKey]
      exact yieldsAll_of_alternatives items op _ links hlinks
  | .null => fun _ _ _ h => yieldsAll_single (by simp) h
  | .bool _ => fun _ _ _ h => yieldsAll_single (by simp) h
  | .num _ => fun _ _ _ h => yieldsAll_single (by simp) h
  | .str _ => fun _ _ _ h => yieldsAll_single (by simp) h
  | .obj _ => fun _ _ _ h => yieldsAll_single (by simp) h

lemma yieldsAll_of_alternatives : (items : List Value) → (op : Operator) → (key : String) →
    (links : List (Connector × Term Slot)) → inner.alternatives op key items = .ok links →
    inner.YieldsAll op key (Term.linkComparisons links) (Value.leavesOfAll items)
  | [], _, _, links, h => by
      cases h
      exact .nil
  | v :: items, op, key, links, h => by
      obtain ⟨term, hterm, rest, hrest, rfl⟩ := alternatives_cons_eq_ok.mp h
      rw [linkComparisons_attach]
      exact List.rel_append (yieldsAll_of_alternative v op key term hterm)
        (yieldsAll_of_alternatives items op key rest hrest)

end

/-- A clause at a place has one comparison with its counterpart. -/
lemma Stands.yields_single (h : scope.Stands path inner) {key : String} {op : Option Operator}
    {counterpart : Counterpart} {c : Comparison Slot}
    (hc : inner.compare (inner.resolveKey key op).1 counterpart = .ok c) :
    List.Forall₂ scope.Yields (comparisonsOf (some (.test c))) [⟨⟨path, key⟩, counterpart⟩] :=
  .cons ⟨_, h.leadingName_resolveKey key op, h.compare_eq ▸ hc⟩ .nil

mutual

lemma yields_of_clause : (operand : Operand) → (path : List Enclosure) → (inner : Scope) →
    scope.Stands path inner → (key : String) → (op : Option Operator) →
    (term : Option (Term Slot)) → inner.clause key op operand = .ok term →
    List.Forall₂ scope.Yields (comparisonsOf term) (scope.operandOrigins ⟨path, key⟩ op operand)
  | .scalar v, path, inner, hstands, key, op, term, h => by
      obtain ⟨c, hc, rfl⟩ := clause_scalar_eq_ok.mp h
      rw [operandOrigins, ← hstands.resolveKey_snd]
      exact hstands.yields_single hc
  | .column other, path, inner, hstands, key, op, term, h => by
      obtain ⟨c, hc, rfl⟩ := clause_column_eq_ok.mp h
      rw [operandOrigins, ← hstands.resolveKey_snd]
      exact hstands.yields_single hc
  | .list items, path, inner, hstands, key, op, term, h => by
      rw [operandOrigins, ← hstands.resolveKey_snd]
      rcases clause_list_eq_ok.mp h with ⟨hin, c, hc, rfl⟩ | ⟨hin, links, hlinks, rfl⟩
      · rw [if_pos (of_decide_eq_true hin)]
        exact hstands.yields_single hc
      · rw [if_neg (of_decide_eq_false hin), comparisonsOf_chainOf, List.forall₂_map_right_iff]
        refine (yieldsAll_of_alternatives items _ _ links hlinks).imp ?_
        rintro c v ⟨field, hfield, hc⟩
        refine ⟨field, hfield.trans (hstands.leadingName_resolveKey key op), ?_⟩
        rw [← hstands.compare_eq]
        exact hc
  | .nested entries, path, inner, hstands, key, op, term, h => by
      obtain ⟨-, -, links, hlinks, rfl⟩ := clause_nested_eq_ok.mp h
      rw [comparisonsOf_chainOf, operandOrigins]
      exact yields_of_links entries _ _ (hstands.inside key op) none links hlinks

/-- **The comparisons of compiled entries come from what is written at their places**, in order. -/
theorem yields_of_links : (entries : List Entry) → (path : List Enclosure) → (inner : Scope) →
    scope.Stands path inner → (current : Option Connector) →
    (links : List (Connector × Term Slot)) → inner.links current entries = .ok links →
    List.Forall₂ scope.Yields (Term.linkComparisons links) (scope.origins path entries)
  | [], _, _, _, _, links, h => by
      cases h
      exact .nil
  | .connector c :: entries, path, inner, hstands, _, links, h =>
      yields_of_links entries path inner hstands (some c) links h
  | .clause key op operand :: entries, path, inner, hstands, current, links, h => by
      obtain ⟨term, hterm, rest, hrest, rfl⟩ := links_clause_eq_ok.mp h
      rw [linkComparisons_attach, origins]
      exact List.rel_append (yields_of_clause operand path inner hstands key op term hterm)
        (yields_of_links entries path inner hstands current rest hrest)
  | .group others :: entries, path, inner, hstands, current, links, h => by
      obtain ⟨own, hown, rest, hrest, rfl⟩ := links_group_eq_ok.mp h
      rw [linkComparisons_attach, comparisonsOf_chainOf, origins]
      exact List.rel_append (yields_of_links others _ _ hstands.grouped none own hown)
        (yields_of_links entries path inner hstands current rest hrest)

end

end Compiled

end Scope

/-! ## Compiled text -/

/-- Naming parameters one after the other names each comparison, with whatever is bound by then. -/
lemma Comparison.forall₂_mapM_bind {α : Type} {r : Comparison Slot → α → Prop}
    {comparisons : List (Comparison Slot)} {items : List α}
    (h : List.Forall₂ r comparisons items) (start : Bindings) :
    List.Forall₂ (fun named a => ∃ c earlier, r c a ∧ named = (c.bind earlier).1)
      (comparisons.mapM Comparison.bind start).1 items := by
  induction h generalizing start with
  | nil => exact .nil
  | @cons c a comparisons items hfirst _ ih =>
      rw [List.mapM_cons]
      exact .cons ⟨c, start, hfirst, rfl⟩ (ih (c.bind start).2)

/-- **Each comparison in the text of a condition comes from what is written at its place.** -/
theorem Conditions.yields_of_compile {c : Conditions} {dialect : Dialect} {scope : Scope}
    {start bindings : Bindings} {sql : String}
    (h : c.compile dialect scope start = .ok (sql, bindings)) :
    List.Forall₂ (fun text origin => ∃ comparison earlier, scope.Yields comparison origin
        ∧ text = (comparison.bind earlier).1.text dialect)
      (Word.comparisonsIn dialect sql) (scope.origins [] c.entries) := by
  obtain ⟨p, hp, hwrite⟩ := compile_eq_ok.mp h
  have hyields : List.Forall₂ scope.Yields p.comparisons (scope.origins [] c.entries) :=
    Scope.yields_of_links c.entries [] scope (.refl scope) none p.links (predicate_eq_ok.mp hp)
  have htexts := Predicate.comparisonsIn_write (sound_of_predicate hp) dialect start
  rw [hwrite] at htexts
  rw [htexts, List.forall₂_map_left_iff]
  refine (Comparison.forall₂_mapM_bind hyields start).imp ?_
  rintro named origin ⟨comparison, earlier, hcomparison, rfl⟩
  exact ⟨comparison, earlier, hcomparison, rfl⟩

end RelQuery
