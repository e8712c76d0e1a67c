import RelQuery.Proofs.Condition.Compile
import RelQuery.Query.Select
import RelQuery.Query.Write

/-!
# Conditions that say nothing

A condition counts as empty when nothing but connectors stands in it.  What is written, however, is
empty more often: a condition under a key may have nothing inside, and a list without a value under
an operator other than `IN` has no alternative.  Such entries are left out, however deep they stand.

* `Scope.vacuous` looks through all of this; it depends on the scope, which decides about operators.
* **`links_eq_nil_iff`** — a condition compiles to nothing exactly when it is vacuous.
* **`restricts_iff_not_vacuous`** — so a delete has its `WHERE`, and a join something behind its
  `ON`, exactly when the condition is not vacuous.
-/

namespace RelQuery

/-! ## Definitions -/

mutual

/-- Whether a value is nothing but lists of lists. -/
def Value.hollow : Value → Bool
  | .arr items => hollowItems items
  | .null => false
  | .bool _ => false
  | .num _ => false
  | .str _ => false
  | .obj _ => false

/-- Whether a list holds nothing but such values. -/
def Value.hollowItems : List Value → Bool
  | [] => true
  | v :: items => v.hollow && hollowItems items

end

mutual

/-- Whether entries say nothing. -/
def Scope.vacuous (scope : Scope) : List Entry → Bool
  | [] => true
  | .connector _ :: entries => scope.vacuous entries
  | .clause key op operand :: entries =>
    scope.vacuousOperand key op operand && scope.vacuous entries
  | .group inner :: entries => scope.grouped.vacuous inner && scope.vacuous entries

/-- Whether a clause says nothing.  The list of an `IN` always says something. -/
def Scope.vacuousOperand (scope : Scope) (key : String) (op : Option Operator) : Operand → Bool
  | .scalar _ => false
  | .column _ => false
  | .list items => !scope.listsValues key op && Value.hollowItems items
  | .nested entries => (scope.inside key op).vacuous entries

end

/-! ## What compiles to nothing -/

namespace Scope

lemma attach_eq_nil_iff {ρ : Type} {c : Connector} {term : Option (Term ρ)}
    {links : List (Connector × Term ρ)} : attach c term links = [] ↔ term = none ∧ links = [] := by
  cases term <;> simp

lemma alternative_single_ne_none {scope : Scope} {v : Value} (hv : ∀ items, v ≠ .arr items)
    {op : Operator} {key : String} {term : Option (Term Slot)}
    (h : scope.alternative op key v = .ok term) : term ≠ none := by
  obtain ⟨c, -, rfl⟩ := (alternative_single_eq_ok hv).mp h
  exact Option.some_ne_none _

mutual

/-- An alternative is left out exactly when it is hollow. -/
lemma alternative_eq_none_iff {scope : Scope} : (v : Value) → ∀ (op : Operator) (key : String)
    (term : Option (Term Slot)), scope.alternative op key v = .ok term →
    (term = none ↔ v.hollow = true)
  | .arr items => by
      intro op key term h
      obtain ⟨links, hlinks, rfl⟩ := alternative_list_eq_ok.mp h
      rw [chainOf_eq_none_iff, Value.hollow]
      exact alternatives_eq_nil_iff items op _ links hlinks
  | .null => fun _ _ _ h => by simp [alternative_single_ne_none (by simp) h, Value.hollow]
  | .bool _ => fun _ _ _ h => by simp [alternative_single_ne_none (by simp) h, Value.hollow]
  | .num _ => fun _ _ _ h => by simp [alternative_single_ne_none (by simp) h, Value.hollow]
  | .str _ => fun _ _ _ h => by simp [alternative_single_ne_none (by simp) h, Value.hollow]
  | .obj _ => fun _ _ _ h => by simp [alternative_single_ne_none (by simp) h, Value.hollow]

/-- No alternative is left exactly when all of them are hollow. -/
lemma alternatives_eq_nil_iff {scope : Scope} : (items : List Value) → (op : Operator) →
    (key : String) → (links : List (Connector × Term Slot)) →
    scope.alternatives op key items = .ok links → (links = [] ↔ Value.hollowItems items = true)
  | [], op, key, links, h => by
      cases h
      simp [Value.hollowItems]
  | v :: items, op, key, links, h => by
      obtain ⟨term, hterm, rest, hrest, rfl⟩ := alternatives_cons_eq_ok.mp h
      rw [attach_eq_nil_iff, alternative_eq_none_iff v op key term hterm,
        alternatives_eq_nil_iff items op key rest hrest, Value.hollowItems, Bool.and_eq_true]

end

mutual

/-- A clause is left out exactly when it is vacuous. -/
lemma clause_eq_none_iff : (operand : Operand) → (scope : Scope) → (key : String) →
    (op : Option Operator) → (term : Option (Term Slot)) →
    scope.clause key op operand = .ok term →
    (term = none ↔ scope.vacuousOperand key op operand = true)
  | .scalar v, scope, key, op, term, h => by
      obtain ⟨c, -, rfl⟩ := clause_scalar_eq_ok.mp h
      simp [vacuousOperand]
  | .column other, scope, key, op, term, h => by
      obtain ⟨c, -, rfl⟩ := clause_column_eq_ok.mp h
      simp [vacuousOperand]
  | .list items, scope, key, op, term, h => by
      rw [vacuousOperand]
      rcases clause_list_eq_ok.mp h with ⟨hin, c, -, rfl⟩ | ⟨hin, links, hlinks, rfl⟩
      · simp [hin]
      · rw [chainOf_eq_none_iff, alternatives_eq_nil_iff items _ _ links hlinks, hin,
          Bool.not_false, Bool.true_and]
  | .nested entries, scope, key, op, term, h => by
      obtain ⟨-, -, links, hlinks, rfl⟩ := clause_nested_eq_ok.mp h
      rw [chainOf_eq_none_iff, vacuousOperand]
      exact links_eq_nil_iff entries _ _ links hlinks

/-- **A condition compiles to nothing exactly when it is vacuous.** -/
theorem links_eq_nil_iff : (entries : List Entry) → (scope : Scope) →
    (current : Option Connector) → (links : List (Connector × Term Slot)) →
    scope.links current entries = .ok links → (links = [] ↔ scope.vacuous entries = true)
  | [], _, _, links, h => by
      cases h
      simp [vacuous]
  | .connector c :: entries, scope, current, links, h =>
      links_eq_nil_iff entries scope (some c) links h
  | .clause key op operand :: entries, scope, current, links, h => by
      obtain ⟨term, hterm, rest, hrest, rfl⟩ := links_clause_eq_ok.mp h
      rw [attach_eq_nil_iff, clause_eq_none_iff operand scope key op term hterm,
        links_eq_nil_iff entries scope current rest hrest, vacuous, Bool.and_eq_true]
  | .group inner :: entries, scope, current, links, h => by
      obtain ⟨own, hown, rest, hrest, rfl⟩ := links_group_eq_ok.mp h
      rw [attach_eq_nil_iff, chainOf_eq_none_iff,
        links_eq_nil_iff inner _ _ own hown, links_eq_nil_iff entries scope current rest hrest,
        vacuous, Bool.and_eq_true]

end

end Scope

/-! ## Texts -/

namespace Conditions

variable {c : Conditions} {scope : Scope} {p : Predicate Slot}

/-- The text of a condition is empty exactly when the condition is vacuous. -/
lemma write_eq_empty_iff (h : c.predicate scope = .ok p) (dialect : Dialect) (start : Bindings) :
    (p.write dialect start).1 = "" ↔ scope.vacuous c.entries = true := by
  rw [Predicate.write_eq_empty_iff (sound_of_predicate h)]
  exact Scope.links_eq_nil_iff c.entries scope none p.links (predicate_eq_ok.mp h)

/-- The text has a comparison exactly when the condition is not vacuous. -/
lemma comparisonsIn_write_eq_nil_iff (h : c.predicate scope = .ok p) (dialect : Dialect)
    (start : Bindings) :
    Word.comparisonsIn dialect (p.write dialect start).1 = []
      ↔ scope.vacuous c.entries = true := by
  have hsound := sound_of_predicate h
  rw [← List.length_eq_zero_iff, Predicate.length_comparisonsIn_write hsound,
    List.length_eq_zero_iff, Predicate.comparisons_eq_nil_iff hsound.1]
  exact Scope.links_eq_nil_iff c.entries scope none p.links (predicate_eq_ok.mp h)

end Conditions

lemma Statement.exists_of_deleteQuery {statement : Statement} {query : Query Slot}
    (h : statement.deleteQuery = .ok query) :
    statement.conditions.isEmpty = false ∧ ∃ name p,
      statement.conditions.predicate {} = .ok p ∧ query = .delete name p := by
  obtain ⟨table, -, h⟩ := bind_eq_ok.mp h
  split at h
  · cases h
  · next hempty =>
      obtain ⟨name, -, h⟩ := bind_eq_ok.mp h
      obtain ⟨p, hp, h⟩ := bind_eq_ok.mp h
      exact ⟨by simpa using hempty, name, p, hp, (return_eq_ok.mp h).symm⟩

lemma Join.exists_of_item {join : Join} {joined : List String} {item : JoinItem Slot}
    (h : join.item joined = .ok item) :
    join.on.isEmpty = false ∧ join.on.predicate
      { defaultTable := some join.aliasName, parameterize := false, joined } = .ok item.on := by
  rw [Join.item] at h
  split at h
  · cases h
  · next hempty =>
      obtain ⟨p, hp, h⟩ := bind_eq_ok.mp h
      obtain ⟨table, -, h⟩ := bind_eq_ok.mp h
      refine ⟨by simpa using hempty, ?_⟩
      split at h
      · cases h
        exact hp
      · obtain ⟨aliasName, -, h⟩ := bind_eq_ok.mp h
        cases h
        exact hp

lemma Query.sql_prepare_delete (dialect : Dialect) (name : Identifier) {p : Predicate Slot}
    (h : p.Sound) :
    ((Query.delete name p).prepare dialect).sql = "DELETE FROM " ++ name.text dialect ++
      (if (p.write dialect .empty).1 = "" then ""
        else " WHERE " ++ (p.write dialect .empty).1) := by
  show "DELETE FROM " ++ name.text dialect ++ filterText dialect (p.bind .empty).1 = _
  have hempty : (p.bind .empty).1.isEmpty = true ↔ (p.write dialect .empty).1 = "" := by
    rw [Predicate.isEmpty, List.isEmpty_iff, Predicate.links_bind_eq_nil_iff,
      Predicate.write_eq_empty_iff h]
  rw [filterText]
  simp only [hempty]
  rfl

/-- **A filter that was given is written exactly when it is not vacuous.**  That it is not empty is
all that a delete and a join ask for, and it is not enough: a vacuous one is dropped, with the
`WHERE` of the delete, and the `ON` of the join is left with nothing behind it. -/
theorem restricts_iff_not_vacuous (dialect : Dialect) :
    (∀ (c : Conditions) (scope : Scope) (start : Bindings) (sql : String) (bound : Bindings),
      c.compile dialect scope start = .ok (sql, bound) →
        (sql ≠ "" ↔ scope.vacuous c.entries = false))
    ∧ (∀ (statement : Statement) (query : Query Slot), statement.deleteQuery = .ok query →
      statement.conditions.isEmpty = false ∧ ∃ (name : Identifier) (filter : String)
        (bound : Bindings), statement.conditions.compile dialect {} .empty = .ok (filter, bound)
        ∧ (query.prepare dialect).sql = "DELETE FROM " ++ name.text dialect ++
          (if Scope.vacuous {} statement.conditions.entries then "" else " WHERE " ++ filter)
        ∧ (Word.comparisonsIn dialect filter ≠ []
          ↔ Scope.vacuous {} statement.conditions.entries = false))
    ∧ (∀ (joined : List String) (join : Join) (item : JoinItem Slot) (start : Bindings),
      join.item joined = .ok item → join.on.isEmpty = false ∧
        let scope : Scope := { defaultTable := some join.aliasName, parameterize := false, joined }
        ∃ (on : String) (bound : Bindings), join.on.compile dialect scope start = .ok (on, bound)
        ∧ (item.bind start).1.text dialect = " " ++ item.kind.sql ++ " " ++
          item.table.text dialect ++ aliasText dialect item.aliasName ++ " ON " ++ on
        ∧ (on ≠ "" ↔ scope.vacuous join.on.entries = false)) := by
  refine ⟨?_, ?_, ?_⟩
  · intro c scope start sql bound h
    obtain ⟨p, hp, hwrite⟩ := Conditions.compile_eq_ok.mp h
    have hempty := Conditions.write_eq_empty_iff hp dialect start
    rw [hwrite] at hempty
    rw [ne_eq, hempty, Bool.not_eq_true]
  · intro statement query h
    obtain ⟨hguard, name, p, hp, rfl⟩ := Statement.exists_of_deleteQuery h
    refine ⟨hguard, name, (p.write dialect .empty).1, (p.write dialect .empty).2,
      Conditions.compile_eq_ok.mpr ⟨p, hp, rfl⟩, ?_, ?_⟩
    · rw [Query.sql_prepare_delete dialect name (Conditions.sound_of_predicate hp)]
      simp only [Conditions.write_eq_empty_iff hp]
    · rw [ne_eq, Conditions.comparisonsIn_write_eq_nil_iff hp, Bool.not_eq_true]
  · intro joined join item start h
    obtain ⟨hguard, hp⟩ := Join.exists_of_item h
    refine ⟨hguard, (item.on.write dialect start).1, (item.on.write dialect start).2,
      Conditions.compile_eq_ok.mpr ⟨item.on, hp, rfl⟩, rfl, ?_⟩
    rw [ne_eq, Conditions.write_eq_empty_iff hp, Bool.not_eq_true]

/-- A condition under a key with nothing inside passes as a filter, and everything is deleted. -/
theorem sql_delete_of_vacuous :
    let statement : Statement :=
      { activity := .delete, table := some ⟨"users", none⟩,
        conditions := Conditions.empty.nested "a" .empty }
    statement.conditions.isEmpty = false ∧ Scope.vacuous {} statement.conditions.entries = true
      ∧ ∃ query, statement.deleteQuery = .ok query
        ∧ (query.prepare .mysql).sql = "DELETE FROM \x60users\x60" := by
  intro statement
  have hquery : statement.deleteQuery = .ok (.delete ⟨["users"]⟩ ⟨[]⟩) := rfl
  have hcompile : statement.conditions.compile .mysql {} .empty = .ok ("", .empty) := rfl
  have hvacuous := (restricts_iff_not_vacuous .mysql).1 _ _ _ _ _ hcompile
  exact ⟨((restricts_iff_not_vacuous .mysql).2.1 _ _ hquery).1, by simpa using hvacuous,
    _, hquery, rfl⟩

end RelQuery
