import RelQuery.Proofs.Condition.Compile
import RelQuery.Proofs.Condition.KeyOperator

/-!
# Lists as alternatives

A list under an operator other than `IN` is short for a nested condition: one clause for each value,
each without a key of its own, and the key of the list forced on all of them.  The two are compiled
along different ways.  The list reads its key once more for every value, in a scope that forces no
key; the nested condition is compiled entry by entry, in a scope that does.

* `Conditions.alternatives` is the nested condition.
* **`Scope.links_alternatives`** — its links are those of the list, nested lists included.
* **`Conditions.compile_compare_list`** — so list and nested condition compile alike, in every
  place: to the same text and the same parameters, or to the same error.
-/

namespace RelQuery

/-- Each of some values, as a clause without a key. -/
def Conditions.alternatives (op : Operator) (items : List Value) : Conditions :=
  items.foldl (fun c v => c.compare "" op (.ofValue v)) .empty

lemma Conditions.entries_alternatives (op : Operator) (items : List Value) :
    (alternatives op items).entries
      = items.map fun v => .clause "" (some op) (.ofValue v) := by
  have hpush : ∀ c : Conditions, (items.foldl (fun c v => c.compare "" op (.ofValue v)) c).entries
      = c.entries ++ items.map fun v => .clause "" (some op) (.ofValue v) := by
    induction items with
    | nil => exact fun c => (List.append_nil _).symm
    | cons v items ih =>
        intro c
        rw [List.foldl_cons, ih, List.map_cons]
        simp [compare, push]
  exact hpush .empty

namespace Scope

variable {scope : Scope} {op : Operator} {field : String}

/-- Below a forced key, a clause without a key is about that key. -/
lemma resolveKey_forced (scope : Scope) (field : String) (op : Operator) :
    (scope.forced field).resolveKey "" (some op) = (field, some op) := rfl

/-- **One value compiles alike** as a clause below the forced key and as an alternative of the list,
whatever lists are in it. -/
lemma clause_forced (hop : op ≠ .within) (hfield : (Operator.splitKey field).1 = field)
    (v : Value) :
    (scope.forced field).clause "" (some op) (.ofValue v)
      = scope.grouped.alternative op field v := by
  by_cases hlist : ∃ items, v = .arr items
  · obtain ⟨items, rfl⟩ := hlist
    have hlists : (scope.forced field).listsValues "" (some op) = false := by
      rw [listsValues, resolveKey_forced]
      exact decide_eq_false hop
    rw [alternative_list, hfield]
    show (scope.forced field).clause "" (some op) (.list items) = _
    rw [clause_list, hlists, resolveKey_forced]
    rfl
  · have hsingle : ∀ items, v ≠ .arr items := fun items heq => hlist ⟨items, heq⟩
    have hscalar : Operand.ofValue v = .scalar v := by
      cases v with
      | arr items => exact absurd rfl (hsingle items)
      | null | bool | num | str | obj => rfl
    rw [alternative_single hsingle, hscalar, clause_scalar, resolveKey_forced, hfield]
    rfl

/-- **The clauses below the forced key are the alternatives of the list.** -/
theorem links_alternatives (hop : op ≠ .within) (hfield : (Operator.splitKey field).1 = field)
    (items : List Value) :
    (scope.forced field).links none (Conditions.alternatives op items).entries
      = scope.grouped.alternatives op field items := by
  rw [Conditions.entries_alternatives]
  induction items with
  | nil => rfl
  | cons v items ih =>
      rw [List.map_cons, links_clause, alternatives_cons, clause_forced hop hfield, ih]
      rfl

/-- A list of alternatives is a nested condition. -/
lemma clause_list_eq_nested {key : String} {identifier : Identifier}
    (hkey : Identifier.parse key = .ok identifier) (hforced : scope.forcedKey = none)
    (hjoined : Text.trim key ∉ scope.joined) (hop : op ≠ .within) (items : List Value) :
    scope.clause key (some op) (.list items)
      = scope.clause key none (.nested (Conditions.alternatives op items).entries) := by
  have hsplit : Operator.splitKey key = (Text.trim key, none) := Operator.splitKey_of_parse hkey
  have htrimmed : Identifier.parse (Text.trim key) = .ok identifier := by
    rw [Identifier.parse_eq_ok_iff, Text.trim_trim]
    exact (Identifier.parse_eq_ok_iff key identifier).mp hkey
  have hfield : (Operator.splitKey (Text.trim key)).1 = Text.trim key := by
    rw [Operator.splitKey_of_parse htrimmed, Text.trim_trim]
  have hresolve (op : Option Operator) : scope.resolveKey key op = (Text.trim key, op) := by
    rw [resolveKey, hforced, hsplit]
    cases op <;> rfl
  have houtside : scope.entersTable key = false := by
    rw [entersTable, Bool.and_eq_false_iff]
    exact .inr (by simpa using hjoined)
  have hlists : scope.listsValues key (some op) = false := by
    rw [listsValues, hresolve]
    exact decide_eq_false hop
  have hchecked : scope.checkNested key none = .ok () := by
    rw [checkNested, hresolve]
    simp
  have hinside : scope.inside key none = scope.forced (Text.trim key) := by
    rw [inside, houtside, hresolve]
    rfl
  rw [clause_list, hlists, clause_nested, hchecked, hinside, links_alternatives hop hfield,
    hresolve]
  rfl

end Scope

namespace Conditions

/-- **A list under an operator other than `IN` compiles as the nested condition that it stands
for**, behind any other entries: to the same text and bindings, or to the same error. -/
theorem compile_compare_list {scope : Scope} {key : String} {identifier : Identifier}
    {op : Operator} (hkey : Identifier.parse key = .ok identifier)
    (hforced : scope.forcedKey = none) (hjoined : Text.trim key ∉ scope.joined)
    (hop : op ≠ .within) (c : Conditions) (items : List Value) (dialect : Dialect)
    (start : Bindings) :
    (c.compare key op (.list items)).compile dialect scope start
      = (c.nested key (alternatives op items)).compile dialect scope start := by
  have hlinks : scope.links none (c.compare key op (.list items)).entries
      = scope.links none (c.nested key (alternatives op items)).entries := by
    show scope.links none (c.entries ++ [_]) = scope.links none (c.entries ++ [_])
    rw [Scope.links_append, Scope.links_append, Scope.links_clause, Scope.links_clause,
      Scope.clause_list_eq_nested hkey hforced hjoined hop]
  rw [compile, compile, predicate, predicate, hlinks]

/-- Names like some text, with a list in the list, behind another clause. -/
theorem compile_compare_list_of_names :
    let c := empty.eq "id" (.scalar (.ofNat 1))
    let items := [.str "a", .arr [.str "b", .null]]
    let scope : Scope := { joined := ["t"] }
    Identifier.parse "t.name" = .ok ⟨["t", "name"]⟩ ∧ scope.forcedKey = none
      ∧ Text.trim "t.name" ∉ scope.joined ∧ Operator.like ≠ .within
      ∧ ∃ sql bindings,
        (c.compare "t.name" .like (.list items)).compile .mysql scope .empty = .ok (sql, bindings)
        ∧ (c.nested "t.name" (alternatives .like items)).compile .mysql scope .empty
          = .ok (sql, bindings)
        ∧ bindings.values = [.ofNat 1, .str "a", .str "b"] := by
  intro c items scope
  have hkey : Identifier.parse "t.name" = .ok ⟨["t", "name"]⟩ := rfl
  have hforced : scope.forcedKey = none := rfl
  have hjoined : Text.trim "t.name" ∉ scope.joined := by decide
  have hop : Operator.like ≠ .within := by decide
  obtain ⟨sql, bindings, hlist, hvalues⟩ : ∃ sql bindings,
      (c.compare "t.name" .like (.list items)).compile .mysql scope .empty = .ok (sql, bindings)
      ∧ bindings.values = [.ofNat 1, .str "a", .str "b"] := ⟨_, _, rfl, rfl⟩
  refine ⟨hkey, hforced, hjoined, hop, sql, bindings, hlist, ?_, hvalues⟩
  rw [← compile_compare_list hkey hforced hjoined hop c items .mysql .empty, hlist]

end Conditions

end RelQuery
