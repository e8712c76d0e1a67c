import RelQuery.Proofs.Condition.Places

/-!
# Which column is compared

The comparisons of a compiled condition are about the columns at their places, in its predicate and
in its text.

* **`Scope.columns_of_links`** — the comparisons of a compiled condition are about the columns at
  their places.
* **`Conditions.columns_of_compile`** — so are those in its text.
-/

namespace RelQuery

open Identifier

namespace Scope

/-! ## Compiled entries -/

variable {scope : Scope}

lemma Yields.column_eq {c : Comparison Slot} {origin : Origin} (h : scope.Yields c origin) :
    c.column = scope.columnAt origin.site := by
  obtain ⟨field, hfield, hc⟩ := h
  rw [Scope.columnOf_eq_ok (columnOf_of_compare hc), hfield]
  rfl

mutual

lemma map_site_operandOrigins (op : Option Operator) : (operand : Operand) → (site : Site) →
    (scope.operandOrigins site op operand).map Origin.site = scope.operandSites site op operand
  | .scalar _, _ => rfl
  | .column _, _ => rfl
  | .list items, site => by
      rw [operandOrigins, operandSites]
      split
      · rfl
      · rw [List.map_map, ← Value.length_leavesOfAll]
        exact List.map_const'
  | .nested entries, _ => map_site_origins entries _

/-- The places with counterparts are the places. -/
lemma map_site_origins : (entries : List Entry) → (path : List Enclosure) →
    (scope.origins path entries).map Origin.site = scope.sites path entries
  | [], _ => rfl
  | .connector _ :: entries, path => map_site_origins entries path
  | .clause key op operand :: entries, path => by
      rw [origins, sites, List.map_append, map_site_operandOrigins op operand,
        map_site_origins entries]
  | .group inner :: entries, path => by
      rw [origins, sites, List.map_append, map_site_origins inner, map_site_origins entries]

end

/-- **The comparisons of compiled entries are about the columns at their places**, in order. -/
theorem columns_of_links (entries : List Entry) (path : List Enclosure) (inner : Scope)
    (hstands : scope.Stands path inner) (current : Option Connector)
    (links : List (Connector × Term Slot)) (h : inner.links current entries = .ok links) :
    (Term.linkComparisons links).map Comparison.column
      = (scope.sites path entries).map scope.columnAt := by
  have hyields := yields_of_links entries path inner hstands current links h
  rw [← map_site_origins, List.map_map, ← List.forall₂_eq_eq_eq, List.forall₂_map_left_iff,
    List.forall₂_map_right_iff]
  exact hyields.imp fun c origin => Yields.column_eq

end Scope

/-! ## Compiled text -/

/-- Naming parameters leaves the columns as they are. -/
lemma Comparison.columns_mapM_bind (comparisons : List (Comparison Slot)) (start : Bindings) :
    (comparisons.mapM Comparison.bind start).1.map Comparison.column
      = comparisons.map Comparison.column := by
  have hbind : ∀ (c : Comparison Slot) start, (c.bind start).1.column = c.column := fun _ _ => rfl
  exact map_mapM hbind comparisons start

/-- **Each comparison in the text of a condition is about the column at its place.**  The column is
named by the key in force there, and by the key of the clause itself where none is, in both cases
without the operator, as long as that leaves a name.  If the name has no table, then it is a column
of the innermost joined table that was entered on the way, or else of the table of the scope, if
that has one. -/
theorem Conditions.columns_of_compile {c : Conditions} {dialect : Dialect} {scope : Scope}
    {start bindings : Bindings} {sql : String}
    (h : c.compile dialect scope start = .ok (sql, bindings)) :
    List.Forall₂ (fun text site => ∃ rest, text = (scope.columnAt site).text dialect ++ " " ++ rest)
      (Word.comparisonsIn dialect sql) (scope.sites [] c.entries)
    ∧ ∀ (site : Site) (name : String) (identifier : Identifier),
        (Operator.splitKey ((scope.forceAt site.path).getD site.key)).1 = name →
        Identifier.parse name = .ok identifier →
          scope.columnAt site = Scope.columnNamed (scope.tableAt site.path) name := by
  refine ⟨?_, fun _ _ _ => Scope.columnAt_eq_columnNamed⟩
  obtain ⟨p, hp, hwrite⟩ := compile_eq_ok.mp h
  have hcolumns := Scope.columns_of_links c.entries [] scope (.refl scope) none p.links
    (predicate_eq_ok.mp hp)
  rw [← Predicate.comparisons, ← Comparison.columns_mapM_bind p.comparisons start] at hcolumns
  have htexts := Predicate.comparisonsIn_write (sound_of_predicate hp) dialect start
  rw [hwrite] at htexts
  have hsites : List.Forall₂ (fun text column => ∃ rest, text = column.text dialect ++ " " ++ rest)
      (Word.comparisonsIn dialect sql) ((scope.sites [] c.entries).map scope.columnAt) := by
    rw [htexts, ← hcolumns, List.forall₂_map_left_iff, List.forall₂_map_right_iff,
      List.forall₂_same]
    intro comparison _
    exact ⟨comparison.op.sql ++ " " ++ comparison.side.text dialect, by
      rw [Comparison.text]
      simp only [String.append_assoc]⟩
  rwa [List.forall₂_map_right_iff] at hsites

/-- Users with posts and tags: the author is in force on the tags inside, up to the group. -/
theorem Conditions.columns_of_compile_author :
    let author := [Entry.clause "LIKE" none (.scalar (.str "A%")),
      .clause "tags" none (.nested [.clause "<" none (.scalar (.str "B"))]),
      .group [.clause "tags" none (.nested [.clause "id" none (.list [.ofNat 1])])]]
    let posts := [Entry.clause "title like" none (.list [.str "a", .str "b"]),
      .clause "author" none (.nested author), .clause "users.id !=" none (.column "reviewer")]
    let c : Conditions := ⟨[.clause "age>=" none (.scalar (.ofNat 18)),
      .clause "posts" none (.nested posts)]⟩
    let scope : Scope := { defaultTable := some "users", joined := ["posts", "tags"] }
    ∃ sql bindings, c.compile .mysql scope .empty = .ok (sql, bindings)
      ∧ (scope.sites [] c.entries).map scope.columnAt
        = [⟨["users", "age"]⟩, ⟨["posts", "title"]⟩, ⟨["posts", "title"]⟩, ⟨["posts", "author"]⟩,
          ⟨["posts", "author"]⟩, ⟨["tags", "id"]⟩, ⟨["users", "id"]⟩]
      ∧ List.Forall₂
        (fun text site => ∃ rest, text = (scope.columnAt site).text .mysql ++ " " ++ rest)
        (Word.comparisonsIn .mysql sql) (scope.sites [] c.entries) := by
  intro author posts c scope
  obtain ⟨sql, bindings, h⟩ : ∃ sql bindings,
      c.compile .mysql scope .empty = .ok (sql, bindings) := ⟨_, _, rfl⟩
  refine ⟨sql, bindings, h, ?_, (columns_of_compile h).1⟩
  decide +kernel

end RelQuery
