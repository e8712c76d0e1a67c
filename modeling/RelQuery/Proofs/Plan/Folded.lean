import RelQuery.Proofs.Plan.Lossless
import RelQuery.Proofs.Value.Row

/-!
# What folded rows hold

A driver may leave out columns that were asked for, or return others under their names, and one
relation may even take the columns of another one away.  Whatever a row is like, a joined relation
is folded into null or into an object that has all of its columns, and this goes for the relations
nested in it as well.  So a column of a joined relation can be read from whatever object stands at
the end of the relation's path.

* `Node.Carried` is an object that has the columns of a joined relation.
* **`Row.allCarried_fold`** — folding makes such objects of every row.
* **`Deferred.exists_keys_of_carried`** — the keys that such objects have can be collected.
-/

namespace RelQuery

/-! ## Erased columns -/

namespace Row

variable {row : Row}

lemma Distinct.eraseAll (h : row.Distinct) (names : List String) :
    (row.eraseAll names).Distinct := by
  induction names generalizing row with
  | nil => exact h
  | cons name names ih => exact ih (h.erase name)

/-- The other columns stay in their order. -/
lemma Distinct.entries_eraseAll (h : row.Distinct) (names : List String) :
    (row.eraseAll names).entries = row.entries.filter fun entry => entry.1 ∉ names := by
  induction names generalizing row with
  | nil => exact (List.filter_true _).symm
  | cons name names ih =>
      have herase : (row.erase name).entries = row.entries.filter fun entry => entry.1 ≠ name :=
        eraseEntry_eq_filter h name
      show ((row.erase name).eraseAll names).entries = _
      rw [ih (h.erase name), herase, List.filter_filter]
      refine List.filter_congr fun entry _ => ?_
      simp [not_or, Bool.and_comm]

/-- Erased columns are gone, and the others stay. -/
lemma Distinct.get?_eraseAll_eq_or (h : row.Distinct) (names : List String) (name : String) :
    (row.eraseAll names).get? name = row.get? name ∨ (row.eraseAll names).get? name = none := by
  induction names generalizing row with
  | nil => exact .inl rfl
  | cons other names ih =>
      have hrest := ih (h.erase other)
      by_cases heq : name = other
      · rw [heq, h.get?_erase, or_self] at hrest
        exact .inr (heq ▸ hrest)
      · rwa [get?_erase_of_ne heq] at hrest

end Row

/-! ## Objects with the columns of a relation -/

namespace Node

/-- An object that has the columns of a joined relation.  Where the relations nested in it are
objects, these have theirs. -/
inductive Carried : Node → Row → Prop
  | intro {node : Node} {object : Row}
      (columns : ∀ column ∈ node.columns, (object.get? column).isSome)
      (children : ∀ child ∈ node.children, ∀ members,
        object.get? child.aliasName = some (.obj members) → Carried child ⟨members⟩) :
      Carried node object

/-- A row in which the objects of joined relations have their columns. -/
def AllCarried (nodes : List Node) (row : Row) : Prop :=
  ∀ node ∈ nodes, ∀ members, row.get? node.aliasName = some (.obj members) →
    Carried node ⟨members⟩

/-- What stands at the end of the path of a joined relation has its columns. -/
lemma AllCarried.carried_of_ownerAt {nodes : List Node} {path : List String} {node : Node}
    (hat : At nodes path node) {row owner : Row} (h : AllCarried nodes row)
    (howner : Deferred.ownerAt row path = some owner) : Carried node owner := by
  induction hat generalizing row with
  | here hnode =>
      rw [Deferred.ownerAt] at howner
      split at howner
      · next members hget => exact Option.some.inj howner ▸ h _ hnode members hget
      · cases howner
  | under hnode hinner ih =>
      rw [Deferred.ownerAt] at howner
      split at howner
      · next members hget =>
          obtain ⟨-, hchildren⟩ := h _ hnode members hget
          exact ih hchildren howner
      · cases howner

/-! ## Extraction -/

lemma isSome_get?_extractColumns {aliasName name : String} (columns : List String)
    (row object : Row) (found : Bool) (h : name ∈ columns ∨ (object.get? name).isSome) :
    ((extractColumns aliasName columns row object found).2.1.get? name).isSome := by
  induction columns generalizing row object found with
  | nil => exact h.resolve_left List.not_mem_nil
  | cons column columns ih =>
      refine ih _ _ _ ?_
      rw [Row.get?_insert]
      by_cases heq : name = column
      · exact .inr (by rw [if_pos heq]; rfl)
      · rw [if_neg heq]
        exact h.imp_left fun hmem => (List.mem_cons.mp hmem).resolve_left heq

lemma isSome_get?_extractAll {name : String} (nodes : List Node) (object row : Row)
    (h : (object.get? name).isSome) : ((extractAll nodes object row).1.get? name).isSome := by
  induction nodes generalizing object row with
  | nil => exact h
  | cons node nodes ih =>
      refine ih _ _ ?_
      rw [Row.get?_insert]
      split
      · rfl
      · exact h

lemma get?_extractAll_of_not_mem {name : String} {nodes : List Node}
    (h : name ∉ nodes.map Node.aliasName) (object row : Row) :
    (extractAll nodes object row).1.get? name = object.get? name := by
  induction nodes generalizing object row with
  | nil => rfl
  | cons node nodes ih =>
      refine (ih (List.not_mem_of_not_mem_cons h) _ _).trans ?_
      rw [Row.get?_insert, if_neg (List.ne_of_not_mem_cons h)]

lemma Apart.tail {node : Node} {nodes : List Node} (h : Apart (node :: nodes)) :
    node.aliasName ∉ nodes.map Node.aliasName ∧ Apart node.children ∧ Apart nodes := by
  obtain ⟨hnodup, hchildren⟩ := h
  obtain ⟨hfirst, hrest⟩ := List.nodup_cons.mp hnodup
  obtain ⟨hnode, hnodes⟩ := List.forall_mem_cons.mp hchildren
  exact ⟨hfirst, hnode, hrest, hnodes⟩

mutual

/-- An object that was taken out of a row has the columns of its relation. -/
lemma carried_extract : (node : Node) → Apart node.children → ∀ row members,
    (extract node row).1 = .obj members → Carried node ⟨members⟩
  | ⟨aliasName, columns, children⟩, hapart, row, members, h => by
      let own := extractColumns aliasName columns row .empty false
      have hobject : (extractAll children own.2.1 own.1).1 = ⟨members⟩ := by
        change (if own.2.2 then (extractAll children own.2.1 own.1).1.toValue else .null)
          = .obj members at h
        split at h
        · exact congrArg Row.mk (Value.obj.inj h)
        · cases h
      rw [← hobject]
      exact ⟨fun column hcolumn => isSome_get?_extractAll _ _ _
          (isSome_get?_extractColumns _ _ _ _ (.inl hcolumn)),
        allCarried_extractAll children hapart own.2.1 own.1⟩

lemma allCarried_extractAll : (nodes : List Node) → Apart nodes → ∀ object row,
    AllCarried nodes (extractAll nodes object row).1
  | [], _, _, _ => fun _ hnode => absurd hnode List.not_mem_nil
  | node :: nodes, hapart, object, row => by
      obtain ⟨hfree, hchildren, hnodes⟩ := hapart.tail
      refine List.forall_mem_cons.mpr ⟨fun members hget => ?_,
        allCarried_extractAll nodes hnodes _ _⟩
      have hvalue := (get?_extractAll_of_not_mem hfree
        (object.insert node.aliasName (extract node row).1) (extract node row).2).symm.trans hget
      rw [Row.get?_insert, if_pos rfl, Option.some.injEq] at hvalue
      exact carried_extract node hchildren row members hvalue

end

end Node

/-! ## Folded rows -/

namespace Row

variable {nodes : List Node} {row : Row}

/-- Folding leaves a column alone that is no alias, or takes it away. -/
lemma Distinct.get?_fold_eq_or (h : row.Distinct) {name : String}
    (hname : name ∉ nodes.map Node.aliasName) :
    (Row.fold nodes row).get? name = row.get? name ∨ (Row.fold nodes row).get? name = none := by
  induction nodes generalizing row with
  | nil => exact .inl rfl
  | cons node nodes ih =>
      rw [fold_cons]
      have hrest := ih ((h.eraseAll node.names).insert node.aliasName (node.extract row).1)
        (List.not_mem_of_not_mem_cons hname)
      rw [get?_insert, if_neg (List.ne_of_not_mem_cons hname)] at hrest
      rcases h.get?_eraseAll_eq_or node.names name with hsame | hgone
      · rwa [hsame] at hrest
      · exact .inr (hrest.elim (·.trans hgone) id)

/-- **Whatever a row is like, its joined relations are folded into objects that have their
columns**, or into null. -/
theorem allCarried_fold (hapart : Node.Apart nodes) (h : row.Distinct) :
    Node.AllCarried nodes (Row.fold nodes row) := by
  induction nodes generalizing row with
  | nil => exact fun _ hnode => absurd hnode List.not_mem_nil
  | cons node nodes ih =>
      obtain ⟨hfree, hchildren, hnodes⟩ := hapart.tail
      have hnext := (h.eraseAll node.names).insert node.aliasName (node.extract row).1
      rw [fold_cons]
      refine List.forall_mem_cons.mpr ⟨fun members hget => ?_, ih hnodes hnext⟩
      -- a later relation may have taken the object away, but it puts nothing in its place
      rcases hnext.get?_fold_eq_or hfree with hkept | hgone
      · rw [hget, get?_insert, if_pos rfl, Option.some.injEq] at hkept
        exact Node.carried_extract node hchildren row members hkept.symm
      · rw [hgone] at hget
        cases hget

end Row

/-! ## Keys -/

namespace Deferred

variable {deferred : Deferred}

/-- The keys are collected if every owner has the column. -/
lemma exists_keysFrom {rows : List Row} (seen : List String)
    (h : ∀ row ∈ rows, ∀ owner, ownerAt row deferred.path = some owner →
      (owner.get? deferred.parentKey).isSome) :
    ∃ keys, deferred.keysFrom seen rows = .ok keys := by
  induction rows generalizing seen with
  | nil => exact ⟨[], rfl⟩
  | cons row rows ih =>
      obtain ⟨hrow, hrows⟩ := List.forall_mem_cons.mp h
      rw [keysFrom]
      cases howner : ownerAt row deferred.path with
      | none => exact ih seen hrows
      | some owner =>
          obtain ⟨value, hvalue⟩ := Option.isSome_iff_exists.mp (hrow owner howner)
          have hrequire : owner.require deferred.parentKey deferred.relation.aliasName
              = .ok value := by rw [Row.require, hvalue]
          simp only [hrequire, bind_eq_ok, Except.ok.injEq, exists_eq_left']
          cases value.key? with
          | none => exact ih seen hrows
          | some key =>
              simp only
              split
              · exact ih seen hrows
              · obtain ⟨keys, hkeys⟩ := ih (key :: seen) hrows
                exact ⟨value :: keys, bind_eq_ok.mpr ⟨keys, hkeys, rfl⟩⟩

/-- **The key of a joined relation's columns can be collected from folded rows.** -/
theorem exists_keys_of_carried {nodes : List Node} {node : Node} (hapart : Node.Apart nodes)
    (hat : Node.At nodes deferred.path node) (hkey : deferred.parentKey ∈ node.columns)
    {rows : List Row} (hrows : ∀ row ∈ rows, row.Distinct) :
    ∃ keys, deferred.keys (rows.map (Row.fold nodes)) = .ok keys := by
  refine exists_keysFrom [] (List.forall_mem_map.mpr fun row hrow owner howner => ?_)
  obtain ⟨hcolumns, -⟩ :=
    (Row.allCarried_fold hapart (hrows row hrow)).carried_of_ownerAt hat howner
  exact hcolumns deferred.parentKey hkey

end Deferred

end RelQuery
