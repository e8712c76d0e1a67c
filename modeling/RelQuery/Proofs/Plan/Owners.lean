import RelQuery.Plan.Loading
import RelQuery.Proofs.Plan.Folding
import RelQuery.Proofs.Plan.Layout

/-!
# Owners along paths

A relation is embedded in an object inside a row.  What an embedding changes is told by its place: a
lookup changes only if one of the two places lies on the way to the other.

* `Row.at?` looks a column up in the object at the end of a path.
* **`Deferred.at?_changeAt`** — a lookup apart from the place of a change is not changed.
* **`Row.at?_fold`** — in a folded row, a column of a joined relation is what stood under its
  prefixed name.
-/

namespace RelQuery

/-! ## Lookups -/

namespace Row

/-- The object under an alias. -/
def member? (row : Row) (aliasName : String) : Option Row :=
  match row.get? aliasName with
  | some (.obj members) => some ⟨members⟩
  | _ => none

/-- The value of a column of the object at the end of a path. -/
def at? (row : Row) (path : List String) (name : String) : Option Value :=
  (Deferred.ownerAt row path).bind (Row.get? · name)

lemma member?_eq_some {row object : Row} {aliasName : String} :
    row.member? aliasName = some object ↔ row.get? aliasName = some object.toValue := by
  rw [member?]
  split
  · next members hget =>
      rw [hget]
      constructor
      · intro h
        rw [← Option.some.inj h]
        rfl
      · intro h
        rw [Value.obj.inj (Option.some.inj h)]
  · next hget => exact iff_of_false (by simp) fun h => hget _ h

lemma member?_insert (row object : Row) (aliasName other : String) :
    (row.insert aliasName object.toValue).member? other =
      if other = aliasName then some object else row.member? other := by
  split
  · next h => rw [member?_eq_some, get?_insert, if_pos h]
  · next h => rw [member?, get?_insert, if_neg h, member?]

lemma at?_nil (row : Row) (name : String) : row.at? [] name = row.get? name := rfl

lemma at?_of_ownerAt {row owner : Row} {path : List String}
    (h : Deferred.ownerAt row path = some owner) (name : String) :
    row.at? path name = owner.get? name := by
  rw [at?, h]
  rfl

end Row

namespace Deferred

lemma ownerAt_cons (row : Row) (aliasName : String) (path : List String) :
    ownerAt row (aliasName :: path) = (row.member? aliasName).bind (ownerAt · path) := by
  rw [ownerAt, Row.member?]
  cases row.get? aliasName with
  | none => rfl
  | some value => cases value <;> rfl

lemma changeAt_cons (change : Row → Except Error Row) (aliasName : String) (path : List String)
    (row : Row) :
    changeAt change (aliasName :: path) row = match row.member? aliasName with
      | some object => (changeAt change path object).map fun o => row.insert aliasName o.toValue
      | none => .ok row := by
  rw [changeAt, Row.member?]
  cases row.get? aliasName with
  | none => rfl
  | some value =>
      cases value with
      | obj members => cases changeAt change path ⟨members⟩ <;> rfl
      | _ => rfl

end Deferred

lemma Row.at?_cons (row : Row) (aliasName : String) (path : List String) (name : String) :
    row.at? (aliasName :: path) name = (row.member? aliasName).bind (Row.at? · path name) := by
  rw [at?, Deferred.ownerAt_cons, Option.bind_assoc]
  rfl

/-! ## Changes -/

namespace Deferred

variable {change : Row → Except Error Row} {row row' : Row} {path : List String}

/-- A change changes the owner. -/
lemma exists_change_of_ownerAt {owner : Row} (howner : ownerAt row path = some owner)
    (h : changeAt change path row = .ok row') :
    ∃ owner', change owner = .ok owner' ∧ ownerAt row' path = some owner' := by
  induction path generalizing row row' with
  | nil =>
      cases howner
      exact ⟨row', h, rfl⟩
  | cons aliasName path ih =>
      rw [ownerAt_cons, Option.bind_eq_some_iff] at howner
      obtain ⟨object, hmember, howner⟩ := howner
      rw [changeAt_cons, hmember] at h
      obtain ⟨object', hobject, rfl⟩ := map_eq_ok.mp h
      obtain ⟨owner', hchange, howner'⟩ := ih howner hobject
      refine ⟨owner', hchange, ?_⟩
      rwa [ownerAt_cons, Row.member?_insert, if_pos rfl]

section Frame

variable {name : String}

/-- A change of one column moves no owner that is not under it. -/
lemma isSome_ownerAt_changeAt
    (hchange : ∀ owner owner', change owner = .ok owner' →
      ∀ other, other ≠ name → owner'.get? other = owner.get? other)
    (h : changeAt change path row = .ok row') {path' : List String}
    (hapart : ¬ path ++ [name] <+: path') :
    (ownerAt row' path').isSome = (ownerAt row path').isSome := by
  induction path generalizing row row' path' with
  | nil =>
      cases path' with
      | nil => rfl
      | cons other rest =>
          have hne : other ≠ name := by
            rintro rfl
            exact hapart (List.prefix_append [other] rest)
          rw [ownerAt_cons, ownerAt_cons, Row.member?, Row.member?, hchange _ _ h other hne]
  | cons aliasName path ih =>
      rw [changeAt_cons] at h
      cases hmember : row.member? aliasName with
      | none =>
          rw [hmember] at h
          cases h
          rfl
      | some object =>
          rw [hmember] at h
          obtain ⟨object', hobject, rfl⟩ := map_eq_ok.mp h
          cases path' with
          | nil => rfl
          | cons other rest =>
              rw [ownerAt_cons, ownerAt_cons, Row.member?_insert]
              split
              · next heq =>
                  subst heq
                  rw [hmember]
                  exact ih hobject fun hp => hapart ((List.prefix_cons_inj other).mpr hp)
              · rfl

/-- **A lookup apart from the place of a change is not changed.** -/
theorem at?_changeAt
    (hchange : ∀ owner owner', change owner = .ok owner' →
      ∀ other, other ≠ name → owner'.get? other = owner.get? other)
    (h : changeAt change path row = .ok row') {path' : List String} {name' : String}
    (hunder : ¬ path ++ [name] <+: path' ++ [name'])
    (hover : ¬ path' ++ [name'] <+: path ++ [name]) :
    row'.at? path' name' = row.at? path' name' := by
  induction path generalizing row row' path' with
  | nil =>
      cases path' with
      | nil =>
          refine hchange _ _ h name' ?_
          rintro rfl
          exact hunder List.prefix_rfl
      | cons other rest =>
          have hne : other ≠ name := by
            rintro rfl
            exact hunder (List.prefix_append [other] _)
          rw [Row.at?_cons, Row.at?_cons, Row.member?, Row.member?, hchange _ _ h other hne]
  | cons aliasName path ih =>
      rw [changeAt_cons] at h
      cases hmember : row.member? aliasName with
      | none =>
          rw [hmember] at h
          cases h
          rfl
      | some object =>
          rw [hmember] at h
          obtain ⟨object', hobject, rfl⟩ := map_eq_ok.mp h
          cases path' with
          | nil =>
              have hne : name' ≠ aliasName := by
                rintro rfl
                exact hover (List.prefix_append [name'] _)
              rw [Row.at?_nil, Row.get?_insert, if_neg hne, Row.at?_nil]
          | cons other rest =>
              rw [Row.at?_cons, Row.at?_cons, Row.member?_insert]
              split
              · next heq =>
                  subst heq
                  rw [hmember]
                  exact ih hobject (fun hp => hunder ((List.prefix_cons_inj other).mpr hp))
                    fun hp => hover ((List.prefix_cons_inj other).mpr hp)
              · rfl

end Frame

end Deferred

/-! ## Folded rows -/

/-- The column of a fetched row that becomes a column of the object at the end of a path. -/
def Plan.columnAt (path : List String) (column : String) : String :=
  match path.getLast? with
  | some aliasName => Plan.prefixed aliasName column
  | none => column

/-- An object that has joined relations under their aliases has their columns along the paths. -/
lemma Node.eq_read_of_at? {read : String → Value} {nodes : List Node} {object : Row}
    (hapart : Apart nodes)
    (hobject : ∀ node ∈ nodes, object.get? node.aliasName = some (node.value read))
    {path : List String} (hne : path ≠ []) (hleads : Leads nodes path) {column : String}
    (hfree : ¬ Leads nodes (path ++ [column])) {value : Value}
    (hat : object.at? path column = some value) :
    value = read (Plan.prefixed (path.getLast hne) column) := by
  induction path generalizing nodes object with
  | nil => exact absurd rfl hne
  | cons aliasName path ih =>
      obtain ⟨node, hmem, rfl, hrest⟩ := hleads
      have hfree : ¬ Leads node.children (path ++ [column]) :=
        fun h => hfree ⟨node, hmem, rfl, h⟩
      rw [Row.at?_cons, Option.bind_eq_some_iff] at hat
      obtain ⟨member, hmember, hat⟩ := hat
      rw [Row.member?_eq_some, hobject node hmem] at hmember
      have hmember := eq_putAll_of_value_eq (Option.some.inj hmember)
      have hchildren : Apart node.children := by
        obtain ⟨-, hchildren⟩ := hapart
        exact hchildren node hmem
      cases path with
      | nil =>
          have hnot : column ∉ node.children.map Node.aliasName := by
            intro hcolumn
            obtain ⟨child, hchild, rfl⟩ := List.mem_map.mp hcolumn
            exact hfree ⟨child, hchild, rfl, trivial⟩
          rw [Row.at?_nil, hmember, get?_putAll_of_not_mem hnot, get?_ownColumns] at hat
          split at hat
          · exact (Option.some.inj hat).symm
          · cases hat
      | cons next path =>
          rw [List.getLast_cons (List.cons_ne_nil next path)]
          obtain ⟨hnodup, -⟩ := id hchildren
          refine ih hchildren (fun child hchild => ?_) _ hrest hfree hat
          rw [hmember]
          exact get?_putAll_of_mem hnodup hchild _

/-- Names that folding does not mix up: no name is taken twice, and no joined relation is put under
a name that could be taken. -/
structure Plan.Tidy (plan : Plan) : Prop where
  names : (Node.namesOfAll plan.nodes).Nodup
  aliases : ∀ node ∈ plan.nodes, ¬ Plan.IsPrefixed node.aliasName

/-- **A column of a joined relation is what stood under its prefixed name.** -/
theorem Row.at?_fold {plan : Plan} (htidy : plan.Tidy) (hapart : Node.Apart plan.nodes)
    {path : List String} (hne : path ≠ []) (hleads : Node.Leads plan.nodes path) {column : String}
    (hfree : ¬ Node.Leads plan.nodes (path ++ [column])) {row : Row} {value : Value}
    (hat : (Row.fold plan.nodes row).at? path column = some value) :
    value = row.read (Plan.columnAt path column) := by
  have hkept : plan.nodes.Pairwise fun node later => node.aliasName ∉ later.names :=
    List.pairwise_of_forall_mem_list fun node hnode later _ hname =>
      htidy.aliases node hnode (Node.isPrefixed_of_mem_names later hname)
  have haliases : (plan.nodes.map Node.aliasName).Nodup := by
    obtain ⟨hnodup, -⟩ := id hapart
    exact hnodup
  rw [Plan.columnAt, List.getLast?_eq_some_getLast hne]
  exact Node.eq_read_of_at? hapart
    (fun node hnode => Row.get?_fold_of_mem htidy.names haliases hkept hnode row) hne hleads
    hfree hat

end RelQuery
