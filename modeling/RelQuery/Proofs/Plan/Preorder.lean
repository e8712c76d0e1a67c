import RelQuery.Proofs.Plan.Joins

/-!
# The order of joins

A join refers to the table that it starts from, so it has to stand behind the join of that table.
The joins of a plan stand in the order in which a walk through the relations comes across them, each
parent before its children, and each is joined to its parent by the name the parent has in the
select.  Inferred keys come from the names of the tables instead.

* `Relation.ReachedAt` says where in a forest a relation to one row stands that is joined, and which
  table it starts from.
* `Join.Matches` says what the join of a relation without conditions of its own is.
* **`Relation.reachedAt_iff`** — a walk through the forest comes across all relations to be joined.
* **`Relation.sorted_reachedOfAll`** — it comes across each of them once, in the order of positions.
* **`Plan.joins_preorder`** — the joins of a plan are those of the relations on the way.
-/

namespace RelQuery

open Session

variable {σ : Type}

/-! ## Positions -/

namespace Relation

/-- A relation to one row among the relations of a table, where only relations to one row lead from
the table to it.  Its position says which relation to take at each level, and its parent is the
table that the last one starts from, under its name in the select. -/
inductive ReachedAt : TableRef → List Relation → List Nat → TableRef → Link → Prop
  | here {table : TableRef} {relations : List Relation} {i : Nat} {link : Link}
      {nested : List Relation} (h : relations[i]? = some ⟨link, nested⟩)
      (hone : link.mode.isToOne = true) : ReachedAt table relations [i] table link
  | under {table parent : TableRef} {relations : List Relation} {i : Nat} {position : List Nat}
      {above link : Link} {nested : List Relation} (h : relations[i]? = some ⟨above, nested⟩)
      (hone : above.mode.isToOne = true)
      (hinner : ReachedAt ⟨above.table, some above.aliasName⟩ nested position parent link) :
      ReachedAt table relations (i :: position) parent link

/-- The parent of a relation is the table that all start from, or the one of the relation above. -/
lemma ReachedAt.parent_eq {table parent : TableRef} {relations : List Relation}
    {position : List Nat} {link : Link} (h : ReachedAt table relations position parent link) :
    (position.length = 1 ∧ parent = table) ∨ (1 < position.length ∧ ∃ grandparent above,
      ReachedAt table relations position.dropLast grandparent above
        ∧ parent = ⟨above.table, some above.aliasName⟩) := by
  induction h with
  | here _ _ => exact .inl ⟨rfl, rfl⟩
  | @under table parent relations i position above link nested h hone _ ih =>
      refine .inr ?_
      rcases ih with ⟨hlength, rfl⟩ | ⟨hlength, grandparent, lower, hinner, rfl⟩
      · obtain ⟨j, rfl⟩ := List.length_eq_one_iff.mp hlength
        exact ⟨by simp, table, above, .here h hone, rfl⟩
      · have hne : position ≠ [] := by
          rintro rfl
          simp at hlength
        refine ⟨by rw [List.length_cons]; omega, grandparent, lower, ?_, rfl⟩
        rw [List.dropLast_cons_of_ne_nil hne]
        exact .under h hone hinner

/-- What stands above comes first. -/
lemma dropLast_lt {position : List Nat} (h : position ≠ []) : position.dropLast < position := by
  induction position with
  | nil => exact absurd rfl h
  | cons i position ih =>
      cases position with
      | nil => exact List.nil_lt_cons _ _
      | cons j position =>
          rw [List.dropLast_cons_of_ne_nil (List.cons_ne_nil j position)]
          exact List.cons_lt_cons_self.mpr (ih (List.cons_ne_nil j position))

/-! ## The walk -/

/-- A relation that a walk comes across. -/
structure Reached where
  position : List Nat
  parent : TableRef
  link : Link

def Reached.under (i : Nat) (reached : Reached) : Reached :=
  { reached with position := i :: reached.position }

def Reached.join (naming : Naming) (reached : Reached) : Join :=
  reached.link.join (reached.link.namingOr naming) reached.parent.reference reached.parent.name

mutual

/-- What a walk through a relation comes across that is joined, parents first. -/
def reached (parent : TableRef) (i : Nat) : Relation → List Reached
  | ⟨link, nested⟩ =>
    if link.mode.isToOne then
      ⟨[i], parent, link⟩
        :: (reachedOfAll ⟨link.table, some link.aliasName⟩ 0 nested).map (Reached.under i)
    else []

/-- What a walk through some relations comes across, of which the first one is at position `i`. -/
def reachedOfAll (parent : TableRef) (i : Nat) : List Relation → List Reached
  | [] => []
  | relation :: relations => reached parent i relation ++ reachedOfAll parent (i + 1) relations

end

lemma mem_reached {parent : TableRef} {i : Nat} {link : Link} {nested : List Relation}
    {r : Reached} : r ∈ reached parent i ⟨link, nested⟩ ↔ link.mode.isToOne = true
      ∧ (r = ⟨[i], parent, link⟩ ∨ ∃ inner ∈
          reachedOfAll ⟨link.table, some link.aliasName⟩ 0 nested, inner.under i = r) := by
  rw [reached]
  split
  · next hone => rw [List.mem_cons, List.mem_map, and_iff_right hone]
  · next hmany => simp [hmany]

lemma mem_reachedOfAll {parent : TableRef} {i : Nat} {relations : List Relation} {r : Reached} :
    r ∈ reachedOfAll parent i relations ↔
      ∃ j relation, relations[j]? = some relation ∧ r ∈ reached parent (i + j) relation := by
  induction relations generalizing i with
  | nil => simp [reachedOfAll]
  | cons relation relations ih =>
      rw [reachedOfAll, List.mem_append, ih]
      constructor
      · rintro (hfirst | ⟨j, other, hother, hmem⟩)
        · exact ⟨0, relation, rfl, hfirst⟩
        · exact ⟨j + 1, other, hother, by rwa [Nat.add_comm j, ← Nat.add_assoc]⟩
      · rintro ⟨_ | j, other, hother, hmem⟩
        · cases hother
          exact .inl hmem
        · exact .inr ⟨j, other, hother, by rwa [Nat.add_assoc, Nat.add_comm 1]⟩

mutual

lemma reachedAt_of_mem_reached {parent : TableRef} {relations : List Relation} {i : Nat}
    {r : Reached} : (relation : Relation) → relations[i]? = some relation →
    r ∈ reached parent i relation → ReachedAt parent relations r.position r.parent r.link
  | ⟨link, nested⟩, h, hmem => by
      obtain ⟨hone, rfl | ⟨inner, hinner, rfl⟩⟩ := mem_reached.mp hmem
      · exact .here h hone
      · exact .under h hone (reachedAt_of_mem [] nested hinner)

lemma reachedAt_of_mem {parent : TableRef} (before : List Relation) {r : Reached} :
    (relations : List Relation) → r ∈ reachedOfAll parent before.length relations →
    ReachedAt parent (before ++ relations) r.position r.parent r.link
  | [], hmem => absurd hmem List.not_mem_nil
  | relation :: relations, hmem => by
      rw [reachedOfAll] at hmem
      rcases List.mem_append.mp hmem with hfirst | hrest
      · exact reachedAt_of_mem_reached relation (by simp) hfirst
      · have hlater := reachedAt_of_mem (before ++ [relation]) relations (by simpa using hrest)
        rwa [List.append_assoc] at hlater

end

/-- **A walk through the forest comes across all relations that are joined**, and no others. -/
theorem reachedAt_iff {table : TableRef} {relations : List Relation} {r : Reached} :
    ReachedAt table relations r.position r.parent r.link ↔ r ∈ reachedOfAll table 0 relations := by
  refine ⟨fun h => ?_, reachedAt_of_mem [] relations⟩
  obtain ⟨position, parent, link⟩ := r
  dsimp only at h
  induction h with
  | here h hone =>
      refine mem_reachedOfAll.mpr ⟨_, _, h, mem_reached.mpr ⟨hone, .inl ?_⟩⟩
      rw [Nat.zero_add]
  | under h hone _ ih =>
      refine mem_reachedOfAll.mpr ⟨_, _, h, mem_reached.mpr ⟨hone, .inr ⟨_, ih, ?_⟩⟩⟩
      rw [Nat.zero_add]
      rfl

/-! ## The order -/

lemma exists_position_of_mem_reached {parent : TableRef} {i : Nat} {relation : Relation}
    {r : Reached} (h : r ∈ reached parent i relation) : ∃ rest, r.position = i :: rest := by
  obtain ⟨link, nested⟩ := relation
  obtain ⟨-, rfl | ⟨inner, -, rfl⟩⟩ := mem_reached.mp h
  · exact ⟨[], rfl⟩
  · exact ⟨inner.position, rfl⟩

lemma exists_position_of_mem_reachedOfAll {parent : TableRef} {i : Nat} {relations : List Relation}
    {r : Reached} (h : r ∈ reachedOfAll parent i relations) :
    ∃ j rest, i ≤ j ∧ r.position = j :: rest := by
  obtain ⟨j, relation, -, hmem⟩ := mem_reachedOfAll.mp h
  obtain ⟨rest, hrest⟩ := exists_position_of_mem_reached hmem
  exact ⟨i + j, rest, Nat.le_add_right i j, hrest⟩

mutual

lemma sorted_reached (parent : TableRef) (i : Nat) : (relation : Relation) →
    (reached parent i relation).Pairwise fun r r' => r.position < r'.position
  | ⟨link, nested⟩ => by
      rw [reached]
      split
      · refine List.pairwise_cons.mpr ⟨fun r hr => ?_, List.pairwise_map.mpr ?_⟩
        · obtain ⟨inner, hinner, rfl⟩ := List.mem_map.mp hr
          obtain ⟨j, rest, -, hposition⟩ := exists_position_of_mem_reachedOfAll hinner
          show [i] < i :: inner.position
          rw [hposition]
          exact List.cons_lt_cons_self.mpr (List.nil_lt_cons _ _)
        · exact (sorted_reachedOfAll _ 0 nested).imp fun h => List.cons_lt_cons_self.mpr h
      · exact .nil

/-- **A walk comes across each relation once, in the order of positions.** -/
theorem sorted_reachedOfAll (parent : TableRef) (i : Nat) : (relations : List Relation) →
    (reachedOfAll parent i relations).Pairwise fun r r' => r.position < r'.position
  | [] => .nil
  | relation :: relations => by
      rw [reachedOfAll]
      refine List.pairwise_append.mpr ⟨sorted_reached parent i relation,
        sorted_reachedOfAll parent (i + 1) relations, fun r hr r' hr' => ?_⟩
      obtain ⟨rest, hposition⟩ := exists_position_of_mem_reached hr
      obtain ⟨j, rest', hlater, hposition'⟩ := exists_position_of_mem_reachedOfAll hr'
      rw [hposition, hposition']
      exact List.Lex.rel (Nat.lt_of_succ_le hlater)

end

/-- What stands at a smaller position comes first in the walk. -/
lemma lt_of_position_lt {parent : TableRef} {relations : List Relation} {i j : Nat}
    {r r' : Reached} (hr : (reachedOfAll parent 0 relations)[i]? = some r)
    (hr' : (reachedOfAll parent 0 relations)[j]? = some r') (h : r'.position < r.position) :
    j < i := by
  obtain ⟨hi, rfl⟩ := List.getElem?_eq_some_iff.mp hr
  obtain ⟨hj, rfl⟩ := List.getElem?_eq_some_iff.mp hr'
  rcases Nat.lt_trichotomy i j with hlater | rfl | hfirst
  · have hsorted := List.pairwise_iff_getElem.mp (sorted_reachedOfAll parent 0 relations)
    exact absurd h (lt_asymm (hsorted i j hi hj hlater))
  · exact absurd h (lt_irrefl _)
  · exact hfirst

/-! ## Joins -/

mutual

lemma joins_eq_map (naming : Naming) (parent : TableRef) (i : Nat) : (relation : Relation) →
    relation.joins naming parent.reference parent.name
      = (reached parent i relation).map (Reached.join naming)
  | ⟨link, nested⟩ => by
      rw [joins, reached]
      split
      · rw [List.map_cons, List.map_map]
        exact congrArg _ (joinsOfAll_eq_map naming ⟨link.table, some link.aliasName⟩ 0 nested)
      · rfl

lemma joinsOfAll_eq_map (naming : Naming) (parent : TableRef) (i : Nat) :
    (relations : List Relation) → joinsOfAll naming parent.reference parent.name relations
      = (reachedOfAll parent i relations).map (Reached.join naming)
  | [] => rfl
  | relation :: relations => by
      rw [joinsOfAll, reachedOfAll, List.map_append, joins_eq_map naming parent i relation,
        joinsOfAll_eq_map naming parent (i + 1) relations]

end

end Relation

/-- The join of a relation without conditions of its own, for its parent.  One column belongs to
each of the two.  The referenced one is `id` unless another is declared; the referencing one is
inferred, unless it is declared, from the table that it references, whatever name that has in the
select. -/
structure Join.Matches (naming : Naming) (parent : TableRef) (link : Link) (join : Join) :
    Prop where
  table : join.table = link.table
  aliasName : join.aliasName = link.aliasName
  kind : join.kind = link.joinKind
  /-- The child references its parent. -/
  hasOne : link.mode = .hasOne → join.on.entries =
    [.clause
      (link.aliasName ++ "."
        ++ link.foreignKey.getD ((link.naming.getD naming).foreignKey parent.name)) none
      (.column (parent.reference ++ "." ++ link.bindingKey.getD "id"))]
  /-- The parent references its child. -/
  belongsTo : link.mode = .belongsTo → join.on.entries =
    [.clause (link.aliasName ++ "." ++ link.bindingKey.getD "id") none
      (.column (parent.reference ++ "."
        ++ link.foreignKey.getD ((link.naming.getD naming).foreignKey link.table)))]

lemma Relation.Reached.matches_join (naming : Naming) {reached : Reached}
    (hconditions : reached.link.conditions = none)
    (hreplacement : reached.link.replacement = none) :
    (reached.join naming).Matches naming reached.parent reached.link := by
  have hon : (reached.join naming).on = Conditions.empty.extend
      (reached.link.inferredCondition (reached.link.namingOr naming) reached.parent.reference
        reached.parent.name) := by
    rw [Reached.join, Link.join, Join.restrict, Link.joinCondition, hreplacement, hconditions]
    dsimp only [Option.getD_none]
    rw [Conditions.extend_empty]
  refine ⟨rfl, rfl, rfl, fun hmode => ?_, fun hmode => ?_⟩ <;>
  · rw [hon, Link.inferredCondition, hmode]
    rfl

/-- **The joins of a plan stand in the order of a walk through the relations**, each of them once,
and each is joined to its parent: to the main table, or to the table of the join of the relation
above, which stands before it. -/
theorem Plan.joins_preorder {ctx : Context σ} {withFields : Bool} {relations : List Relation}
    {main : TableRef} {plan : Plan} {s t : Session σ}
    (h : Plan.ofRelations ctx withFields relations main s = (.ok plan, t))
    (hplain : ∀ position parent link, Relation.ReachedAt main relations position parent link →
      link.conditions = none ∧ link.replacement = none) :
    ∃ positions : List (List Nat), positions.Pairwise (· < ·)
      ∧ (∀ position, position ∈ positions ↔
          ∃ parent link, Relation.ReachedAt main relations position parent link)
      ∧ positions.length = plan.joins.length
      ∧ ∀ (i : Nat) (position : List Nat) (join : Join),
          positions[i]? = some position → plan.joins[i]? = some join →
          ∃ parent link, Relation.ReachedAt main relations position parent link
            ∧ join.Matches ctx.naming parent link
            ∧ ((position.length = 1 ∧ parent = main) ∨ ∃ j < i, ∃ above : Join,
                positions[j]? = some position.dropLast ∧ plan.joins[j]? = some above
                  ∧ parent = ⟨above.table, some above.aliasName⟩) := by
  have hjoins : plan.joins
      = (Relation.reachedOfAll main 0 relations).map (Relation.Reached.join ctx.naming) := by
    rw [← Relation.joinsOfAll_eq_map ctx.naming main 0 relations]
    exact Relation.makes_joins_expandAll ctx withFields _ _ [] relations s plan t h
  have hsorted := Relation.sorted_reachedOfAll main 0 relations
  refine ⟨(Relation.reachedOfAll main 0 relations).map Relation.Reached.position,
    List.pairwise_map.mpr hsorted, fun position => ?_, by rw [hjoins]; simp, ?_⟩
  · rw [List.mem_map]
    constructor
    · rintro ⟨r, hr, rfl⟩
      exact ⟨r.parent, r.link, Relation.reachedAt_iff.mpr hr⟩
    · rintro ⟨parent, link, hreached⟩
      exact ⟨⟨position, parent, link⟩, Relation.reachedAt_iff.mp hreached, rfl⟩
  · intro i position join hposition hjoin
    rw [List.getElem?_map, Option.map_eq_some_iff] at hposition
    obtain ⟨r, hr, rfl⟩ := hposition
    rw [hjoins, List.getElem?_map, hr] at hjoin
    obtain rfl : r.join ctx.naming = join := Option.some.inj hjoin
    have hreached := Relation.reachedAt_iff.mpr (List.mem_of_getElem? hr)
    obtain ⟨hconditions, hreplacement⟩ := hplain _ _ _ hreached
    refine ⟨r.parent, r.link, hreached, r.matches_join ctx.naming hconditions hreplacement, ?_⟩
    refine hreached.parent_eq.imp_right ?_
    rintro ⟨hlength, grandparent, above, habove, hparent⟩
    have hmem : (⟨r.position.dropLast, grandparent, above⟩ : Relation.Reached)
        ∈ Relation.reachedOfAll main 0 relations := Relation.reachedAt_iff.mp habove
    obtain ⟨j, hj⟩ := List.getElem?_of_mem hmem
    refine ⟨j, ?_, _, by rw [List.getElem?_map, hj]; rfl,
      by rw [hjoins, List.getElem?_map, hj]; rfl, hparent⟩
    exact Relation.lt_of_position_lt hr hj
      (Relation.dropLast_lt (List.ne_nil_of_length_pos (Nat.zero_lt_of_lt hlength)))

/-! ## Users with a boss and a home -/

namespace Sample

/-- The posts of a user, the boss with a car, and the home by names as they stand. -/
def surroundings : List Relation :=
  [.ofTable .hasMany "posts",
    ⟨{ mode := .belongsTo, aliasName := "boss", table := "employees" }, [.ofTable .hasOne "cars"]⟩,
    ⟨{ mode := .hasOne, aliasName := "home", table := "houses",
       naming := some (.verbatim "_ref") }, []⟩]

end Sample

open Sample in
set_option maxRecDepth 20000 in
/-- The car is joined behind the boss, by the table of the boss and under the name of the boss. -/
theorem Plan.joins_preorder_of_boss :
    ∃ plan t, Plan.ofRelations ctx true surroundings ⟨"users", some "u"⟩ { connection := [] }
        = (.ok plan, t)
      ∧ plan.joins.map (fun join => join.on.entries)
        = [[.clause "boss.id" none (.column "u.employee_id")],
            [.clause "cars.employee_id" none (.column "boss.id")],
            [.clause "home.users_ref" none (.column "u.id")]]
      ∧ ∃ positions : List (List Nat), positions.Pairwise (· < ·)
        ∧ positions.length = plan.joins.length ∧ [1, 0] ∈ positions ∧ [0] ∉ positions := by
  obtain ⟨plan, t, hplan, hjoins⟩ : ∃ plan t,
      Plan.ofRelations ctx true surroundings ⟨"users", some "u"⟩ { connection := [] }
        = (.ok plan, t)
      ∧ plan.joins.map (fun join => join.on.entries)
        = [[.clause "boss.id" none (.column "u.employee_id")],
            [.clause "cars.employee_id" none (.column "boss.id")],
            [.clause "home.users_ref" none (.column "u.id")]] := ⟨_, _, rfl, rfl⟩
  have hplain : ∀ r ∈ Relation.reachedOfAll ⟨"users", some "u"⟩ 0 surroundings,
      r.link.conditions = none ∧ r.link.replacement = none := by
    simp [surroundings, Relation.reachedOfAll, Relation.reached, Relation.Reached.under,
      Relation.ofTable, Link.ofTable, RelationMode.isToOne]
  obtain ⟨positions, hsorted, hmem, hlength, -⟩ := joins_preorder hplan
    fun position parent link h => hplain ⟨position, parent, link⟩ (Relation.reachedAt_iff.mp h)
  refine ⟨plan, t, hplan, hjoins, positions, hsorted, hlength, ?_, fun hposts => ?_⟩
  · exact (hmem _).mpr ⟨_, _, .under rfl rfl (.here rfl rfl)⟩
  · obtain ⟨parent, link, h⟩ := (hmem _).mp hposts
    cases h with
    | here h hone =>
        cases h
        cases hone
    | under h _ hinner => cases hinner

end RelQuery
