import RelQuery.Proofs.Plan.Folded
import RelQuery.Proofs.Plan.Joins

/-!
# The keys of deferred relations

A deferred relation reads a key of each of its owners, so the select has to ask for it.  A key of
the main table is added to the select list, unless a field covers it there.  A key of a joined
relation is added to the columns of that relation, where folding finds it.

* `Relation.Apart` says that siblings have different aliases, at every level.
* `Plan.Provides` says where the key of a deferred relation comes from.
* **`Plan.makes_provides_expandAll`** — every key of a plan with columns is provided.
* **`Statement.covered_of_mem_rootKeys`** — the keys of the main table are in the select list.
* **`Statement.selects_parentKey`** — so every key that a deferred relation reads is selected.
-/

namespace RelQuery

open Session

variable {σ : Type}

/-! ## Siblings -/

/-- Siblings have different aliases, at every level. -/
inductive Relation.Apart : List Relation → Prop
  | intro {relations : List Relation} (nodup : (relations.map Relation.aliasName).Nodup)
      (nested : ∀ relation ∈ relations, Apart relation.nested) : Apart relations

/-- Relations whose aliases differ are joined under aliases that differ. -/
lemma Plan.inductive_apart : Relation.Inductive
    (fun _ relation plan => Relation.Apart relation.nested → Node.Apart plan.nodes
      ∧ plan.nodes.map Node.aliasName ⊆ [relation.aliasName])
    (fun _ relations plan => Relation.Apart relations → Node.Apart plan.nodes
      ∧ plan.nodes.map Node.aliasName ⊆ relations.map Relation.aliasName) where
  joined path link nested join columns inner _ hinner hnested :=
    ⟨⟨List.nodup_singleton _, List.forall_mem_singleton.mpr (hinner hnested).1⟩,
      List.Subset.refl [link.aliasName]⟩
  postponed _ _ _ _ _ _ _ := ⟨⟨List.nodup_nil, by simp [Plan.postponed]⟩, List.nil_subset _⟩
  nil _ _ := ⟨⟨List.nodup_nil, by simp⟩, List.nil_subset _⟩
  cons path relation relations plan others hplan hothers := by
    rintro ⟨hnodup, hnested⟩
    obtain ⟨hfree, hrest⟩ := List.nodup_cons.mp hnodup
    obtain ⟨hfirst, hlater⟩ := List.forall_mem_cons.mp hnested
    obtain ⟨hapart, hunder⟩ := hplan hfirst
    obtain ⟨hapart', hunder'⟩ := hothers ⟨hrest, hlater⟩
    refine ⟨hapart.append hapart' fun name hname hname' => ?_, ?_⟩
    · rw [List.mem_singleton.mp (hunder hname)] at hname'
      exact hfree (hunder' hname')
    · rw [Plan.append, List.map_append]
      exact List.append_subset.mpr
        ⟨List.Subset.trans hunder (List.cons_subset_cons _ (List.nil_subset _)),
          List.Subset.trans hunder' (List.subset_cons_self _ _)⟩

/-! ## Keys of the main table -/

/-- The keys that are read from the rows themselves are among the keys of the main table. -/
lemma Plan.inductive_rootKeys : Relation.Inductive
    (fun _ _ plan => ∀ deferred ∈ plan.deferred, deferred.path = [] →
      deferred.parentKey ∈ plan.rootKeys)
    (fun _ _ plan => ∀ deferred ∈ plan.deferred, deferred.path = [] →
      deferred.parentKey ∈ plan.rootKeys) where
  joined _ _ _ _ _ _ _ hinner := hinner
  postponed path link nested naming parentTable _ := by
    intro deferred hdeferred hpath
    obtain rfl := List.mem_singleton.mp hdeferred
    rw [postponed, hpath]
    exact List.mem_singleton_self _
  nil _ := fun _ hdeferred => absurd hdeferred List.not_mem_nil
  cons path relation relations plan others hplan hothers := by
    intro deferred hdeferred hpath
    rw [append, List.mem_append, List.mem_filter]
    rcases List.mem_append.mp hdeferred with hmem | hmem
    · exact .inl (hplan deferred hmem hpath)
    · by_cases hseen : deferred.parentKey ∈ plan.rootKeys
      · exact .inl hseen
      · exact .inr ⟨hothers deferred hmem hpath, by simpa using hseen⟩

namespace Field

variable {table column : String} {fields : List Field}

lemma covers_column_iff {name : String} :
    (Field.column name).covers table column true = true ↔ name = column := by
  simp [covers, Field.column]

/-- A column that is added is covered, and no other column is that was not. -/
lemma anyCovers_ensure_iff {other : String} :
    anyCovers (ensure table fields other) table column = true
      ↔ anyCovers fields table column = true ∨ column = other := by
  rw [ensure]
  split
  · next hcovered => exact ⟨.inl, fun h => h.elim id fun heq => heq ▸ hcovered⟩
  · rw [anyCovers, List.any_append, Bool.or_eq_true, List.any_cons, List.any_nil, Bool.or_false,
      covers_column_iff, anyCovers, eq_comm (a := other)]

/-- The same for columns that are added one after the other. -/
lemma anyCovers_foldl_ensure_iff {columns : List String} :
    anyCovers (columns.foldl (ensure table) fields) table column = true
      ↔ anyCovers fields table column = true ∨ column ∈ columns := by
  induction columns generalizing fields with
  | nil => simp
  | cons other columns ih =>
      rw [List.foldl_cons, ih, anyCovers_ensure_iff, List.mem_cons, or_assoc]

end Field

/-- **The keys of the main table are in the select list**, each covered by one of the fields. -/
theorem Statement.covered_of_mem_rootKeys (statement : Statement) {plan : Plan} (frame : Frame)
    {key : String} (h : key ∈ plan.rootKeys) :
    ∃ field ∈ statement.selectFields plan frame, field.covers frame.main key true = true := by
  have hown : Field.anyCovers (if statement.fields.isEmpty then [Field.allOf frame.main]
      else plan.rootKeys.foldl (Field.ensure frame.main)
        (statement.fields.flatMap (statement.expandStar frame))) frame.main key = true := by
    split
    · simp [Field.anyCovers, Field.covers, Field.allOf]
    · exact Field.anyCovers_foldl_ensure_iff.mpr (.inr h)
  obtain ⟨field, hfield, hcovers⟩ := List.any_eq_true.mp hown
  exact ⟨field, List.mem_append_left _ hfield, hcovers⟩

/-! ## Keys of joined relations -/

namespace Plan

/-- The keys that nested relations read are added to the columns, and no column is left out. -/
lemma mem_foldl_keys (relations : List Relation) (columns : List String) :
    let keyed := relations.foldl (fun columns relation =>
      let key := relation.link.bindingKeyOrId
      if columns.contains key then columns else columns ++ [key]) columns
    columns ⊆ keyed ∧ ∀ relation ∈ relations, relation.link.bindingKeyOrId ∈ keyed := by
  induction relations generalizing columns with
  | nil => exact ⟨List.Subset.refl _, fun _ hmem => absurd hmem List.not_mem_nil⟩
  | cons relation relations ih =>
      set next := if columns.contains relation.link.bindingKeyOrId then columns
        else columns ++ [relation.link.bindingKeyOrId] with hnext
      have hstep : columns ⊆ next ∧ relation.link.bindingKeyOrId ∈ next := by
        rw [hnext]
        split
        · next hmem => exact ⟨List.Subset.refl _, by simpa using hmem⟩
        · exact ⟨List.subset_append_left _ _, by simp⟩
      obtain ⟨hsub, hkeys⟩ := ih next
      exact ⟨List.Subset.trans hstep.1 hsub, List.forall_mem_cons.mpr ⟨hsub hstep.2, hkeys⟩⟩

lemma mem_withKeys {columns : List String} {nested : List Relation} {relation : Relation}
    (h : relation ∈ nested) (hmany : relation.link.mode.isToOne = false) :
    relation.link.bindingKeyOrId ∈ withKeys columns nested :=
  (mem_foldl_keys _ columns).2 relation (List.mem_filter.mpr ⟨h, by simp [hmany]⟩)

/-- Where the key of a deferred relation comes from: it is read from the owner that the path leads
to, or from a joined relation further on, which has the key among its columns. -/
def Provides (path : List String) (relations : List Relation) (plan : Plan)
    (deferred : Deferred) : Prop :=
  (deferred.path = path ∧ ∃ relation ∈ relations, relation.link.mode.isToOne = false
      ∧ deferred.parentKey = relation.link.bindingKeyOrId)
    ∨ ∃ rest node, deferred.path = path ++ rest ∧ Node.At plan.nodes rest node
      ∧ deferred.parentKey ∈ node.columns
      ∧ fieldOf node.aliasName deferred.parentKey ∈ plan.fields

lemma Provides.mono {path : List String} {relations relations' : List Relation}
    {plan plan' : Plan} {deferred : Deferred} (h : Provides path relations plan deferred)
    (hrelations : relations ⊆ relations') (hnodes : plan.nodes ⊆ plan'.nodes)
    (hfields : plan.fields ⊆ plan'.fields) : Provides path relations' plan' deferred := by
  rcases h with ⟨hpath, relation, hmem, hrest⟩ | ⟨rest, node, hpath, hat, hkey, hfield⟩
  · exact .inl ⟨hpath, relation, hrelations hmem, hrest⟩
  · exact .inr ⟨rest, node, hpath, hat.mono hnodes, hkey, hfields hfield⟩

/-- A joined relation has the keys of the relations nested in it among its columns. -/
lemma Provides.joined {path : List String} {link : Link} {nested : List Relation} {join : Join}
    {columns : List String} {inner : Plan} {deferred : Deferred}
    (hcolumns : ∀ relation ∈ nested, relation.link.mode.isToOne = false →
      relation.link.bindingKeyOrId ∈ columns)
    (h : Provides (path ++ [link.aliasName]) nested inner deferred) :
    Provides path [⟨link, nested⟩] (Plan.joined join link.aliasName columns inner) deferred := by
  have hnode : Node.mk link.aliasName columns inner.nodes
      ∈ (Plan.joined join link.aliasName columns inner).nodes := List.mem_singleton_self _
  rcases h with ⟨hpath, relation, hmem, hmany, hkey⟩ | ⟨rest, node, hpath, hat, hkey, hfield⟩
  · have hcolumn := hcolumns relation hmem hmany
    rw [← hkey] at hcolumn
    exact .inr ⟨_, _, hpath, .here hnode, hcolumn,
      List.mem_append_left _ (List.mem_map_of_mem hcolumn)⟩
  · refine .inr ⟨_, node, ?_, .under hnode hat, hkey, List.mem_append_right _ hfield⟩
    rw [hpath, List.append_assoc]
    rfl

end Plan

/-- The columns of a joined relation hold the keys of the relations nested in it. -/
lemma Context.makes_relationColumns (ctx : Context σ) (link : Link) (nested : List Relation) :
    Makes (ctx.relationColumns link nested) fun columns =>
      ∀ relation ∈ nested, relation.link.mode.isToOne = false →
        relation.link.bindingKeyOrId ∈ columns := by
  have hkeys (columns : List String) : Makes (σ := σ) (if columns.isEmpty
      then MonadExcept.throw (.configuration (.noColumns link.table link.aliasName))
      else return Plan.withKeys columns nested) fun columns =>
        ∀ relation ∈ nested, relation.link.mode.isToOne = false →
          relation.link.bindingKeyOrId ∈ columns := by
    split
    · exact Makes.throw _
    · exact Makes.pure fun relation => Plan.mem_withKeys
  rw [Context.relationColumns]
  split <;> exact (Makes.trivial _).bind fun columns _ => hkeys columns

namespace Plan

mutual

lemma makes_provides_expand (ctx : Context σ) (parentAlias parentTable : String)
    (path : List String) : (relation : Relation) →
    Makes (relation.expand ctx true parentAlias parentTable path)
      fun plan => ∀ deferred ∈ plan.deferred, Provides path [relation] plan deferred
  | ⟨link, nested⟩ => by
      cases hone : link.mode.isToOne with
      | true =>
          rw [Relation.expand_of_isToOne ctx true parentAlias parentTable path nested hone]
          refine (Makes.trivial _).bind fun _ _ =>
            (ctx.makes_relationColumns link nested).bind fun columns hcolumns => ?_
          exact (makes_provides_expandAll ctx link.aliasName link.table _ nested).bind
            fun inner hinner => Makes.pure fun deferred hmem =>
              (hinner deferred hmem).joined hcolumns
      | false =>
          rw [Relation.expand_of_not_isToOne ctx true parentAlias parentTable path nested hone]
          refine (Makes.trivial _).bind fun _ _ => Makes.pure fun deferred hmem => ?_
          obtain rfl := List.mem_singleton.mp hmem
          exact .inl ⟨rfl, _, List.mem_singleton_self _, hone, rfl⟩

/-- **Every key of a plan with columns is provided**, where the deferred relation reads it. -/
theorem makes_provides_expandAll (ctx : Context σ) (parentAlias parentTable : String)
    (path : List String) : (relations : List Relation) →
    Makes (Relation.expandAll ctx true parentAlias parentTable path relations)
      fun plan => ∀ deferred ∈ plan.deferred, Provides path relations plan deferred
  | [] => by
      rw [Relation.expandAll]
      exact Makes.pure fun deferred hmem => absurd hmem List.not_mem_nil
  | relation :: relations => by
      rw [Relation.expandAll]
      refine (makes_provides_expand ctx parentAlias parentTable path relation).bind
        fun plan hplan => ?_
      refine (makes_provides_expandAll ctx parentAlias parentTable path relations).bind
        fun others hothers => Makes.pure fun deferred hmem => ?_
      rcases List.mem_append.mp hmem with hmem | hmem
      · exact (hplan deferred hmem).mono (by simp) (List.subset_append_left _ _)
          (List.subset_append_left _ _)
      · exact (hothers deferred hmem).mono (List.subset_cons_self _ _)
          (List.subset_append_right _ _) (List.subset_append_right _ _)

end

end Plan

/-! ## Keys of a select -/

namespace Statement

/-- The fields of a select list are written, each as an item of its own. -/
lemma exists_item_of_mem_selectFields {statement : Statement} {plan : Plan} {frame : Frame}
    (hframe : statement.frame plan = .ok frame) {items : List SelectItem} {source : Source Slot}
    {order : List OrderItem} {limit : Option Limit}
    (h : statement.selectQuery plan = .ok (.select items source order limit)) {field : Field}
    (hfield : field ∈ statement.selectFields plan frame) :
    ∃ item ∈ items, field.item frame = .ok item := by
  obtain ⟨frame', hframe', h⟩ := bind_eq_ok.mp h
  obtain rfl := Except.ok.inj (hframe.symm.trans hframe')
  obtain ⟨items', hitems, h⟩ := bind_eq_ok.mp h
  obtain ⟨source', -, h⟩ := bind_eq_ok.mp h
  obtain ⟨order', -, h⟩ := bind_eq_ok.mp h
  obtain ⟨rfl, -, -, -⟩ := Query.select.inj (return_eq_ok.mp h)
  exact exists_mem_of_mapM hitems hfield

/-- **Every key that a deferred relation reads is selected.**  A key of the main table is covered
by a field of the select list.  A key of a joined relation is a column of the one relation at the
end of the path, and is selected under its prefixed name.  So such keys can be collected from all
rows that a driver returns, when they are folded. -/
theorem selects_parentKey {ctx : Context σ} {statement : Statement} {plan : Plan}
    {s t : Session σ} (hapart : Relation.Apart statement.relations)
    (hplan : statement.plan ctx true s = (.ok plan, t)) {deferred : Deferred}
    (hmem : deferred ∈ plan.deferred) :
    (deferred.path = [] → deferred.parentKey ∈ plan.rootKeys
      ∧ ∃ frame, statement.frame plan = .ok frame
        ∧ ∃ field ∈ statement.selectFields plan frame,
          field.covers frame.main deferred.parentKey true = true
          ∧ ∀ items source order limit,
            statement.selectQuery plan = .ok (.select items source order limit) →
            ∃ item ∈ items, field.item frame = .ok item)
    ∧ (deferred.path ≠ [] →
      (∃ node, (∀ other, Node.At plan.nodes deferred.path other ↔ other = node)
        ∧ deferred.parentKey ∈ node.columns
        ∧ Plan.fieldOf node.aliasName deferred.parentKey ∈ plan.fields)
      ∧ ∀ rows : List Row, (∀ row ∈ rows, row.Distinct) →
        ∃ keys, deferred.keys (rows.map (Row.fold plan.nodes)) = .ok keys) := by
  obtain ⟨main, hmain, hplan⟩ := plan_eq_ok.mp hplan
  refine ⟨fun hpath => ?_, fun hpath => ?_⟩
  · have hkey := Plan.inductive_rootKeys.makes_expandAll ctx true _ _ [] _ s plan t hplan
      deferred hmem hpath
    have hframe : statement.frame plan = .ok ⟨main.reference, statement.joins ++ plan.joins⟩ :=
      bind_eq_ok.mpr ⟨main, hmain, rfl⟩
    obtain ⟨field, hfield, hcovers⟩ := statement.covered_of_mem_rootKeys
      ⟨main.reference, statement.joins ++ plan.joins⟩ hkey
    exact ⟨hkey, _, hframe, field, hfield, hcovers, fun items source order limit hquery =>
      exists_item_of_mem_selectFields hframe hquery hfield⟩
  · obtain ⟨hnodes, -⟩ :=
      Plan.inductive_apart.makes_expandAll ctx true _ _ [] _ s plan t hplan hapart
    rcases Plan.makes_provides_expandAll ctx _ _ [] _ s plan t hplan deferred hmem
      with ⟨hroot, -⟩ | ⟨rest, node, hrest, hat, hkey, hfield⟩
    · exact absurd hroot hpath
    · rw [List.nil_append] at hrest
      rw [← hrest] at hat
      refine ⟨⟨node, fun other => ⟨hat.unique hnodes, fun heq => heq ▸ hat⟩, hkey, hfield⟩, ?_⟩
      exact fun rows hrows => Deferred.exists_keys_of_carried hnodes hat hkey hrows

end Statement

namespace Sample

/-- The names of users, with the name and the offices of their company, and with their posts. -/
def named : Statement where
  activity := .select
  table := some ⟨"users", none⟩
  fields := [.column "name"]
  relations :=
    [⟨{ Link.ofTable .belongsTo "companies" with fields := ["name"] },
      [.ofTable .hasMany "offices"]⟩, .ofTable .hasMany "posts"]

lemma apart_named : Relation.Apart named.relations := by
  have hleaf : Relation.Apart [] := ⟨List.nodup_nil, by simp⟩
  have hoffices : Relation.Apart [.ofTable .hasMany "offices"] :=
    ⟨List.nodup_singleton _, List.forall_mem_singleton.mpr hleaf⟩
  exact ⟨by decide, List.forall_mem_cons.mpr ⟨hoffices, List.forall_mem_singleton.mpr hleaf⟩⟩

end Sample

open Sample in
/-- Where only names are asked for, the keys for the posts and for the offices are selected too. -/
theorem Statement.selects_parentKey_of_named :
    ∃ plan t, named.plan ctx true { connection := [] } = (.ok plan, t)
      ∧ posts ∈ plan.deferred ∧ offices ∈ plan.deferred
      ∧ (∃ frame, named.frame plan = .ok frame
        ∧ ∃ field ∈ named.selectFields plan frame, field.covers frame.main "id" true = true)
      ∧ (∃ node, (∀ other, Node.At plan.nodes ["companies"] other ↔ other = node)
        ∧ "id" ∈ node.columns ∧ Plan.fieldOf node.aliasName "id" ∈ plan.fields)
      ∧ ∃ keys, offices.keys ([user].map (Row.fold plan.nodes)) = .ok keys := by
  obtain ⟨plan, t, hplan, hposts, hoffices⟩ : ∃ plan t,
      named.plan ctx true { connection := [] } = (.ok plan, t)
      ∧ posts ∈ plan.deferred ∧ offices ∈ plan.deferred :=
    ⟨_, _, rfl, List.mem_cons_of_mem _ List.mem_cons_self, List.mem_cons_self⟩
  obtain ⟨-, frame, hframe, field, hfield, hcovers, -⟩ :=
    (selects_parentKey apart_named hplan hposts).1 rfl
  obtain ⟨hnode, hkeys⟩ :=
    (selects_parentKey apart_named hplan hoffices).2 (List.cons_ne_nil _ _)
  have hdistinct : user.Distinct := by
    show ["id", "__contain_companies__id"].Nodup
    decide
  exact ⟨plan, t, hplan, hposts, hoffices, ⟨frame, hframe, field, hfield, hcovers⟩, hnode,
    hkeys [user] (List.forall_mem_singleton.mpr hdistinct)⟩

end RelQuery
