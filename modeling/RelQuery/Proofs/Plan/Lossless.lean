import RelQuery.Proofs.Plan.Siblings

/-!
# What folding keeps

Folding moves each column of a joined relation into an object of its own.  A relation none of whose
columns holds a value becomes null, whatever the relations nested in it hold.  Apart from that
nothing is lost, as long as no name stands for two things.

* `Node.At` and `Relation.JoinedAt` say which joined relation a path leads to.
* `Plan.KeepsApart` says that no name stands for two things.
* **`Node.found_of_at`** — a value is found at the end of its path, unless the path leads through a
  relation without values.
* **`Plan.found_of_keepsApart`** — so it is for every column that a plan adds to a select.
-/

namespace RelQuery

open Session

variable {σ : Type}

/-! ## Paths -/

/-- The joined relation at the end of a path. -/
inductive Node.At : List Node → List String → Node → Prop
  | here {nodes : List Node} {node : Node} (h : node ∈ nodes) : At nodes [node.aliasName] node
  | under {nodes : List Node} {node inner : Node} {path : List String} (h : node ∈ nodes)
      (hinner : At node.children path inner) : At nodes (node.aliasName :: path) inner

/-- The joined relation that is declared at the end of a path. -/
inductive Relation.JoinedAt : List Relation → List String → Relation → Prop
  | here {relations : List Relation} {relation : Relation} (h : relation ∈ relations)
      (hone : relation.link.mode.isToOne = true) : JoinedAt relations [relation.aliasName] relation
  | under {relations : List Relation} {relation inner : Relation} {path : List String}
      (h : relation ∈ relations) (hone : relation.link.mode.isToOne = true)
      (hinner : JoinedAt relation.nested path inner) :
      JoinedAt relations (relation.aliasName :: path) inner

lemma Node.At.mono {nodes others : List Node} {path : List String} {node : Node}
    (h : At nodes path node) (hsub : nodes ⊆ others) : At others path node := by
  cases h with
  | here h => exact .here (hsub h)
  | under h hinner => exact .under (hsub h) hinner

/-- A path leads to one joined relation. -/
lemma Node.At.unique {nodes : List Node} {path : List String} {node other : Node}
    (h : At nodes path node) (hapart : Apart nodes) (h' : At nodes path other) : other = node := by
  induction h with
  | @here nodes node hnode =>
      obtain ⟨hnodup, -⟩ := hapart
      generalize hpath : [node.aliasName] = path at h'
      cases h' with
      | here hother =>
          exact List.inj_on_of_nodup_map hnodup hother hnode (by simpa using hpath.symm)
      | under hother hinner =>
          obtain ⟨-, rfl⟩ := List.cons.inj hpath
          cases hinner
  | @under nodes node inner path hnode hinner ih =>
      obtain ⟨hnodup, hchildren⟩ := hapart
      generalize hpath : node.aliasName :: path = whole at h'
      cases h' with
      | here hother =>
          obtain ⟨-, rfl⟩ := List.cons.inj hpath
          cases hinner
      | under hother hinner' =>
          obtain ⟨halias, rfl⟩ := List.cons.inj hpath
          obtain rfl := List.inj_on_of_nodup_map hnodup hother hnode halias.symm
          exact ih (hchildren _ hnode) hinner'

lemma Relation.JoinedAt.mono {relations others : List Relation} {path : List String}
    {relation : Relation} (h : JoinedAt relations path relation) (hsub : relations ⊆ others) :
    JoinedAt others path relation := by
  cases h with
  | here h hone => exact .here (hsub h) hone
  | under h hone hinner => exact .under (hsub h) hone hinner

/-! ## Fields of a plan -/

/-- A field is a column of the joined relation at the end of a path. -/
def Plan.Places (relations : List Relation) (nodes : List Node) (field : Field) : Prop :=
  ∃ path relation node column, Relation.JoinedAt relations path relation ∧ Node.At nodes path node
    ∧ node.aliasName = relation.aliasName ∧ column ∈ node.columns
    ∧ field = Plan.fieldOf node.aliasName column

lemma Plan.Places.mono {relations relations' : List Relation} {nodes nodes' : List Node}
    {field : Field} (h : Places relations nodes field) (hrelations : relations ⊆ relations')
    (hnodes : nodes ⊆ nodes') : Places relations' nodes' field := by
  obtain ⟨path, relation, node, column, hjoined, hat, hrest⟩ := h
  exact ⟨path, relation, node, column, hjoined.mono hrelations, hat.mono hnodes, hrest⟩

/-- Every field of a plan is a column of one of its joined relations. -/
lemma Plan.inductive_places : Relation.Inductive
    (fun _ relation plan => ∀ field ∈ plan.fields, Places [relation] plan.nodes field)
    (fun _ relations plan => ∀ field ∈ plan.fields, Places relations plan.nodes field) where
  joined path link nested join columns inner hone hinner := by
    intro field hfield
    have hmem : Relation.mk link nested ∈ [Relation.mk link nested] := List.mem_singleton_self _
    have hnode : Node.mk link.aliasName columns inner.nodes
        ∈ [Node.mk link.aliasName columns inner.nodes] := List.mem_singleton_self _
    rcases List.mem_append.mp hfield with hown | hbelow
    · obtain ⟨column, hcolumn, rfl⟩ := List.mem_map.mp hown
      exact ⟨_, _, _, column, .here hmem hone, .here hnode, rfl, hcolumn, rfl⟩
    · obtain ⟨path, relation, node, column, hjoined, hat, hrest⟩ := hinner field hbelow
      exact ⟨_, relation, node, column, .under hmem hone hjoined, .under hnode hat, hrest⟩
  postponed _ _ _ _ _ _ := fun field hfield => absurd hfield List.not_mem_nil
  nil _ := fun field hfield => absurd hfield List.not_mem_nil
  cons path relation relations plan others hplan hothers := by
    intro field hfield
    rcases List.mem_append.mp hfield with hfirst | hrest
    · exact (hplan field hfirst).mono (by simp) (List.subset_append_left _ _)
    · exact (hothers field hrest).mono (List.subset_cons_self _ _) (List.subset_append_right _ _)

lemma Node.namesOfAll_append (nodes others : List Node) :
    namesOfAll (nodes ++ others) = namesOfAll nodes ++ namesOfAll others := by
  induction nodes with
  | nil => rfl
  | cons node nodes ih => rw [List.cons_append, namesOfAll, namesOfAll, ih, List.append_assoc]

/-- The fields of a plan have the names that folding reads, in the same order. -/
lemma Plan.inductive_outputNames : Relation.Inductive
    (fun _ _ plan => plan.fields.map Field.outputName? = (Node.namesOfAll plan.nodes).map some)
    (fun _ _ plan => plan.fields.map Field.outputName? = (Node.namesOfAll plan.nodes).map some)
    where
  joined path link nested join columns inner hone hinner := by
    have hown : (columns.map (Plan.fieldOf link.aliasName)).map Field.outputName?
        = (columns.map (Plan.prefixed link.aliasName)).map some := by
      rw [List.map_map, List.map_map]
      rfl
    rw [joined, List.map_append, hinner, hown, Node.namesOfAll, Node.names, Node.namesOfAll,
      List.append_nil, List.map_append]
  postponed _ _ _ _ _ _ := rfl
  nil _ := rfl
  cons path relation relations plan others hplan hothers := by
    rw [append, List.map_append, hplan, hothers, Node.namesOfAll_append, List.map_append]

/-! ## Values along paths -/

/-- A value of a joined relation is found in the object at the end of its path, or it is lost
because the path leads through a relation without values, which has become null. -/
def Node.FoundOrLost (nodes : List Node) (read : String → Value) (object : Row)
    (path : List String) (column : String) (value : Value) : Prop :=
  object.at? path column = some value
    ∨ ∃ way aliasName above, way ++ [aliasName] <+: path ∧ At nodes (way ++ [aliasName]) above
      ∧ (∀ column ∈ above.columns, read (Plan.prefixed above.aliasName column) = .null)
      ∧ object.at? way aliasName = some .null

/-- A relation with a value becomes an object. -/
lemma Node.value_of_ne_null {read : String → Value} {node : Node} {column : String}
    (hcolumn : column ∈ node.columns)
    (hvalue : read (Plan.prefixed node.aliasName column) ≠ .null) :
    node.value read = (putAll read (ownColumns read node.aliasName node.columns .empty)
      node.children).toValue := by
  obtain ⟨aliasName, columns, children⟩ := node
  have hany : anyValue read (columns.map (Plan.prefixed aliasName)) = true := by
    refine List.any_eq_true.mpr ⟨_, List.mem_map_of_mem hcolumn, ?_⟩
    cases hread : read (Plan.prefixed aliasName column) with
    | null => exact absurd hread hvalue
    | _ => rfl
  rw [value, if_pos hany]

/-- A relation without values becomes null. -/
lemma Node.value_of_forall_null {read : String → Value} {node : Node}
    (h : ∀ column ∈ node.columns, read (Plan.prefixed node.aliasName column) = .null) :
    node.value read = .null := by
  obtain ⟨aliasName, columns, children⟩ := node
  have hany : ¬ anyValue read (columns.map (Plan.prefixed aliasName)) = true := by
    rw [anyValue, List.any_map, List.any_eq_true]
    rintro ⟨column, hcolumn, hnull⟩
    rw [Function.comp_apply, h column hcolumn] at hnull
    cases hnull
  rw [value, if_neg hany]

/-- **A value is found at the end of its path**, unless the path leads through a relation without
values. -/
theorem Node.found_of_at {nodes : List Node} {path : List String} {node : Node}
    (hat : At nodes path node) (hapart : Apart nodes)
    (hchildren : ∀ path node, At nodes path node → ∀ child ∈ node.children,
      child.aliasName ∉ node.columns)
    {read : String → Value} {object : Row}
    (hobject : ∀ node ∈ nodes, object.get? node.aliasName = some (node.value read))
    {column : String} (hcolumn : column ∈ node.columns)
    (hvalue : read (Plan.prefixed node.aliasName column) ≠ .null) :
    FoundOrLost nodes read object path column (read (Plan.prefixed node.aliasName column)) := by
  induction hat generalizing object with
  | @here nodes node hnode =>
      have hfree : column ∉ node.children.map Node.aliasName := by
        intro hmem
        obtain ⟨child, hchild, rfl⟩ := List.mem_map.mp hmem
        exact hchildren _ node (.here hnode) child hchild hcolumn
      refine .inl ?_
      rw [Row.at?_cons, Row.member?_eq_some.mpr (hobject node hnode ▸
        congrArg some (value_of_ne_null hcolumn hvalue)), Option.bind_some, Row.at?_nil,
        get?_putAll_of_not_mem hfree, get?_ownColumns, if_pos hcolumn]
  | @under nodes node inner path hnode hinner ih =>
      obtain ⟨-, hapart⟩ := hapart
      by_cases hnull : ∀ column ∈ node.columns,
          read (Plan.prefixed node.aliasName column) = .null
      · refine .inr ⟨[], node.aliasName, node, List.prefix_append [node.aliasName] path,
          .here hnode, hnull, ?_⟩
        rw [Row.at?_nil, hobject node hnode, value_of_forall_null hnull]
      · -- The relation is there, so the path goes on in its object.
        push Not at hnull
        obtain ⟨own, hown, hpresent⟩ := hnull
        have hmember := Row.member?_eq_some.mpr (hobject node hnode ▸
          congrArg some (value_of_ne_null hown hpresent))
        obtain ⟨hnodup, -⟩ := id (hapart node hnode)
        rcases ih (hapart node hnode)
          (fun path inner hinner => hchildren _ inner (.under hnode hinner))
          (fun child hchild => get?_putAll_of_mem hnodup hchild _) hcolumn hvalue
          with hfound | ⟨way, aliasName, above, hprefix, habove, hnulls, hlost⟩
        · refine .inl ?_
          rw [Row.at?_cons, hmember, Option.bind_some, hfound]
        · refine .inr ⟨node.aliasName :: way, aliasName, above, ?_, .under hnode habove, hnulls, ?_⟩
          · exact List.cons_prefix_cons.mpr ⟨rfl, hprefix⟩
          · rw [Row.at?_cons, hmember, Option.bind_some, hlost]

/-! ## Plans that keep names apart -/

/-- No name stands for two things: no column is read twice, no joined relation is put where a later
one reads a column, and no relation that is nested in one has the name of a column of it. -/
structure Plan.KeepsApart (plan : Plan) : Prop where
  once : (plan.fields.map Field.outputName?).Nodup
  kept : plan.nodes.Pairwise fun node later => node.aliasName ∉ later.names
  children : ∀ path node, Node.At plan.nodes path node → ∀ child ∈ node.children,
    child.aliasName ∉ node.columns

/-- **Folding loses no value of a relation that is there.**  Every field of the plan of accepted
relations is a column of a relation at the end of a path.  A value that a row has for it is found
there after folding, unless a relation on the path has no values of its own and has become null. -/
theorem Plan.found_of_keepsApart {ctx : Context σ} {relations : List Relation} {main : TableRef}
    {s t : Session σ} {plan : Plan} (haccepted : Relation.Accepted relations)
    (hplan : Plan.ofRelations ctx true relations main s = (.ok plan, t)) (hkeeps : plan.KeepsApart)
    {field : Field} (hfield : field ∈ plan.fields) :
    ∃ path relation node column, Relation.JoinedAt relations path relation
      ∧ Node.At plan.nodes path node ∧ node.aliasName = relation.aliasName ∧ column ∈ node.columns
      ∧ field = fieldOf relation.aliasName column
      ∧ ∀ row : Row, row.read (prefixed relation.aliasName column) ≠ .null →
        Node.FoundOrLost plan.nodes row.read (Row.fold plan.nodes row) path column
          (row.read (prefixed relation.aliasName column)) := by
  obtain ⟨path, relation, node, column, hjoined, hat, halias, hcolumn, heq⟩ :=
    inductive_places.makes_expandAll ctx true _ _ [] relations s plan t hplan field hfield
  rw [halias] at heq
  refine ⟨path, relation, node, column, hjoined, hat, halias, hcolumn, heq, fun row hvalue => ?_⟩
  have hapart := (makes_fits_ofRelations ctx true haccepted main s plan t hplan).laidOut.apart
  have hnames : (Node.namesOfAll plan.nodes).Nodup := by
    have hoff := inductive_outputNames.makes_expandAll ctx true _ _ [] relations s plan t hplan
    exact List.Nodup.of_map _ (hoff ▸ hkeeps.once)
  obtain ⟨haliases, -⟩ := id hapart
  rw [← halias] at hvalue ⊢
  exact Node.found_of_at hat hapart hkeeps.children
    (fun node hnode => Row.get?_fold_of_mem hnames haliases hkeeps.kept hnode row) hcolumn hvalue

/-! ## A profile with its country -/

namespace Sample

/-- The profile of a user, and the country that it names. -/
def profileWithCountry : List Relation :=
  [⟨{ mode := .hasOne, aliasName := "profiles", table := "profiles", fields := ["bio"] },
    [⟨{ mode := .belongsTo, aliasName := "countries", table := "countries", fields := ["name"] },
      []⟩]⟩]

/-- A user with a profile in New Zealand. -/
def living (bio : Value) : Row :=
  ⟨[("id", .ofInt 1), ("__contain_profiles__bio", bio),
    ("__contain_countries__name", .str "NZ")]⟩

/-- The country in the plan. -/
def country : Node := ⟨"countries", ["name"], []⟩

/-- The plan for the profile and the country. -/
def profilePlan : Plan where
  joins :=
    [(Link.ofTable .hasOne "profiles").join ctx.naming "users" "users",
      (Link.ofTable .belongsTo "countries").join ctx.naming "profiles" "profiles"]
  fields := [Plan.fieldOf "profiles" "bio", Plan.fieldOf "countries" "name"]
  nodes := [⟨"profiles", ["bio"], [country]⟩]

lemma accepted_profileWithCountry : Relation.Accepted profileWithCountry := by
  refine ⟨by decide, ?_⟩
  simp only [profileWithCountry, List.forall_mem_singleton]
  rfl

lemma at_profilePlan {path : List String} {node : Node} (h : Node.At profilePlan.nodes path node) :
    node = ⟨"profiles", ["bio"], [country]⟩ ∨ node = country := by
  cases h with
  | here h => exact .inl (List.mem_singleton.mp h)
  | under h hinner =>
      cases List.mem_singleton.mp h
      cases hinner with
      | here h => exact .inr (List.mem_singleton.mp h)
      | under h hinner =>
          cases List.mem_singleton.mp h
          cases hinner with
          | here h => exact absurd h List.not_mem_nil
          | under h => exact absurd h List.not_mem_nil

lemma keepsApart_profilePlan : profilePlan.KeepsApart where
  once := by decide
  kept := List.pairwise_singleton _ _
  children := by
    intro path node hat
    rcases at_profilePlan hat with rfl | rfl <;> decide

lemma ofRelations_profileWithCountry : ∃ t, Plan.ofRelations ctx true profileWithCountry
    ⟨"users", none⟩ { connection := [] } = (.ok profilePlan, t) :=
  ⟨_, Prod.ext rfl rfl⟩

end Sample

open Sample in
/-- The country of a profile with a text is found in the profile. -/
theorem Plan.found_of_profile :
    ∃ path relation column, Relation.JoinedAt profileWithCountry path relation
      ∧ fieldOf "countries" "name" = fieldOf relation.aliasName column
      ∧ (Row.fold profilePlan.nodes (living (.str "poet"))).at? path column = some (.str "NZ") := by
  obtain ⟨t, hplan⟩ := ofRelations_profileWithCountry
  obtain ⟨path, relation, node, column, hjoined, -, -, -, hfield, hfound⟩ :=
    found_of_keepsApart accepted_profileWithCountry hplan keepsApart_profilePlan
      (List.mem_cons_of_mem _ List.mem_cons_self : fieldOf "countries" "name" ∈ profilePlan.fields)
  obtain ⟨halias, hcolumn⟩ : "countries" = relation.aliasName ∧ "name" = column := by
    simpa [fieldOf] using And.intro (congrArg Field.table hfield) (congrArg Field.name hfield)
  refine ⟨path, relation, column, hjoined, hfield, ?_⟩
  rw [← halias, ← hcolumn] at hfound
  rw [← hcolumn]
  rcases hfound (living (.str "poet")) nofun with hthere | ⟨_, _, above, -, habove, hnull, -⟩
  · exact hthere
  · -- Both relations have a value.
    rcases at_profilePlan habove with rfl | rfl
    · cases hnull "bio" List.mem_cons_self
    · cases hnull "name" List.mem_cons_self

open Sample in
/-- A profile without a text becomes null, and the country in it is lost. -/
theorem Plan.lost_of_emptyProfile :
    ∃ plan t, Relation.Accepted profileWithCountry
      ∧ Plan.ofRelations ctx true profileWithCountry ⟨"users", none⟩ { connection := [] }
        = (.ok plan, t)
      ∧ plan.KeepsApart ∧ fieldOf "countries" "name" ∈ plan.fields
      ∧ (living .null).read (prefixed "countries" "name") = .str "NZ"
      ∧ Row.fold plan.nodes (living .null) = ⟨[("id", .ofInt 1), ("profiles", .null)]⟩
      ∧ (Row.fold plan.nodes (living .null)).at? ["profiles", "countries"] "name" = none := by
  obtain ⟨t, hplan⟩ := ofRelations_profileWithCountry
  exact ⟨profilePlan, t, accepted_profileWithCountry, hplan, keepsApart_profilePlan,
    List.mem_cons_of_mem _ List.mem_cons_self, rfl, rfl, rfl⟩

open Sample in
/-- A column that is read twice is null the second time. -/
example : Row.fold [⟨"profiles", ["bio", "bio"], []⟩] (living (.str "poet"))
    = ⟨[("id", .ofInt 1), ("__contain_countries__name", .str "NZ"),
        ("profiles", .obj [("bio", .null)])]⟩ := rfl

open Sample in
/-- A relation takes the place of a column of the same name. -/
example : Row.fold [⟨"profiles", ["bio"], [⟨"bio", ["name"], []⟩]⟩] (living (.str "poet"))
    = ⟨[("id", .ofInt 1), ("__contain_countries__name", .str "NZ"),
        ("profiles", .obj [("bio", .null)])]⟩ := rfl

end RelQuery
