import RelQuery.Proofs.Plan.Folded

/-!
# The columns of folded rows

As long as no name stands for two things, a folded row can be written down: the columns that no
relation was read from, as they were and in their order, and behind them one object for each joined
relation.  The object has the columns of its relation in order, and the relations nested in it
behind them in the same way.

* `Node.embedding` is what a joined relation becomes, written down at once.
* `Value.along?` is what stands at the end of a path, where there is nothing but null under null.
* **`Node.value_eq_embedding`** — what folding puts together piece by piece is this object.
* **`Row.entries_fold`** — the columns of a folded row, and what stands at the end of each path.
-/

namespace RelQuery

/-! ## Embeddings -/

/-- What stands at the end of a path.  Under null there is nothing but null. -/
def Value.along? : List String → Value → Option Value
  | [], value => some value
  | aliasName :: path, .obj members => (members.lookup aliasName).bind (along? path)
  | _ :: _, .null => some .null
  | _ :: _, _ => none

namespace Node

/-- Whether a relation has no value of its own. -/
def Absent (read : String → Value) (node : Node) : Prop :=
  ∀ column ∈ node.columns, read (Plan.prefixed node.aliasName column) = .null

instance (read : String → Value) (node : Node) : Decidable (node.Absent read) :=
  decidable_of_iff (∀ column ∈ node.columns, (read (Plan.prefixed node.aliasName column)).isNull)
    (by
      refine forall₂_congr fun column _ => ?_
      cases read (Plan.prefixed node.aliasName column) <;> simp [Value.isNull])

/-- The columns of a relation in the flat row, under their own names. -/
def flatColumns (read : String → Value) (node : Node) : List (String × Value) :=
  node.columns.map fun column => (column, read (Plan.prefixed node.aliasName column))

mutual

/-- What a joined relation becomes: null if it has no value of its own, and otherwise its columns in
order, with the relations nested in it behind them. -/
def embedding (read : String → Value) : Node → Value
  | ⟨aliasName, columns, children⟩ =>
    if Absent read ⟨aliasName, columns, children⟩ then .null
    else .obj (flatColumns read ⟨aliasName, columns, children⟩ ++ embeddings read children)

/-- What some joined relations become, each under its alias. -/
def embeddings (read : String → Value) : List Node → List (String × Value)
  | [] => []
  | node :: nodes => (node.aliasName, embedding read node) :: embeddings read nodes

end

variable {read : String → Value} {nodes : List Node} {node : Node}

lemma embeddings_eq_map (read : String → Value) (nodes : List Node) :
    embeddings read nodes = nodes.map fun node => (node.aliasName, node.embedding read) := by
  induction nodes with
  | nil => rfl
  | cons node nodes ih => rw [embeddings, ih, List.map_cons]

lemma embedding_of_absent (h : node.Absent read) : node.embedding read = .null := by
  obtain ⟨aliasName, columns, children⟩ := node
  rw [embedding, if_pos h]

lemma embedding_of_not_absent (h : ¬ node.Absent read) :
    node.embedding read
      = .obj (node.flatColumns read ++ embeddings read node.children) := by
  obtain ⟨aliasName, columns, children⟩ := node
  rw [embedding, if_neg h]

/-! ## Objects put together -/

/-- An object is put together by inserting its columns, -/
lemma ownColumns_eq_merge (node : Node) (object : Row) :
    ownColumns read node.aliasName node.columns object = object.merge ⟨node.flatColumns read⟩ := by
  rw [ownColumns, Row.merge, flatColumns, List.foldl_map]

/-- and then the relations nested in it. -/
lemma putAll_eq_merge (nodes : List Node) (object : Row) :
    putAll read object nodes
      = object.merge ⟨nodes.map fun node => (node.aliasName, node.value read)⟩ := by
  induction nodes generalizing object with
  | nil => rw [putAll]; rfl
  | cons node nodes ih => rw [putAll, ih]; rfl

lemma map_fst_flatColumns (read : String → Value) (node : Node) :
    (node.flatColumns read).map Prod.fst = node.columns := by
  rw [flatColumns, List.map_map]
  exact List.map_id _

lemma map_fst_embeddings (read : String → Value) (nodes : List Node) :
    (embeddings read nodes).map Prod.fst = nodes.map Node.aliasName := by
  rw [embeddings_eq_map, List.map_map]
  rfl

/-- No relation that is nested in one has the name of a column of it. -/
def ColumnsApart (nodes : List Node) : Prop :=
  ∀ path node, At nodes path node → ∀ child ∈ node.children, child.aliasName ∉ node.columns

lemma ColumnsApart.children (h : ColumnsApart nodes) (hnode : node ∈ nodes) :
    ColumnsApart node.children :=
  fun _ inner hinner => h _ inner (.under hnode hinner)

lemma ColumnsApart.disjoint (h : ColumnsApart nodes) (hnode : node ∈ nodes) :
    node.columns.Disjoint (node.children.map Node.aliasName) := by
  intro name hcolumn halias
  obtain ⟨child, hchild, rfl⟩ := List.mem_map.mp halias
  exact h _ node (.here hnode) child hchild hcolumn

lemma Apart.nodup (h : Apart nodes) : (nodes.map Node.aliasName).Nodup := by
  obtain ⟨hnodup, -⟩ := h
  exact hnodup

lemma nodup_columns (h : node.names.Nodup) : node.columns.Nodup := by
  obtain ⟨aliasName, columns, children⟩ := node
  exact List.Nodup.of_map _ (List.nodup_append'.mp (names.eq_1 .. ▸ h)).1

lemma nodup_names (h : (namesOfAll nodes).Nodup) (hnode : node ∈ nodes) : node.names.Nodup := by
  induction nodes with
  | nil => exact absurd hnode List.not_mem_nil
  | cons first nodes ih =>
      obtain ⟨hfirst, hrest, -⟩ := List.nodup_append'.mp (namesOfAll.eq_2 .. ▸ h)
      rcases List.mem_cons.mp hnode with rfl | hnode
      · exact hfirst
      · exact ih hrest hnode

lemma nodup_namesOfAll_children (h : node.names.Nodup) : (namesOfAll node.children).Nodup := by
  obtain ⟨aliasName, columns, children⟩ := node
  exact (List.nodup_append'.mp (names.eq_1 .. ▸ h)).2.1

/-- **What folding puts together piece by piece is written down at once**, as long as no name stands
for two things. -/
theorem value_eq_embedding (hapart : Apart nodes) (hnames : (namesOfAll nodes).Nodup)
    (hcolumns : ColumnsApart nodes) (read : String → Value) :
    ∀ node ∈ nodes, node.value read = node.embedding read := by
  induction hapart with
  | @intro nodes hnodup hchildren ih =>
      intro node hnode
      by_cases habsent : node.Absent read
      · rw [embedding_of_absent habsent, value_of_forall_null habsent]
      have hown := nodup_names hnames hnode
      have hflat : (Row.empty.merge ⟨node.flatColumns read⟩).entries = node.flatColumns read := by
        refine Row.entries_merge ?_ (List.disjoint_nil_left _)
        rw [Row.Distinct, map_fst_flatColumns]
        exact nodup_columns hown
      have hinner : node.children.map (fun child => (child.aliasName, child.value read))
          = embeddings read node.children := by
        rw [embeddings_eq_map]
        refine List.map_congr_left fun child hchild => ?_
        rw [ih node hnode (nodup_namesOfAll_children hown) (hcolumns.children hnode) child hchild]
      obtain ⟨column, hcolumn, hpresent⟩ : ∃ column ∈ node.columns,
          read (Plan.prefixed node.aliasName column) ≠ .null := by
        rw [Absent] at habsent
        push Not at habsent
        exact habsent
      rw [embedding_of_not_absent habsent, value_of_ne_null hcolumn hpresent, ownColumns_eq_merge,
        putAll_eq_merge, hinner, Row.toValue, Row.entries_merge, hflat]
      · rw [Row.Distinct, map_fst_embeddings]
        exact (hchildren node hnode).nodup
      · rw [hflat, map_fst_flatColumns, map_fst_embeddings]
        exact hcolumns.disjoint hnode

end Node

/-! ## Along paths -/

section Along

variable {read : String → Value} {nodes : List Node} {node : Node} {path : List String}

lemma Value.along?_cons_obj (aliasName : String) (path : List String)
    (members : List (String × Value)) :
    along? (aliasName :: path) (.obj members)
      = (members.lookup aliasName).bind (along? path) := rfl

lemma Value.along?_null (path : List String) : along? path .null = some .null := by
  cases path <;> rfl

/-- Members in which some relations are found under their aliases. -/
def Node.Embedded (read : String → Value) (nodes : List Node) (members : List (String × Value)) :
    Prop :=
  ∀ node ∈ nodes, members.lookup node.aliasName = some (node.embedding read)

/-- Behind other columns, relations are found under their aliases. -/
lemma Node.embedded_append {columns : List (String × Value)}
    (hnodup : (nodes.map Node.aliasName).Nodup)
    (hdisjoint : (columns.map Prod.fst).Disjoint (nodes.map Node.aliasName)) :
    Embedded read nodes (columns ++ embeddings read nodes) := by
  intro node hnode
  have hnone : columns.lookup node.aliasName = none :=
    @Row.get?_eq_none_of_not_mem ⟨columns⟩ _
      fun hmem => hdisjoint hmem (List.mem_map_of_mem hnode)
  rw [List.lookup_append, hnone, Option.none_or]
  clear hnone hdisjoint
  induction nodes with
  | nil => exact absurd hnode List.not_mem_nil
  | cons first nodes ih =>
      obtain ⟨hfirst, hrest⟩ := List.nodup_cons.mp hnodup
      rw [embeddings]
      rcases List.mem_cons.mp hnode with rfl | hnode
      · exact List.lookup_cons_self
      · have hne : (node.aliasName == first.aliasName) = false :=
          beq_eq_false_iff_ne.mpr (ne_of_mem_of_not_mem (List.mem_map_of_mem hnode) hfirst)
        rw [List.lookup_cons, hne]
        exact ih hrest hnode

lemma Node.At.ne_nil (h : At nodes path node) : path ≠ [] := by
  cases h <;> exact List.cons_ne_nil _ _

/-- A path that begins with a relation leads to it, or to one nested in it. -/
lemma Node.At.of_cons {other : Node} (h : At nodes (node.aliasName :: path) other)
    (hapart : Apart nodes) (hnode : node ∈ nodes) : other = node ∨ At node.children path other := by
  obtain ⟨hnodup, -⟩ := hapart
  generalize hpath : node.aliasName :: path = whole at h
  cases h with
  | here hother =>
      obtain ⟨halias, -⟩ := List.cons.inj hpath
      exact .inl (List.inj_on_of_nodup_map hnodup hother hnode halias.symm)
  | under hother hinner =>
      obtain ⟨halias, rfl⟩ := List.cons.inj hpath
      obtain rfl := List.inj_on_of_nodup_map hnodup hother hnode halias.symm
      exact .inr hinner

/-- Something stands at the end of the path of every relation: null if it or a relation on the way
to it has no value, and otherwise the object of the relation. -/
lemma Node.along?_of_at (hat : At nodes path node) (hapart : Apart nodes)
    (hcolumns : ColumnsApart nodes) {members : List (String × Value)}
    (hmembers : Embedded read nodes members) :
    ((∃ way above, way <+: path ∧ At nodes way above ∧ above.Absent read) →
        Value.along? path (.obj members) = some .null)
      ∧ ((∀ way above, way <+: path → At nodes way above → ¬ above.Absent read) →
        Value.along? path (.obj members)
          = some (.obj (node.flatColumns read ++ embeddings read node.children))) := by
  induction hat generalizing members with
  | @here nodes node hnode =>
      have hvalue : Value.along? [node.aliasName] (.obj members) = some (node.embedding read) := by
        rw [Value.along?_cons_obj, hmembers node hnode]
        rfl
      rw [hvalue]
      refine ⟨?_, fun hpresent => ?_⟩
      · rintro ⟨way, above, hway, habove, habsent⟩
        obtain ⟨rest, rfl, hrest⟩ := (List.prefix_cons_iff.mp hway).resolve_left habove.ne_nil
        obtain rfl := List.prefix_nil.mp hrest
        obtain rfl := At.unique (.here hnode) hapart habove
        rw [embedding_of_absent habsent]
      · rw [embedding_of_not_absent (hpresent _ node List.prefix_rfl (.here hnode))]
  | @under nodes node inner path hnode hinner ih =>
      obtain ⟨hnodup, hchildren⟩ := id hapart
      have hvalue : Value.along? (node.aliasName :: path) (.obj members)
          = Value.along? path (node.embedding read) := by
        rw [Value.along?_cons_obj, hmembers node hnode]
        rfl
      rw [hvalue]
      by_cases habsent : node.Absent read
      · rw [embedding_of_absent habsent, Value.along?_null]
        refine ⟨fun _ => rfl, fun hpresent => ?_⟩
        exact absurd habsent (hpresent [node.aliasName] node (by simp) (.here hnode))
      · have hembedded : Embedded read node.children
            (node.flatColumns read ++ embeddings read node.children) :=
          embedded_append (hchildren node hnode).nodup
            (map_fst_flatColumns read node ▸ hcolumns.disjoint hnode)
        obtain ⟨hnull, hobject⟩ := ih (hchildren node hnode) (hcolumns.children hnode) hembedded
        rw [embedding_of_not_absent habsent]
        refine ⟨?_, fun hpresent => hobject fun way above hway habove =>
          hpresent _ above (List.cons_prefix_cons.mpr ⟨rfl, hway⟩) (.under hnode habove)⟩
        rintro ⟨way, above, hway, habove, hgone⟩
        obtain ⟨rest, rfl, hrest⟩ := (List.prefix_cons_iff.mp hway).resolve_left habove.ne_nil
        rcases habove.of_cons hapart hnode with rfl | hbelow
        · exact absurd hgone habsent
        · exact hnull ⟨rest, above, hrest, hbelow, hgone⟩

end Along

/-! ## Folded rows -/

namespace Row

variable {nodes : List Node} {row : Row}

/-- Folding takes out the columns that relations are read from, and puts the relations behind the
others. -/
lemma entries_fold_eq_value (hnames : (Node.namesOfAll nodes).Nodup)
    (haliases : (nodes.map Node.aliasName).Nodup)
    (hkept : ∀ node ∈ nodes, node.aliasName ∉ Node.namesOfAll nodes) (hrow : row.Distinct)
    (hfree : ∀ node ∈ nodes, row.get? node.aliasName = none) :
    (Row.fold nodes row).entries
      = row.entries.filter (fun entry => entry.1 ∉ Node.namesOfAll nodes)
        ++ nodes.map fun node => (node.aliasName, node.value row.read) := by
  induction nodes generalizing row with
  | nil => simp [Row.fold, Node.namesOfAll]
  | cons node nodes ih =>
      obtain ⟨hown, hrest, hapart⟩ := List.nodup_append'.mp (Node.namesOfAll.eq_2 .. ▸ hnames)
      obtain ⟨hfirst, haliases⟩ := List.nodup_cons.mp haliases
      simp only [Node.namesOfAll, List.mem_append, not_or, List.forall_mem_cons] at hkept
      obtain ⟨⟨hkeptOwn, hkeptRest⟩, hkept⟩ := hkept
      obtain ⟨hnew, hfree⟩ := List.forall_mem_cons.mp hfree
      let next := (row.eraseAll node.names).insert node.aliasName (node.value row.read)
      have hnext : next.entries = row.entries.filter (fun entry => entry.1 ∉ node.names)
          ++ [(node.aliasName, node.value row.read)] := by
        rw [← hrow.entries_eraseAll]
        refine insertEntry_of_not_mem _ (get?_eq_none_iff.mp ?_)
        rw [get?_eraseAll hkeptOwn, hnew]
      have hnextFree : ∀ later ∈ nodes, next.get? later.aliasName = none := by
        intro later hlater
        rw [get?_insert, if_neg (ne_of_mem_of_not_mem (List.mem_map_of_mem hlater) hfirst),
          get?_eraseAll (hkept later hlater).1, hfree later hlater]
      have hvalues : nodes.map (fun later => (later.aliasName, later.value next.read))
          = nodes.map fun later => (later.aliasName, later.value row.read) := by
        refine List.map_congr_left fun later hlater => ?_
        rw [Node.value_congr later fun name hname => ?_]
        -- What was taken out and put in for the first relation is no column of the others.
        have hmem := Node.mem_namesOfAll hlater hname
        rw [read, get?_insert, if_neg (ne_of_mem_of_not_mem hmem hkeptRest)]
        exact read_eraseAll (fun hmem' => hapart hmem' hmem) row
      rw [fold_cons, Node.extract_fst node hown, ih hrest haliases (fun later hlater =>
        (hkept later hlater).2) ((hrow.eraseAll _).insert _ _) hnextFree, hvalues, hnext]
      simp [Node.namesOfAll, List.filter_append, List.filter_filter, hkeptRest, Bool.and_comm]

/-- **What a folded row looks like.**  If no name stands for two things, no column that a relation
is read from is left, the other columns are as they were and in their order, and the relations stand
behind them.  At the end of the path of a relation is null if the relation has no value of its own,
or one that the path leads through has none; otherwise it is the object with the columns of the
relation in order, null where the row lacks one, and the relations nested in it behind them. -/
theorem entries_fold (hnames : (Node.namesOfAll nodes).Nodup) (hapart : Node.Apart nodes)
    (hcolumns : Node.ColumnsApart nodes)
    (hkept : ∀ node ∈ nodes, node.aliasName ∉ Node.namesOfAll nodes) (hrow : row.Distinct)
    (hfree : ∀ node ∈ nodes, row.get? node.aliasName = none) :
    (∀ name ∈ Node.namesOfAll nodes, (Row.fold nodes row).get? name = none)
      ∧ (Row.fold nodes row).entries
        = row.entries.filter (fun entry => entry.1 ∉ Node.namesOfAll nodes)
          ++ nodes.map (fun node => (node.aliasName, node.embedding row.read))
      ∧ ∀ path node, Node.At nodes path node →
        ((∃ way above, way <+: path ∧ Node.At nodes way above ∧ above.Absent row.read) →
          (Row.fold nodes row).toValue.along? path = some .null)
        ∧ ((∀ way above, way <+: path → Node.At nodes way above → ¬ above.Absent row.read) →
          (Row.fold nodes row).toValue.along? path
            = some (.obj (node.columns.map (fun column =>
                (column, row.read (Plan.prefixed node.aliasName column)))
              ++ node.children.map fun child => (child.aliasName, child.embedding row.read)))) := by
  have hentries : (Row.fold nodes row).entries
      = row.entries.filter (fun entry => entry.1 ∉ Node.namesOfAll nodes)
        ++ Node.embeddings row.read nodes := by
    rw [entries_fold_eq_value hnames hapart.nodup hkept hrow hfree, Node.embeddings_eq_map]
    refine congrArg _ (List.map_congr_left fun node hnode => ?_)
    rw [Node.value_eq_embedding hapart hnames hcolumns row.read node hnode]
  have hdisjoint : ((row.entries.filter fun entry => entry.1 ∉ Node.namesOfAll nodes).map
      Prod.fst).Disjoint (nodes.map Node.aliasName) := by
    intro name hname halias
    obtain ⟨node, hnode, rfl⟩ := List.mem_map.mp halias
    obtain ⟨entry, hentry, heq⟩ := List.mem_map.mp hname
    exact get?_eq_none_iff.mp (hfree node hnode)
      (heq ▸ List.mem_map_of_mem (List.mem_of_mem_filter hentry))
  have hembedded : Node.Embedded row.read nodes _ :=
    Node.embedded_append hapart.nodup hdisjoint
  refine ⟨fun name hname => ?_, ?_, fun path node hat => ?_⟩
  · rw [get?_eq_none_iff, hentries, List.map_append, List.mem_append, Node.map_fst_embeddings]
    rintro (hcolumn | halias)
    · obtain ⟨entry, hentry, rfl⟩ := List.mem_map.mp hcolumn
      exact of_decide_eq_true (List.mem_filter.mp hentry).2 hname
    · obtain ⟨node, hnode, rfl⟩ := List.mem_map.mp halias
      exact hkept node hnode hname
  · rw [hentries, Node.embeddings_eq_map]
  · rw [toValue, hentries, ← Node.embeddings_eq_map]
    exact Node.along?_of_at hat hapart hcolumns hembedded

end Row

namespace Sample

lemma apart_profilePlan : Node.Apart profilePlan.nodes := by
  have hcountry : Node.Apart [country] := ⟨by decide, by
    simp only [List.forall_mem_singleton]
    exact ⟨List.nodup_nil, by simp [country]⟩⟩
  refine ⟨by decide, ?_⟩
  simp only [profilePlan, List.forall_mem_singleton]
  exact hcountry

end Sample

open Sample in
/-- The country of a profile with a text stands in the profile, behind the text; that of a profile
without a text is null. -/
theorem Row.entries_fold_of_living :
    (Row.fold profilePlan.nodes (living (.str "poet"))).entries
        = [("id", .ofInt 1),
          ("profiles", .obj [("bio", .str "poet"), ("countries", .obj [("name", .str "NZ")])])]
      ∧ (Row.fold profilePlan.nodes (living (.str "poet"))).toValue.along? ["profiles", "countries"]
        = some (.obj [("name", .str "NZ")])
      ∧ (Row.fold profilePlan.nodes (living .null)).toValue.along? ["profiles", "countries"]
        = some .null := by
  have hfold (bio : Value) := @entries_fold profilePlan.nodes (living bio)
    (by decide) apart_profilePlan keepsApart_profilePlan.children (by decide)
    (by rw [Distinct]; simp [living]) (by simp [profilePlan, living, get?, List.lookup])
  have hmem : ⟨"profiles", ["bio"], [country]⟩ ∈ profilePlan.nodes := List.mem_singleton_self _
  have hprofile : Node.At profilePlan.nodes ["profiles"] ⟨"profiles", ["bio"], [country]⟩ :=
    .here hmem
  have hcountry : Node.At profilePlan.nodes ["profiles", "countries"] country :=
    .under hmem (.here (List.mem_singleton_self _))
  refine ⟨(hfold _).2.1, ((hfold _).2.2 _ _ hcountry).2 ?_, ((hfold _).2.2 _ _ hcountry).1 ?_⟩
  · intro way above _ habove
    rcases at_profilePlan habove with rfl | rfl <;> decide
  · exact ⟨_, _, by simp, hprofile, by decide⟩

end RelQuery
