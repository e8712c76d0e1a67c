import Mathlib
import RelQuery.Plan.Folding

/-!
# What folding makes of a row

Folding takes columns out of a row one by one.  As long as no name is taken twice, the outcome can
be said without that: each relation becomes an object that reads its columns in the row as it was,
and the names that were read are gone.

* `Node.names` are the names that are taken, `Node.value` is what a relation becomes.
* **`Node.extract_fst`** and `Node.extract_snd` — extraction returns this value and erases these
  names.
* **`Row.get?_fold_of_mem`** — a folded row has the value of each relation under its alias.
* `Row.get?_fold_of_not_mem` — all other columns stay.
-/

namespace RelQuery

/-! ## Names -/

/-- Whether a name is the one that a column of a joined relation has in the parent row. -/
def Plan.IsPrefixed (name : String) : Prop :=
  ∃ aliasName column, name = Plan.prefixed aliasName column

lemma Plan.toList_of_isPrefixed {name : String} (h : Plan.IsPrefixed name) :
    "__contain_".toList <+: name.toList := by
  obtain ⟨aliasName, column, rfl⟩ := h
  rw [Plan.prefixed, String.append_assoc, String.append_assoc, String.toList_append]
  exact List.prefix_append _ _

namespace Node

mutual

/-- The names in the parent row that a relation is read from, with the relations under it. -/
def names : Node → List String
  | ⟨aliasName, columns, children⟩ => columns.map (Plan.prefixed aliasName) ++ namesOfAll children

/-- The names in the parent row that some relations are read from. -/
def namesOfAll : List Node → List String
  | [] => []
  | node :: nodes => names node ++ namesOfAll nodes

end

lemma mem_namesOfAll {nodes : List Node} {node : Node} (h : node ∈ nodes) {name : String}
    (hname : name ∈ node.names) : name ∈ namesOfAll nodes := by
  induction nodes with
  | nil => exact absurd h List.not_mem_nil
  | cons first nodes ih =>
      rw [namesOfAll, List.mem_append]
      rcases List.mem_cons.mp h with rfl | h
      · exact .inl hname
      · exact .inr (ih h)

lemma exists_of_mem_namesOfAll {nodes : List Node} {name : String} (h : name ∈ namesOfAll nodes) :
    ∃ node ∈ nodes, name ∈ node.names := by
  induction nodes with
  | nil => exact absurd h List.not_mem_nil
  | cons first nodes ih =>
      rw [namesOfAll, List.mem_append] at h
      rcases h with h | h
      · exact ⟨first, List.mem_cons_self, h⟩
      · exact (ih h).imp fun node hnode => ⟨List.mem_cons_of_mem _ hnode.1, hnode.2⟩

mutual

lemma isPrefixed_of_mem_names {name : String} :
    (node : Node) → name ∈ node.names → Plan.IsPrefixed name
  | ⟨aliasName, columns, children⟩, h => by
      rw [names, List.mem_append] at h
      rcases h with h | h
      · obtain ⟨column, -, rfl⟩ := List.mem_map.mp h
        exact ⟨aliasName, column, rfl⟩
      · exact isPrefixed_of_mem_namesOfAll children h

lemma isPrefixed_of_mem_namesOfAll {name : String} :
    (nodes : List Node) → name ∈ namesOfAll nodes → Plan.IsPrefixed name
  | [], h => absurd h List.not_mem_nil
  | node :: nodes, h => by
      rw [namesOfAll, List.mem_append] at h
      exact h.elim (isPrefixed_of_mem_names node) (isPrefixed_of_mem_namesOfAll nodes)

end

end Node

/-! ## Values -/

/-- The value of a column; null where the row lacks it. -/
def Row.read (row : Row) (name : String) : Value := (row.get? name).getD .null

namespace Node

/-- Whether one of some columns holds a value. -/
def anyValue (read : String → Value) (names : List String) : Bool :=
  names.any fun name => !(read name).isNull

/-- An object with the columns of a relation. -/
def ownColumns (read : String → Value) (aliasName : String) (columns : List String) (object : Row) :
    Row :=
  columns.foldl (fun object column => object.insert column (read (Plan.prefixed aliasName column)))
    object

mutual

/-- What a relation becomes: the object of its columns and of the relations under it, or null if
none of its own columns holds a value. -/
def value (read : String → Value) : Node → Value
  | ⟨aliasName, columns, children⟩ =>
    if anyValue read (columns.map (Plan.prefixed aliasName)) then
      (putAll read (ownColumns read aliasName columns .empty) children).toValue
    else .null

/-- An object with relations put under their aliases. -/
def putAll (read : String → Value) (object : Row) : List Node → Row
  | [] => object
  | node :: nodes => putAll read (object.insert node.aliasName (value read node)) nodes

end

section Congruence

variable {read read' : String → Value}

lemma anyValue_congr {names : List String} (h : ∀ name ∈ names, read name = read' name) :
    anyValue read names = anyValue read' names := by
  rw [anyValue, anyValue, Bool.eq_iff_iff, List.any_eq_true, List.any_eq_true]
  refine exists_congr fun name => and_congr_right fun hname => ?_
  rw [h name hname]

lemma ownColumns_congr {aliasName : String} {columns : List String}
    (h : ∀ name ∈ columns.map (Plan.prefixed aliasName), read name = read' name) (object : Row) :
    ownColumns read aliasName columns object = ownColumns read' aliasName columns object := by
  refine List.foldl_ext _ _ _ fun object column hcolumn => ?_
  rw [h _ (List.mem_map_of_mem hcolumn)]

mutual

/-- The value of a relation depends on the columns under its names only. -/
lemma value_congr : (node : Node) → (∀ name ∈ node.names, read name = read' name) →
    value read node = value read' node
  | ⟨aliasName, columns, children⟩, h => by
      simp only [names, List.forall_mem_append] at h
      rw [value, value, anyValue_congr h.1, ownColumns_congr h.1, putAll_congr children h.2]

lemma putAll_congr : (nodes : List Node) → (∀ name ∈ namesOfAll nodes, read name = read' name) →
    ∀ object, putAll read object nodes = putAll read' object nodes
  | [], _, object => by rw [putAll, putAll]
  | node :: nodes, h, object => by
      simp only [namesOfAll, List.forall_mem_append] at h
      rw [putAll, putAll, value_congr node h.1, putAll_congr nodes h.2]

end

end Congruence

end Node

/-! ## Extraction -/

/-- The row without some columns. -/
def Row.eraseAll (row : Row) (names : List String) : Row := names.foldl Row.erase row

lemma Row.eraseAll_append (row : Row) (names names' : List String) :
    row.eraseAll (names ++ names') = (row.eraseAll names).eraseAll names' := List.foldl_append

lemma Row.get?_eraseAll {names : List String} {name : String} (h : name ∉ names) (row : Row) :
    (row.eraseAll names).get? name = row.get? name := by
  induction names generalizing row with
  | nil => rfl
  | cons other names ih =>
      have hrest := ih (List.not_mem_of_not_mem_cons h) (row.erase other)
      exact hrest.trans (Row.get?_erase_of_ne (List.ne_of_not_mem_cons h) row)

lemma Row.read_eraseAll {names : List String} {name : String} (h : name ∉ names) (row : Row) :
    (row.eraseAll names).read name = row.read name := by
  rw [Row.read, Row.get?_eraseAll h, Row.read]

namespace Node

lemma extractColumns_fst (aliasName : String) (columns : List String) (row object : Row)
    (found : Bool) :
    (extractColumns aliasName columns row object found).1
      = row.eraseAll (columns.map (Plan.prefixed aliasName)) := by
  induction columns generalizing row object found with
  | nil => rfl
  | cons column columns ih => exact ih _ _ _

lemma extractColumns_snd {aliasName : String} {columns : List String}
    (h : (columns.map (Plan.prefixed aliasName)).Nodup) (row object : Row) (found : Bool) :
    (extractColumns aliasName columns row object found).2 =
      (ownColumns row.read aliasName columns object,
        found || anyValue row.read (columns.map (Plan.prefixed aliasName))) := by
  induction columns generalizing row object found with
  | nil => exact Prod.ext rfl (Bool.or_false found).symm
  | cons column columns ih =>
      obtain ⟨hfirst, hrest⟩ := List.nodup_cons.mp (List.map_cons .. ▸ h)
      -- The columns that follow are read in a row that lacks this one.
      have hread : ∀ name ∈ columns.map (Plan.prefixed aliasName),
          (row.erase (Plan.prefixed aliasName column)).read name = row.read name :=
        fun name hname => congrArg (Option.getD · Value.null)
          (Row.get?_erase_of_ne (ne_of_mem_of_not_mem hname hfirst) row)
      show (extractColumns aliasName columns (row.erase _) (object.insert column (row.read _))
        (found || !(row.read _).isNull)).2 = _
      rw [ih hrest, ownColumns_congr hread, anyValue_congr hread, Bool.or_assoc]
      rfl

mutual

/-- Extraction erases the names of a relation. -/
lemma extract_snd : (node : Node) → ∀ row, (extract node row).2 = row.eraseAll node.names
  | ⟨aliasName, columns, children⟩, row => by
      show (extractAll children _ _).2 = _
      rw [extractAll_snd children, extractColumns_fst, ← Row.eraseAll_append, names]

lemma extractAll_snd : (nodes : List Node) → ∀ object row,
    (extractAll nodes object row).2 = row.eraseAll (namesOfAll nodes)
  | [], _, _ => rfl
  | node :: nodes, object, row => by
      show (extractAll nodes _ _).2 = _
      rw [extractAll_snd nodes, extract_snd node, ← Row.eraseAll_append, namesOfAll]

end

mutual

/-- **Extraction reads the columns under the names of a relation**, if no name is taken twice. -/
theorem extract_fst : (node : Node) → node.names.Nodup → ∀ row,
    (extract node row).1 = value row.read node
  | ⟨aliasName, columns, children⟩, h, row => by
      obtain ⟨hown, hchildren, hdisjoint⟩ := List.nodup_append'.mp (names.eq_1 .. ▸ h)
      have hread : ∀ name ∈ namesOfAll children,
          (row.eraseAll (columns.map (Plan.prefixed aliasName))).read name = row.read name :=
        fun name hname => Row.read_eraseAll (fun hmem => hdisjoint hmem hname) row
      let own := extractColumns aliasName columns row .empty false
      show (if own.2.2 then (extractAll children own.2.1 own.1).1.toValue else .null) = _
      rw [extractAll_fst children hchildren, extractColumns_fst, putAll_congr children hread,
        extractColumns_snd hown, value, Bool.false_or]

lemma extractAll_fst : (nodes : List Node) → (namesOfAll nodes).Nodup → ∀ object row,
    (extractAll nodes object row).1 = putAll row.read object nodes
  | [], _, object, row => by rw [extractAll, putAll]
  | node :: nodes, h, object, row => by
      obtain ⟨hnode, hnodes, hdisjoint⟩ := List.nodup_append'.mp (namesOfAll.eq_2 .. ▸ h)
      have hread : ∀ name ∈ namesOfAll nodes, (row.eraseAll node.names).read name = row.read name :=
        fun name hname => Row.read_eraseAll (fun hmem => hdisjoint hmem hname) row
      show (extractAll nodes _ _).1 = _
      rw [extractAll_fst nodes hnodes, extract_snd, putAll_congr nodes hread,
        extract_fst node hnode, putAll]

end

/-! ## Lookups -/

section Lookups

variable {read : String → Value}

lemma get?_ownColumns (aliasName column : String) (columns : List String) (object : Row) :
    (ownColumns read aliasName columns object).get? column =
      if column ∈ columns then some (read (Plan.prefixed aliasName column))
      else object.get? column := by
  induction columns generalizing object with
  | nil => rfl
  | cons first columns ih =>
      show (ownColumns read aliasName columns (object.insert first _)).get? column = _
      rw [ih, Row.get?_insert]
      by_cases hmem : column ∈ columns
      · simp [hmem]
      · by_cases heq : column = first <;> simp [hmem, heq]

lemma get?_putAll_of_not_mem {nodes : List Node} {name : String}
    (h : name ∉ nodes.map Node.aliasName) (object : Row) :
    (putAll read object nodes).get? name = object.get? name := by
  induction nodes generalizing object with
  | nil => rw [putAll]
  | cons node nodes ih =>
      rw [putAll, ih (List.not_mem_of_not_mem_cons h), Row.get?_insert,
        if_neg (List.ne_of_not_mem_cons h)]

lemma get?_putAll_of_mem {nodes : List Node} (hnodup : (nodes.map Node.aliasName).Nodup)
    {node : Node} (h : node ∈ nodes) (object : Row) :
    (putAll read object nodes).get? node.aliasName = some (value read node) := by
  induction nodes generalizing object with
  | nil => exact absurd h List.not_mem_nil
  | cons first nodes ih =>
      obtain ⟨hfirst, hnodes⟩ := List.nodup_cons.mp hnodup
      rw [putAll]
      rcases List.mem_cons.mp h with rfl | h
      · rw [get?_putAll_of_not_mem hfirst, Row.get?_insert, if_pos rfl]
      · exact ih hnodes h _

/-- The object that a relation becomes, if it becomes one. -/
lemma eq_putAll_of_value_eq {node : Node} {object : Row} (h : value read node = object.toValue) :
    object = putAll read (ownColumns read node.aliasName node.columns .empty) node.children := by
  obtain ⟨aliasName, columns, children⟩ := node
  rw [value] at h
  split at h
  · exact congrArg Row.mk (Value.obj.inj h).symm
  · cases h

end Lookups

end Node

/-! ## Rows -/

namespace Row

variable {nodes : List Node}

lemma fold_cons (node : Node) (nodes : List Node) (row : Row) :
    Row.fold (node :: nodes) row =
      Row.fold nodes ((row.eraseAll node.names).insert node.aliasName (node.extract row).1) := by
  rw [← Node.extract_snd node]
  rfl

/-- **Folding keeps the columns that it has no part in.** -/
theorem get?_fold_of_not_mem {name : String} (hnames : name ∉ Node.namesOfAll nodes)
    (haliases : name ∉ nodes.map Node.aliasName) (row : Row) :
    (Row.fold nodes row).get? name = row.get? name := by
  induction nodes generalizing row with
  | nil => rfl
  | cons node nodes ih =>
      rw [Node.namesOfAll, List.mem_append, not_or] at hnames
      rw [fold_cons, ih hnames.2 (List.not_mem_of_not_mem_cons haliases), get?_insert,
        if_neg (List.ne_of_not_mem_cons haliases), get?_eraseAll hnames.1]

/-- **A folded row has each relation under its alias**, read from the row as it was. -/
theorem get?_fold_of_mem (hnames : (Node.namesOfAll nodes).Nodup)
    (haliases : (nodes.map Node.aliasName).Nodup)
    (hkept : nodes.Pairwise fun node later => node.aliasName ∉ later.names)
    {node : Node} (h : node ∈ nodes) (row : Row) :
    (Row.fold nodes row).get? node.aliasName = some (node.value row.read) := by
  induction nodes generalizing row with
  | nil => exact absurd h List.not_mem_nil
  | cons first nodes ih =>
      obtain ⟨hfirst, hnodes, hapart⟩ := List.nodup_append'.mp (Node.namesOfAll.eq_2 .. ▸ hnames)
      obtain ⟨hnot, hrest⟩ := List.nodup_cons.mp haliases
      obtain ⟨hhead, htail⟩ := List.pairwise_cons.mp hkept
      rw [fold_cons, Node.extract_fst first hfirst]
      rcases List.mem_cons.mp h with rfl | h
      · have hfree : node.aliasName ∉ Node.namesOfAll nodes := fun hname =>
          let ⟨later, hlater, hmem⟩ := Node.exists_of_mem_namesOfAll hname
          hhead later hlater hmem
        rw [get?_fold_of_not_mem hfree hnot, get?_insert, if_pos rfl]
      · rw [ih hnodes hrest htail h]
        -- What was taken out and put in for the first relation is no column of the others.
        refine congrArg some (Node.value_congr node fun name hname => ?_)
        have hmem := Node.mem_namesOfAll h hname
        have hne : name ≠ first.aliasName := fun heq => hhead node h (heq ▸ hname)
        rw [read, get?_insert, if_neg hne]
        exact read_eraseAll (fun hmem' => hapart hmem' hmem) row

end Row

end RelQuery
