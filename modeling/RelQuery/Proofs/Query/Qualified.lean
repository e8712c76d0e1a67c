import RelQuery.Proofs.Condition.Places
import RelQuery.Proofs.Query.Positional

/-!
# Qualified columns

As soon as a second table stands in a select, a bare name may be a column of either.  So nothing is
left bare then: wherever a column is written without a table, the place that it is written at knows
one.  Only what is taken over as it stands can be without a table: the name that a column is
compared with, and the name that the select list gave to one of its entries.

* `Predicate.columns` and `Source.columns` are all columns that are compared.
* `Counterpart.columnText?` is the text that a column is compared with, where it names another one.
* `Conditions.NamesTables` says that these texts name their tables; `Statement.NamesTables` says so
  of all conditions of a select.
* **`Conditions.isQualified_of_predicate`** — then all columns of a condition are qualified, in the
  scope of a table.
* **`Statement.isQualified_of_selectQuery`** — and all columns of a select with a join.
* **`Link.namesTables_join`** — the joins of relations name tables as far as their own conditions do.
-/

namespace RelQuery

/-! ## Columns in order -/

section Columns

variable {ρ : Type}

def Atom.columns : Atom ρ → List Identifier
  | column c => [c]
  | literal _ => []
  | param _ => []

/-- The columns of a right-hand side. -/
def Side.columns : Side ρ → List Identifier
  | one a => a.columns
  | many items => items.flatMap Atom.columns

/-- The column of a comparison, and those that it is compared with. -/
def Comparison.columns (c : Comparison ρ) : List Identifier := c.column :: c.side.columns

/-- The columns of a predicate, in the order of the text. -/
def Predicate.columns (p : Predicate ρ) : List Identifier :=
  p.comparisons.flatMap Comparison.columns

/-- The columns that the joins and the filter of a source compare, in the order of the text. -/
def Source.columns (source : Source ρ) : List Identifier :=
  (source.joins.flatMap fun join => join.on.columns) ++ source.filter.columns

end Columns

/-- Naming the parameters leaves the columns as they are. -/
lemma Atom.columns_bind (a : Atom Slot) (start : Bindings) :
    (a.bind start).1.columns = a.columns := by
  cases a <;> rfl

lemma Comparison.columns_bind (c : Comparison Slot) (start : Bindings) :
    (c.bind start).1.columns = c.columns := by
  obtain ⟨column, op, side⟩ := c
  cases side with
  | one a => exact congrArg (column :: ·) (a.columns_bind start)
  | many items => exact congrArg (column :: ·) (flatMap_mapM Atom.columns_bind items start)

lemma Predicate.columns_bind (p : Predicate Slot) (start : Bindings) :
    (p.bind start).1.columns = p.columns := by
  have hcomparisons : (p.bind start).1.comparisons
      = (p.comparisons.mapM Comparison.bind start).1 := congrArg Prod.fst (p.comparisons_bind start)
  rw [columns, hcomparisons]
  exact flatMap_mapM Comparison.columns_bind p.comparisons start

lemma Source.columns_bind (source : Source Slot) (start : Bindings) :
    (source.bind start).1.columns = source.columns := by
  have hjoins : (source.joins.mapM JoinItem.bind start).1.flatMap (fun join => join.on.columns)
      = source.joins.flatMap fun join => join.on.columns :=
    flatMap_mapM (fun join start => join.on.columns_bind start) source.joins start
  show (source.joins.mapM JoinItem.bind start).1.flatMap (fun join => join.on.columns)
    ++ (source.filter.bind (source.joins.mapM JoinItem.bind start).2).1.columns = _
  rw [hjoins, Predicate.columns_bind, columns]

/-! ## Names with tables -/

namespace Identifier

/-- A column with its table. -/
def IsQualified (identifier : Identifier) : Prop := 2 ≤ identifier.parts.length

/-- A text that names a table is read as a column with its table. -/
lemma isQualified_of_parse {s : String} {identifier : Identifier} (h : parse s = .ok identifier)
    (hs : Scope.isQualified s = true) : identifier.IsQualified := by
  obtain ⟨hdotted, htrim⟩ := (parse_eq_ok_iff s identifier).mp h
  obtain ⟨part, rest, hparts⟩ := List.exists_cons_of_ne_nil hdotted.ne_nil
  rw [IsQualified, hparts]
  cases rest with
  | cons next rest => exact Nat.le_add_left 2 rest.length
  | nil =>
      -- a single part has no point in it
      rw [← Scope.isQualified_trim, htrim, hparts, String.intercalate_singleton,
        Scope.isQualified, List.contains_iff_mem] at hs
      exact absurd hs (hdotted.not_mem part (hparts ▸ List.mem_singleton_self part))

lemma isQualified_point (table name : String) :
    Scope.isQualified (table ++ "." ++ name) = true := by
  simp [Scope.isQualified]

lemma isQualified_of_column {table name : String} {identifier : Identifier}
    (h : column (some table) name = .ok identifier) : identifier.IsQualified := by
  rw [column] at h
  exact isQualified_of_parse h (isQualified_point table name)

end Identifier

/-! ## Conditions -/

/-- The text of a counterpart, where it is read as a column. -/
def Counterpart.columnText? (parameterize : Bool) : Counterpart → Option String
  | value _ (.str s) => if parameterize then none else some s
  | value _ _ => none
  | column _ name => some name
  | values _ => none

/-- The texts that columns are compared with name their tables, where they name columns. -/
def Conditions.NamesTables (c : Conditions) (scope : Scope) : Prop :=
  ∀ text ∈ (scope.origins [] c.entries).filterMap fun origin =>
      origin.counterpart.columnText? scope.parameterize,
    Scope.isQualified text = true

instance (c : Conditions) (scope : Scope) : Decidable (c.NamesTables scope) :=
  inferInstanceAs (Decidable (∀ text ∈ List.filterMap _ _, _))

namespace Scope

variable {scope : Scope} {field : String}

lemma isQualified_of_columnOf {column : Identifier} (h : scope.columnOf field = .ok column)
    (htable : scope.defaultTable ≠ none) : column.IsQualified := by
  rw [columnOf] at h
  split at h
  · next hfield => exact Identifier.isQualified_of_parse h hfield
  · obtain ⟨table, hsome⟩ := Option.ne_none_iff_exists'.mp htable
    rw [hsome] at h
    exact Identifier.isQualified_of_column h

/-- A value that is compared with is a column only as a text, and only if it is no parameter. -/
lemma exists_parse_of_atomOf {v : Value} {a : Atom Slot} (h : scope.atomOf field v = .ok a)
    (op : Operator) : ∀ column ∈ a.columns, ∃ text,
      (Counterpart.value op v).columnText? scope.parameterize = some text
        ∧ Identifier.parse text = .ok column := by
  rcases atomOf_cases h with ⟨-, rfl⟩ | ⟨hparameterize, ⟨s, other, rfl, hother, rfl⟩ | ⟨-, rfl⟩⟩
  · exact fun _ hmem => absurd hmem List.not_mem_nil
  · intro column hmem
    obtain rfl := List.mem_singleton.mp hmem
    exact ⟨s, if_neg (by simp [hparameterize]), hother⟩
  · exact fun _ hmem => absurd hmem List.not_mem_nil

/-- The columns on the right of a comparison are those that the counterpart names. -/
lemma exists_parse_of_compare {counterpart : Counterpart} {c : Comparison Slot}
    (h : scope.compare field counterpart = .ok c) :
    ∀ column ∈ c.side.columns, ∃ text,
      counterpart.columnText? scope.parameterize = some text
        ∧ Identifier.parse text = .ok column := by
  cases counterpart with
  | value op v =>
      obtain ⟨own, -, ⟨-, rfl⟩ | ⟨-, a, ha, rfl⟩⟩ := compareValue_cases h
      · exact fun _ hmem => absurd hmem List.not_mem_nil
      · have hside : (sideOf op a).columns = a.columns := by
          rw [sideOf]
          split
          · exact List.flatMap_singleton _ _
          · rfl
        rw [hside]
        exact exists_parse_of_atomOf ha op
  | column op name =>
      obtain ⟨own, other, -, hother, rfl⟩ := compareColumn_cases h
      intro column hmem
      obtain rfl := List.mem_singleton.mp hmem
      exact ⟨name, rfl, hother⟩
  | values items =>
      obtain ⟨own, values, -, -, rfl⟩ := compareList_cases h
      have hnone : (Side.many (values.map Atom.literal) : Side Slot).columns = [] := by
        simp [Side.columns, Atom.columns, List.flatMap_map]
      intro column hmem
      rw [hnone] at hmem
      exact absurd hmem List.not_mem_nil

/-- With a table to go by, there is one at every place. -/
lemma tableAt_ne_none (htable : scope.defaultTable ≠ none) (path : List Enclosure) :
    scope.tableAt path ≠ none := by
  induction path with
  | nil => exact htable
  | cons enclosure outer ih =>
      cases enclosure with
      | group => exact ih
      | nested key =>
          rw [tableAt]
          split
          · exact Option.some_ne_none _
          · exact ih

/-- All columns of a comparison are qualified, wherever it stands. -/
lemma Yields.isQualified {c : Comparison Slot} {origin : Origin} (h : scope.Yields c origin)
    (htable : scope.defaultTable ≠ none)
    (hside : ∀ text, origin.counterpart.columnText? scope.parameterize = some text →
      isQualified text = true) :
    ∀ column ∈ c.columns, column.IsQualified := by
  obtain ⟨field, -, hcompare⟩ := h
  refine List.forall_mem_cons.mpr ⟨?_, fun column hmem => ?_⟩
  · exact isQualified_of_columnOf (columnOf_of_compare hcompare)
      (tableAt_ne_none htable origin.site.path)
  · obtain ⟨text, htext, hparse⟩ := exists_parse_of_compare hcompare column hmem
    exact Identifier.isQualified_of_parse hparse (hside text htext)

end Scope

/-- **All columns of a condition are qualified, in the scope of a table**, if the texts that columns
are compared with name their tables. -/
theorem Conditions.isQualified_of_predicate {c : Conditions} {scope : Scope}
    {p : Predicate Slot} (h : c.predicate scope = .ok p) (htable : scope.defaultTable ≠ none)
    (hsides : c.NamesTables scope) : ∀ column ∈ p.columns, column.IsQualified := by
  have hyields : List.Forall₂ scope.Yields p.comparisons (scope.origins [] c.entries) :=
    Scope.yields_of_links c.entries [] scope (.refl scope) none p.links (predicate_eq_ok.mp h)
  have hsides : ∀ origin ∈ scope.origins [] c.entries, ∀ text,
      origin.counterpart.columnText? scope.parameterize = some text →
        Scope.isQualified text = true :=
    fun origin horigin text htext => hsides text (List.mem_filterMap.mpr ⟨origin, horigin, htext⟩)
  -- what is known of each origin goes over to the comparison that it yields
  have hall := ((List.forall₂_and_left _ _).mpr ⟨hsides, hyields.flip⟩).flip
  rw [Predicate.columns, List.forall_mem_flatMap]
  refine ((List.forall₂_and_left _ _).mp (hall.imp fun c origin h => ⟨?_, h⟩)).1
  exact Scope.Yields.isQualified h.2 htable h.1

/-! ## Selects -/

section Selects

variable {statement : Statement} {plan : Plan} {frame : Frame}

/-- The scope of the conditions of a select. -/
def Frame.filterScope (frame : Frame) : Scope :=
  { defaultTable := frame.qualifier, joined := frame.joined }

/-- The scope of the condition of a join: a bare name is a column of the joined table, and a text
names a column. -/
def Frame.joinScope (frame : Frame) (join : Join) : Scope :=
  { defaultTable := some join.aliasName, parameterize := false, joined := frame.joined }

/-- In all conditions of a select the texts that columns are compared with name their tables, where
they name columns. -/
structure Statement.NamesTables (statement : Statement) (frame : Frame) : Prop where
  filter : statement.conditions.NamesTables frame.filterScope
  joins : ∀ join ∈ frame.joins, join.on.NamesTables (frame.joinScope join)

lemma Frame.qualifier_eq_some (hjoins : frame.joins ≠ []) :
    frame.qualifier = some frame.main := by
  rw [qualifier, if_neg (by simpa using hjoins)]

/-- With a join, an entry of the select list is a qualified column, or else an expression that is
taken as it is. -/
lemma Field.isQualified_of_item {field : Field} {item : SelectItem}
    (h : field.item frame = .ok item) (hjoins : frame.joins ≠ []) :
    (∃ c, item.selected = .column c ∧ c.IsQualified)
      ∨ ∃ text, field.name = .raw text ∧ item.selected = .raw text := by
  obtain ⟨-, hraw | ⟨c, hselected, hcases⟩⟩ := cases_of_item h
  · exact .inr hraw
  refine .inl ⟨c, hselected, ?_⟩
  rcases hcases with ⟨-, hc⟩ | ⟨name, -, hc⟩
  · exact Identifier.isQualified_of_parse hc (by simp [Scope.isQualified])
  · rw [Frame.qualifier_eq_some hjoins] at hc
    obtain ⟨table, htable⟩ : ∃ table, (field.table <|> some frame.main) = some table := by
      cases field.table <;> exact ⟨_, rfl⟩
    rw [htable] at hc
    exact Identifier.isQualified_of_column hc

namespace Statement

/-- With a join, all columns that the source of a select compares are qualified. -/
lemma isQualified_of_source {source : Source Slot} (h : statement.source frame = .ok source)
    (hjoins : frame.joins ≠ []) (hsides : statement.NamesTables frame) :
    ∀ column ∈ source.columns, column.IsQualified := by
  obtain ⟨table, -, h⟩ := bind_eq_ok.mp h
  obtain ⟨name, -, h⟩ := bind_eq_ok.mp h
  obtain ⟨aliasName, -, h⟩ := bind_eq_ok.mp h
  obtain ⟨joins, hitems, h⟩ := bind_eq_ok.mp h
  obtain ⟨filter, hfilter, h⟩ := bind_eq_ok.mp h
  obtain rfl := return_eq_ok.mp h
  refine List.forall_mem_append.mpr ⟨List.forall_mem_flatMap.mpr fun item hitem => ?_, ?_⟩
  · obtain ⟨join, hjoin, hitem⟩ := exists_of_mem_mapM hitems hitem
    exact Conditions.isQualified_of_predicate (Join.exists_of_item hitem).2
      (Option.some_ne_none _) (hsides.joins join hjoin)
  · refine Conditions.isQualified_of_predicate hfilter ?_ hsides.filter
    show frame.qualifier ≠ none
    rw [Frame.qualifier_eq_some hjoins]
    exact Option.some_ne_none _

/-- With a join, a column to sort by is qualified, unless it is the name of an entry of the select
list. -/
lemma isQualified_of_orderItem {fields : List Field} {items : List SelectItem} {term : OrderTerm}
    {item : OrderItem} (h : orderItem frame fields term = .ok item) (hjoins : frame.joins ≠ [])
    (hitems : fields.mapM (Field.item frame) = .ok items) :
    item.column.IsQualified ∨ ∃ selected ∈ items, selected.aliasName = some item.column := by
  rw [orderItem, Frame.qualifier_eq_some hjoins] at h
  split at h
  · next hknown =>
      obtain ⟨column, hcolumn, h⟩ := bind_eq_ok.mp h
      obtain rfl := return_eq_ok.mp h
      rcases Bool.or_eq_true_iff.mp hknown with hqualified | halias
      · exact .inl (Identifier.isQualified_of_parse hcolumn hqualified)
      · rw [List.contains_iff_mem, List.mem_filterMap] at halias
        obtain ⟨field, hfield, halias⟩ := halias
        obtain ⟨selected, hselected, hitem⟩ := exists_mem_of_mapM hitems hfield
        refine .inr ⟨selected, hselected, ?_⟩
        obtain ⟨hnamed, -⟩ := Field.cases_of_item hitem
        rw [halias] at hnamed
        have hparsed : (some term.field).mapM Identifier.parse = .ok (some column) := by
          rw [Option.mapM_some, hcolumn]
          rfl
        exact Except.ok.inj (hnamed.symm.trans hparsed)
  · obtain ⟨column, hcolumn, h⟩ := bind_eq_ok.mp h
    obtain rfl := return_eq_ok.mp h
    exact .inl (Identifier.isQualified_of_column hcolumn)

/-- **Once anything is joined, no column is left bare.**  Every entry of the select list is a
qualified column, or an expression that was asked for; every column in the joins and in the filter
is qualified, however deep it stands; and so is every column to sort by, unless it is a name that
the select list gives. -/
theorem isQualified_of_selectQuery {query : Query Slot}
    (h : statement.selectQuery plan = .ok query) (hframe : statement.frame plan = .ok frame)
    (hjoins : frame.joins ≠ []) (hsides : statement.NamesTables frame) :
    ∃ items source order,
      (query.bind .empty).1 = .select items source order statement.limit
      ∧ (∀ dialect, (query.prepare dialect).sql
        = (Query.select items source order statement.limit).text dialect)
      ∧ (∀ item ∈ items, (∃ c, item.selected = .column c ∧ c.IsQualified)
        ∨ ∃ field ∈ statement.fields ++ plan.fields, ∃ text,
          field.name = .raw text ∧ item.selected = .raw text)
      ∧ (∀ column ∈ source.columns, column.IsQualified)
      ∧ ∀ term ∈ order, term.column.IsQualified
        ∨ ∃ item ∈ items, item.aliasName = some term.column := by
  obtain ⟨frame', hframe', h⟩ := bind_eq_ok.mp h
  obtain rfl := Except.ok.inj (hframe.symm.trans hframe')
  obtain ⟨items, hitems, h⟩ := bind_eq_ok.mp h
  obtain ⟨source, hsource, h⟩ := bind_eq_ok.mp h
  obtain ⟨order, horder, h⟩ := bind_eq_ok.mp h
  obtain rfl := return_eq_ok.mp h
  refine ⟨items, (source.bind .empty).1, order, rfl, fun _ => rfl, fun item hitem => ?_, ?_,
    fun term hterm => ?_⟩
  · obtain ⟨field, hfield, hitem⟩ := exists_of_mem_mapM hitems hitem
    refine (Field.isQualified_of_item hitem hjoins).imp_right ?_
    rintro ⟨text, hname, hselected⟩
    have hasked : ∀ field ∈ statement.selectFields plan frame, ∀ text, field.name = .raw text →
        ∃ own ∈ statement.fields ++ plan.fields, own.name = .raw text :=
      forall_selectFields (fun _ _ => FieldName.noConfusion) (fun _ _ => FieldName.noConfusion)
        (fun own hown _ hname => ⟨own, hown, hname⟩) frame
    obtain ⟨own, hown, hraw⟩ := hasked field hfield text hname
    exact ⟨own, hown, text, hraw, hselected⟩
  · rw [Source.columns_bind]
    exact isQualified_of_source hsource hjoins hsides
  · obtain ⟨term, -, hitem⟩ := exists_of_mem_mapM horder hterm
    exact isQualified_of_orderItem hitem hjoins hitems

end Statement

end Selects

/-! ## Joins of relations -/

lemma Scope.origins_append (scope : Scope) (path : List Enclosure) (as bs : List Entry) :
    scope.origins path (as ++ bs) = scope.origins path as ++ scope.origins path bs := by
  induction as with
  | nil => rfl
  | cons entry as ih =>
      cases entry with
      | connector c => exact ih
      | clause key op operand => rw [List.cons_append, origins, ih, origins, List.append_assoc]
      | group inner => rw [List.cons_append, origins, ih, origins, List.append_assoc]

/-- Connectors compare nothing. -/
lemma Scope.origins_of_isEmpty {c : Conditions} (h : c.isEmpty = true) (scope : Scope)
    (path : List Enclosure) : scope.origins path c.entries = [] := by
  obtain ⟨entries⟩ := c
  induction entries with
  | nil => rfl
  | cons entry entries ih =>
      rw [Conditions.isEmpty, List.all_cons, Bool.and_eq_true] at h
      cases entry with
      | connector c => exact ih h.2
      | clause key op operand => cases h.1
      | group inner => cases h.1

/-- An extended condition names its tables if both parts do. -/
lemma Conditions.namesTables_extend (a b : Conditions) (scope : Scope) :
    (a.extend b).NamesTables scope ↔ a.NamesTables scope ∧ b.NamesTables scope := by
  have horigins : scope.origins [] (a.extend b).entries
      = scope.origins [] a.entries ++ scope.origins [] b.entries := by
    rw [extend]
    split
    · next hempty => rw [Scope.origins_of_isEmpty hempty, List.append_nil]
    · split
      · exact scope.origins_append [] a.entries b.entries
      · exact scope.origins_append [] a.entries (.connector .and :: b.entries)
  rw [NamesTables, horigins, List.filterMap_append, List.forall_mem_append]
  rfl

/-- The condition that is inferred for a relation has a table in front of both columns. -/
lemma Link.namesTables_inferredCondition (link : Link) (naming : Naming)
    (parentAlias parentTable : String) (scope : Scope) :
    (link.inferredCondition naming parentAlias parentTable).NamesTables scope := by
  have hcolumn : ∀ key name : String,
      (Conditions.empty.column key (parentAlias ++ "." ++ name)).NamesTables scope := by
    intro key name text htext
    obtain rfl := List.mem_singleton.mp htext
    exact Identifier.isQualified_point parentAlias name
  rw [inferredCondition]
  split
  · exact hcolumn _ _
  · exact hcolumn _ _

/-- **The join of a relation names its tables as far as the conditions do that were declared for
it.** -/
theorem Link.namesTables_join (link : Link) (naming : Naming) (parentAlias parentTable : String)
    (scope : Scope) : (link.join naming parentAlias parentTable).on.NamesTables scope
      ↔ (link.replacement.getD (link.conditions.getD .empty)).NamesTables scope := by
  have hempty : Conditions.empty.NamesTables scope := fun _ h => absurd h List.not_mem_nil
  show (Conditions.empty.extend (link.joinCondition naming parentAlias parentTable)).NamesTables
    scope ↔ _
  rw [Conditions.namesTables_extend, joinCondition, and_iff_right hempty]
  cases link.replacement with
  | some replacement => rfl
  | none =>
      show ((link.inferredCondition naming parentAlias parentTable).extend
        (link.conditions.getD .empty)).NamesTables scope ↔ _
      rw [Conditions.namesTables_extend, and_iff_right
        (link.namesTables_inferredCondition naming parentAlias parentTable scope)]
      rfl

namespace Sample

/-- Movies with an author and a studio, the one joined by hand and the other as a relation. -/
def movies : Statement where
  activity := .select
  table := some ⟨"movies", some "m"⟩
  fields := [{ name := .column "title", aliasName := some "heading" }, { name := .all }]
  conditions := (Conditions.empty.eq "year" (.scalar (.ofNat 1999))).nested "a"
    (Conditions.empty.column "name" "m.editor")
  joins := [⟨"authors", "a", .left, Conditions.empty.eq "id" (.scalar (.str "m.author_id"))⟩]
  order := [⟨"heading", .asc⟩, ⟨"year", .desc⟩]

/-- The studio of a movie. -/
def studios : Link := { mode := .belongsTo, aliasName := "s", table := "studios" }

/-- What the studio adds to the select. -/
def moviesPlan : Plan where
  joins := [studios.join (.verbatim "_id") "m" "movies"]
  fields := [Plan.fieldOf "s" "name"]

end Sample

open Sample in
set_option maxRecDepth 4000 in
/-- The heading of a movie is left bare, because the select list names it. -/
theorem Statement.isQualified_of_movies :
    let frame : Frame := ⟨"m", movies.joins ++ moviesPlan.joins⟩
    movies.frame moviesPlan = .ok frame ∧ frame.joins ≠ [] ∧ movies.NamesTables frame
    ∧ ∃ query items source order, movies.selectQuery moviesPlan = .ok query
      ∧ (query.bind .empty).1 = .select items source order none
      ∧ (∀ item ∈ items, ∃ c, item.selected = .column c ∧ c.IsQualified)
      ∧ (∀ column ∈ source.columns, column.IsQualified)
      ∧ (query.prepare .sqlite).sql =
        "SELECT \"m\".\"title\" AS \"heading\", \"m\".*, \"a\".*, " ++
          "\"s\".\"name\" AS \"__contain_s__name\" FROM \"movies\" AS \"m\" " ++
          "LEFT JOIN \"authors\" AS \"a\" ON \"a\".\"id\" = \"m\".\"author_id\" " ++
          "LEFT JOIN \"studios\" AS \"s\" ON \"s\".\"id\" = \"m\".\"studios_id\" " ++
          "WHERE \"m\".\"year\" = :cnd_m_year AND \"a\".\"name\" = \"m\".\"editor\" " ++
          "ORDER BY \"heading\" ASC, \"m\".\"year\" DESC" := by
  intro frame
  have hframe : movies.frame moviesPlan = .ok frame := rfl
  have hsides : movies.NamesTables frame := by
    refine ⟨by decide, List.forall_mem_cons.mpr ⟨by decide, List.forall_mem_singleton.mpr ?_⟩⟩
    exact (studios.namesTables_join _ _ _ _).mpr fun _ h => absurd h List.not_mem_nil
  have hraw : ∀ field ∈ movies.fields ++ moviesPlan.fields, field.NoRaw := by
    simp [movies, moviesPlan, Plan.fieldOf, Field.NoRaw]
  obtain ⟨query, hquery, hsql⟩ : ∃ query, movies.selectQuery moviesPlan = .ok query
      ∧ (query.prepare .sqlite).sql = _ := ⟨_, rfl, rfl⟩
  obtain ⟨items, source, order, hnamed, -, hitems, hsource, -⟩ :=
    isQualified_of_selectQuery hquery hframe (List.cons_ne_nil _ _) hsides
  refine ⟨hframe, List.cons_ne_nil _ _, hsides, query, items, source, order, hquery, hnamed,
    fun item hitem => ?_, hsource, hsql⟩
  rcases hitems item hitem with hcolumn | ⟨field, hfield, text, hname, -⟩
  · exact hcolumn
  · exact absurd hname (hraw field hfield text)

end RelQuery
