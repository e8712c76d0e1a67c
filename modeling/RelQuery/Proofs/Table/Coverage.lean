import RelQuery.Proofs.Condition.KeyName
import RelQuery.Proofs.Plan.Keys
import RelQuery.Proofs.Query.Positional
import RelQuery.Proofs.Table.Selection

/-!
# Which columns a fetch selects

A mode reads some columns from the rows that a fetch selects.  Without a list of fields all columns of
the table are there.  With one, a fetch adds what the mode reads in the modes that read a key or a
single value, and leaves the list as it is for the values of a column.

* `FetchMode.AddsColumns` are the modes of the first kind.
* `SelectItem.Brings` says that an entry of a select list brings a column into the rows.
* **`Statement.anyCovers_selectFields_iff`** — a select list covers what its fields cover, the keys
  that deferred relations read, and everything if there are no fields.
* **`Table.covers_reads_iff`** — so a fetch covers what its mode reads exactly if the mode adds it,
  the fields cover it anyway, or a relation needs it; and what is covered is brought.
-/

namespace RelQuery

open Session Identifier

variable {σ : Type} {table column : String}

/-! ## Names of one word -/

namespace Identifier

/-- A name is read in its parts. -/
lemma parse_intercalate {parts : List String} (h : Dotted parts) :
    parse (".".intercalate parts) = .ok ⟨parts⟩ :=
  (parse_eq_ok_iff _ _).mpr ⟨h, trim_eq_self h.isNameChar⟩

lemma IsWord.parse_eq (h : IsWord column) : parse column = .ok ⟨[column]⟩ := by
  simpa using parse_intercalate (.word h)

lemma IsWord.parse_all (h : IsWord table) : parse (table ++ ".*") = .ok ⟨[table, "*"]⟩ := by
  have hparse := parse_intercalate (.more h .all)
  rwa [String.intercalate_cons_cons, String.intercalate_singleton, String.append_assoc] at hparse

lemma IsWord.parse_point (h : IsWord table) (hcolumn : IsWord column) :
    parse (table ++ "." ++ column) = .ok ⟨[table, column]⟩ := by
  have hparse := parse_intercalate (.more h (.word hcolumn))
  rwa [String.intercalate_cons_cons, String.intercalate_singleton] at hparse

end Identifier

/-- A table of one word has no other name. -/
lemma TableRef.parse_of_isWord (h : IsWord table) : TableRef.parse table = ⟨table, none⟩ := by
  have hwords : Text.words table = [table] := by
    have hrun : Text.runsFrom Text.isBlank [] (table.toList ++ []) = table.toList :: [] :=
      Text.runsFrom_append (fun c hc => isBlank_of_isNameChar (h.isNameChar c hc)) (.inr h.ne_nil)
        (by simp)
    rw [List.append_nil] at hrun
    rw [Text.words, hrun]
    simp
  rw [TableRef.parse, hwords]
  simp [trim_eq_self h.isNameChar]

/-! ## Covered columns -/

namespace Field

/-- A column of a joined relation stands under a longer name than its own. -/
lemma not_covers_fieldOf (aliasName name : String) :
    (Plan.fieldOf aliasName name).covers table column true = false := by
  have hlonger : Plan.prefixed aliasName name ≠ name := by
    intro heq
    have hlength := congrArg String.length heq
    simp [Plan.prefixed] at hlength
  rw [Bool.eq_false_iff]
  intro hcovers
  simp only [covers, Plan.fieldOf, Bool.and_eq_true, beq_iff_eq, Option.all_some] at hcovers
  obtain ⟨⟨-, rfl⟩, halias⟩ := hcovers
  exact hlonger halias

end Field

namespace Statement

/-- Taking the bare star apart covers what the star covers. -/
lemma anyCovers_expandStar (statement : Statement) (frame : Frame) (column : String) :
    Field.anyCovers (statement.fields.flatMap (statement.expandStar frame)) frame.main column
      = Field.anyCovers statement.fields frame.main column := by
  have hfield (field : Field) : (statement.expandStar frame field).any
      (·.covers frame.main column true) = field.covers frame.main column true := by
    rw [expandStar]
    split
    · next hstar =>
        subst hstar
        simp [Field.covers, Field.allOf]
    · simp
  simp only [Field.anyCovers, List.any_flatMap, hfield]

/-- **What a select list covers**: everything if there are no fields, and otherwise what these cover
and the keys that deferred relations read.  The columns of joined relations add nothing to it. -/
theorem anyCovers_selectFields_iff {statement : Statement} {plan : Plan} {frame : Frame}
    {aliases : List String} (hplan : Plan.FieldsOf aliases plan.fields) :
    Field.anyCovers (statement.selectFields plan frame) frame.main column = true
      ↔ statement.fields = [] ∨ Field.anyCovers statement.fields frame.main column = true
        ∨ column ∈ plan.rootKeys := by
  have hjoined : plan.fields.any (·.covers frame.main column true) = false := by
    rw [List.any_eq_false]
    intro field hfield
    obtain ⟨aliasName, -, name, rfl⟩ := hplan field hfield
    rw [Field.not_covers_fieldOf]
    exact Bool.false_ne_true
  rw [selectFields, Field.anyCovers, List.any_append, hjoined, Bool.or_false, ← Field.anyCovers]
  split
  · next hnone =>
      exact iff_of_true (by simp [Field.anyCovers, Field.covers, Field.allOf])
        (.inl (by simpa using hnone))
  · next hsome =>
      have hne : statement.fields ≠ [] := by simpa using hsome
      rw [Field.anyCovers_foldl_ensure_iff, anyCovers_expandStar]
      simp [hne]

end Statement

/-! ## Columns in the rows -/

/-- An entry of a select list that brings a column of the main table into the rows, under its own
name. -/
inductive SelectItem.Brings (main column : String) : SelectItem → Prop
  /-- All columns of the table. -/
  | all (aliasName : Option Identifier) : Brings main column ⟨.column ⟨[main, "*"]⟩, aliasName⟩
  /-- The column, with its table or without. -/
  | column {parts : List String} {aliasName : Option Identifier}
      (hparts : parts = [column] ∨ parts = [main, column])
      (halias : ∀ name ∈ aliasName, name = ⟨[column]⟩) :
      Brings main column ⟨.column ⟨parts⟩, aliasName⟩
  /-- An expression that is given its name. -/
  | raw (text : String) : Brings main column ⟨.raw text, some ⟨[column]⟩⟩

/-- What a field covers is brought by its entry in the select list. -/
lemma Field.brings_of_covers {frame : Frame} {field : Field} {item : SelectItem}
    (hmain : IsWord frame.main) (hcolumn : IsWord column)
    (hcovers : field.covers frame.main column true = true) (h : field.item frame = .ok item) :
    item.Brings frame.main column := by
  obtain ⟨selected, aliasName⟩ := item
  obtain ⟨halias, ⟨text, hname, rfl⟩ | ⟨c, rfl, ⟨hname, hc⟩ | ⟨name, hname, hc⟩⟩⟩ := cases_of_item h
  · have hown : field.aliasName = some column := by simpa [covers, hname] using hcovers
    rw [hown, Option.mapM_some, hcolumn.parse_eq] at halias
    cases halias
    exact .raw text
  · have htable : field.table.getD frame.main = frame.main := by
      cases htable : field.table <;> simp_all [covers]
    rw [htable, hmain.parse_all] at hc
    cases hc
    exact .all aliasName
  · simp only [covers, hname, Bool.and_eq_true, beq_iff_eq] at hcovers
    obtain ⟨⟨hsame, rfl⟩, hnone⟩ := hcovers
    have hown : ∀ a ∈ aliasName, a = ⟨[name]⟩ := by
      cases hfield : field.aliasName with
      | none =>
          rw [hfield] at halias
          cases halias
          simp
      | some other =>
          obtain rfl : other = name := by simpa [hfield] using hnone
          rw [hfield, Option.mapM_some, hcolumn.parse_eq] at halias
          cases halias
          simp
    have htable : (field.table <|> frame.qualifier) = none
        ∨ (field.table <|> frame.qualifier) = some frame.main := by
      cases hfield : field.table with
      | none => by_cases hjoins : frame.joins.isEmpty <;> simp [Frame.qualifier, hjoins]
      | some other =>
          obtain rfl : other = frame.main := by simpa [hfield] using hsame
          exact .inr rfl
    have hparts : c = ⟨[name]⟩ ∨ c = ⟨[frame.main, name]⟩ := by
      rcases htable with htable | htable <;> rw [htable, Identifier.column] at hc
      · rw [hcolumn.parse_eq] at hc
        exact .inl (Except.ok.inj hc).symm
      · rw [hmain.parse_point hcolumn] at hc
        exact .inr (Except.ok.inj hc).symm
    rcases hparts with rfl | rfl
    · exact .column (.inl rfl) hown
    · exact .column (.inr rfl) hown

/-! ## What a fetch adds -/

namespace FetchMode

/-- A mode whose columns are added to the fields of a fetch. -/
def AddsColumns : FetchMode → Prop
  | .column _ | .columnUnique _ => False
  | _ => True

end FetchMode

namespace Table

variable {mode : FetchMode} {options : FetchOptions}

/-- The fields of a fetch cover what the mode reads if it adds that, or if they did so before. -/
lemma anyCovers_fetchFields_iff {table : Table} {fields : List Field} (hmode : mode.Projects)
    (h : table.fetchFields mode options = .ok fields) (hcolumn : column ∈ mode.reads) :
    fields = [] ∨ Field.anyCovers fields table.name column = true
      ↔ mode.AddsColumns ∨ options.fields = []
        ∨ Field.anyCovers options.fields table.name column = true := by
  obtain ⟨required, hrequired, h⟩ := bind_eq_ok.mp h
  obtain rfl := return_eq_ok.mp h
  have hadded {columns : List String} (hmem : column ∈ columns) : Field.anyCovers
      (columns.foldl (Field.ensure table.name) options.fields) table.name column = true :=
    Field.anyCovers_foldl_ensure_iff.mpr (.inr hmem)
  cases mode with
  | all | first | count => exact hmode.elim
  | id =>
      refine iff_of_true ?_ (.inl trivial)
      obtain rfl := Except.ok.inj hrequired
      split
      · exact .inr (hadded hcolumn)
      · next hnone => exact .inl (by simpa using hnone)
  | column field | columnUnique field =>
      cases hrequired
      simp [FetchMode.AddsColumns]
  | unique field =>
      cases hrequired
      exact iff_of_true (.inr (hadded hcolumn)) (.inl trivial)
  | combine values key =>
      refine iff_of_true (.inr (hadded ?_)) (.inl trivial)
      cases values with
      | nil => cases hrequired
      | cons value values =>
          cases hrequired
          exact hcolumn

/-- The select of a fetch has the fields of the fetch and its table. -/
lemma selection_eq_ok {table : Table} {statement : Statement}
    (h : table.selection mode options = .ok statement) :
    table.fetchFields mode options = .ok statement.fields
      ∧ statement.table = some table.reference := by
  obtain ⟨contained, -, h⟩ := bind_eq_ok.mp h
  obtain ⟨fields, hfields, h⟩ := bind_eq_ok.mp h
  obtain ⟨complete, hcomplete, h⟩ := bind_eq_ok.mp h
  obtain rfl := return_eq_ok.mp h
  obtain ⟨joined, hjoined, hcomplete⟩ := bind_eq_ok.mp hcomplete
  obtain ⟨-, rfl⟩ := Statement.foldlM_addRelation_eq_ok.mp hcomplete
  obtain rfl := Statement.eq_of_addJoins hjoined
  rw [hfields]
  cases mode <;> cases options.conditions <;> exact ⟨rfl, rfl⟩

/-- **Which columns a fetch covers.**  In a mode that makes another shape of the rows, a fetch that
gets as far as writing its select runs just that, and projects its rows.  The select list covers a
column that the mode reads exactly if the mode adds its columns, or there are no fields, or these
cover it anyway, or a deferred relation needs it as a key.  What is covered is brought by an entry of
the list.  So only the values of a column can be left out. -/
theorem covers_reads_iff (ctx : Context σ) {table : Table} (hname : IsWord table.name)
    (hmode : mode.Projects) (hreads : ∀ column ∈ mode.reads, IsWord column)
    {statement : Statement} (hselection : table.selection mode options = .ok statement)
    {prepared : Prepared} {plan : Plan} {s t : Session σ}
    (hprepare : statement.prepareSelect ctx s = (.ok (prepared, plan), t)) :
    (∀ engine, table.fetch ctx mode options engine
        = Engine.inSession (do
            Session.emit (.tableFetch table.name)
            mode.project ctx (← statement.resultSet ctx)) engine)
    ∧ ∃ frame items source order, statement.frame plan = .ok frame ∧ frame.main = table.name
      ∧ statement.selectQuery plan = .ok (.select items source order statement.limit)
      ∧ prepared = (Query.select items source order statement.limit).prepare ctx.dialect
      ∧ ∀ column ∈ mode.reads,
        (Field.anyCovers (statement.selectFields plan frame) table.name column = true
          ↔ mode.AddsColumns ∨ options.fields = []
            ∨ Field.anyCovers options.fields table.name column = true ∨ column ∈ plan.rootKeys)
        ∧ (Field.anyCovers (statement.selectFields plan frame) table.name column = true →
          ∃ item ∈ items, item.Brings table.name column) := by
  refine ⟨fun engine => fetch_of_selection ctx table engine hmode hselection, ?_⟩
  obtain ⟨hfields, htable⟩ := selection_eq_ok hselection
  obtain ⟨plan', u, hplan, h⟩ := run_bind_eq_ok.mp hprepare
  obtain ⟨query, v, hwritten, h⟩ := run_bind_eq_ok.mp h
  obtain ⟨hquery, rfl⟩ := run_ofExcept_eq_ok.mp hwritten
  obtain ⟨heq, -⟩ := run_pure_eq_ok.mp h
  obtain ⟨rfl, rfl⟩ := Prod.mk.inj heq
  obtain ⟨main, hmain, hplan⟩ := Statement.plan_eq_ok.mp hplan
  have hreference : main.reference = table.name := by
    rw [Statement.mainTable, htable] at hmain
    obtain rfl := Except.ok.inj hmain
    rw [reference, TableRef.parse_of_isWord hname]
    rfl
  have hframe : statement.frame plan' = .ok ⟨table.name, statement.joins ++ plan'.joins⟩ :=
    bind_eq_ok.mpr ⟨main, hmain, by rw [hreference]; rfl⟩
  obtain ⟨items, source, order, rfl, -⟩ :=
    Statement.exists_source_of_selectQuery_eq_ok hquery (rfl : plan'.joins = plan'.joins)
  refine ⟨_, items, source, order, hframe, rfl, hquery, rfl, fun column hcolumn => ⟨?_, ?_⟩⟩
  · have hplanned := Plan.makes_fields_ofRelations ctx true _ main s plan' u hplan
    have hadds := anyCovers_fetchFields_iff hmode hfields hcolumn
    refine (Statement.anyCovers_selectFields_iff hplanned).trans ?_
    rw [← or_assoc, hadds]
    tauto
  · intro hcovers
    obtain ⟨field, hfield, hcovers⟩ := List.any_eq_true.mp hcovers
    obtain ⟨item, hitem, hfield⟩ :=
      Statement.exists_item_of_mem_selectFields hframe hquery hfield
    exact ⟨item, hitem, Field.brings_of_covers hname (hreads column hcolumn) hcovers hfield⟩

end Table

namespace Sample

def people : Table := ⟨"users", []⟩

/-- A fetch of ids only. -/
def onlyIds : FetchOptions := { fields := [.column "id"] }

/-- The select of some columns of users. -/
def selecting (columns : List String) : Statement where
  activity := .select
  table := some ⟨"users", none⟩
  fields := columns.map Field.column

/-- The session in which a driver answers with the id of a user. -/
def nameless : Session (List (List Row)) := { connection := [[⟨[("id", .ofNat 1)]⟩]] }

end Sample

open Sample in
/-- The names of users by their ids are selected where only the ids are asked for.  The names alone
are not, and come out as null. -/
theorem Table.covers_of_onlyIds :
    IsWord people.name ∧ (∀ column ∈ (FetchMode.combine ["name"] "id").reads, IsWord column)
      ∧ people.selection (.combine ["name"] "id") onlyIds = .ok (selecting ["id", "name"])
      ∧ (∃ prepared plan t items source order,
        (selecting ["id", "name"]).prepareSelect ctx nameless = (.ok (prepared, plan), t)
        ∧ prepared.sql = "SELECT \x60id\x60, \x60name\x60 FROM \x60users\x60"
        ∧ prepared = (Query.select items source order none).prepare .mysql
        ∧ ∃ item ∈ items, item.Brings "users" "name")
      ∧ people.selection (.column "name") onlyIds = .ok (selecting ["id"])
      ∧ (∃ prepared plan t frame,
        (selecting ["id"]).prepareSelect ctx nameless = (.ok (prepared, plan), t)
        ∧ prepared.sql = "SELECT \x60id\x60 FROM \x60users\x60"
        ∧ (selecting ["id"]).frame plan = .ok frame
        ∧ Field.anyCovers ((selecting ["id"]).selectFields plan frame) "users" "name" = false)
      ∧ ∃ engine, people.fetch ctx (.column "name") onlyIds ⟨[], nameless⟩
        = (.ok (.values [.null]), engine) := by
  have huser : IsWord people.name := (partFault?_eq_none_iff _).mp rfl
  have hmode : (FetchMode.combine ["name"] "id").Projects := True.intro
  have hreads : ∀ column ∈ (FetchMode.combine ["name"] "id").reads, IsWord column := by
    simp only [← partFault?_eq_none_iff]
    decide
  have hcombine : people.selection (.combine ["name"] "id") onlyIds
      = .ok (selecting ["id", "name"]) := rfl
  have hcolumn : people.selection (.column "name") onlyIds = .ok (selecting ["id"]) := rfl
  refine ⟨huser, hreads, hcombine, ?_, hcolumn, ?_, ?_⟩
  · obtain ⟨prepared, plan, t, hprepare, hsql⟩ : ∃ prepared plan t,
        (selecting ["id", "name"]).prepareSelect ctx nameless = (.ok (prepared, plan), t)
        ∧ prepared.sql = "SELECT \x60id\x60, \x60name\x60 FROM \x60users\x60" :=
      ⟨_, _, _, rfl, rfl⟩
    obtain ⟨-, frame, items, source, order, -, -, -, hprepared, hall⟩ :=
      covers_reads_iff ctx huser hmode hreads hcombine hprepare
    obtain ⟨hcovers, hbrings⟩ := hall "name" List.mem_cons_self
    exact ⟨prepared, plan, t, items, source, order, hprepare, hsql, hprepared,
      hbrings (hcovers.mpr (.inl True.intro))⟩
  · exact ⟨_, _, _, ⟨"users", []⟩, rfl, rfl, rfl, rfl⟩
  · exact ⟨_, rfl⟩

end RelQuery
