import RelQuery.Proofs.Condition.Vacuous
import RelQuery.Proofs.Plan.Expansion
import RelQuery.Proofs.Query.Placeholders
import RelQuery.Query.Select
import RelQuery.Query.Write

/-!
# Statements with numbered parameters

A statement is written with names, and some databases want numbers.  The values that go with the
numbers are the bound ones, because the scan finds the names where they were written, and nothing
else.

* `Piece.source` is what a piece was scanned from, `Piece.marked` pieces with numbered placeholders.
* `Prepared.Matched` says that the placeholders of a text are the parameters that were bound.
* `Statement.Renders` are the five ways in which a statement is written.
* **`matched_prepare`** — every query without raw entries is matched.
* **`toPositional_of_renders`** — so every statement without raw fields is turned over completely.
-/

namespace RelQuery

open Piece

variable {dialect : Dialect}

/-! ## Matched statements -/

/-- A statement whose placeholders are its parameters: each of them once, in the order of binding.
The scan finds them where the database does, because both agree on what stands between quotes. -/
structure Prepared.Matched (dialect : Dialect) (prepared : Prepared) : Prop where
  nodup : prepared.bindings.names.Nodup
  names_scan : names (scan prepared.sql) = prepared.bindings.names
  inStep : ∀ cs, cs <+: prepared.sql.toList →
    InStep (Scanning.plain.after cs) (Word.Place.bare.after dialect cs)

lemma Query.noRaw_bind {query : Query Slot} (h : query.NoRaw) (start : Bindings) :
    (query.bind start).1.NoRaw := by
  cases query with
  | select items source order limit => exact h
  | count source => trivial
  | insert table values => trivial
  | update table values filter => trivial
  | delete table filter => trivial

/-- **Every query without raw entries is matched.** -/
theorem Query.matched_prepare (dialect : Dialect) {query : Query Slot} (h : query.NoRaw) :
    (query.prepare dialect).Matched dialect := by
  have hnames := query.names_bind
  have hreads : Reads dialect ((query.bind .empty).1.text dialect).toList
      (query.bind .empty).1.slots :=
    reads_text (noRaw_bind h .empty) (hnames.plain .empty)
  have hlead := hreads [] ends_nil
  rw [List.append_nil] at hlead
  refine ⟨hnames.nodup .empty List.nodup_nil, ?_, hlead.staysInStep fun cs hcs => ?_⟩
  · show names (scanFrom .plain ((query.bind .empty).1.text dialect).toList)
      = (query.bind .empty).2.names
    rw [hlead.names_eq, hnames.names_eq]
    exact List.append_nil _
  · rw [List.prefix_nil.mp hcs]
    rfl

/-! ## Pieces put together again -/

namespace Piece

/-- The characters that a piece was scanned from. -/
def source : Piece → List Char
  | copied c => [c]
  | placeholder name => ':' :: name.toList

/-- The characters of pieces, with the placeholders numbered on from `count`: the `n`-th of them is
written `mark n`. -/
def marked (mark : Nat → String) (count : Nat) : List Piece → List Char
  | [] => []
  | copied c :: pieces => c :: marked mark count pieces
  | placeholder _ :: pieces => (mark (count + 1)).toList ++ marked mark (count + 1) pieces

/-- What the scan has read of a piece that is not complete. -/
def Scanning.pending : Scanning → List Char
  | .plain | .quoted _ => []
  | .colon => [':']
  | .name collected => ':' :: collected.reverse

lemma source_plainStep (c : Char) :
    (plainStep c).1.flatMap source ++ (plainStep c).2.pending = [c] := by
  rw [plainStep]
  split
  · rfl
  split
  · next hcolon =>
      rw [hcolon]
      rfl
  · rfl

/-- One character is either in a piece that it completes or waits for more. -/
lemma source_step (state : Scanning) (c : Char) :
    (step state c).1.flatMap source ++ (step state c).2.pending = state.pending ++ [c] := by
  have hplain := source_plainStep c
  cases state with
  | plain => exact hplain
  | quoted quote =>
      rw [step]
      split <;> rfl
  | colon =>
      rw [step]
      split
      · next hcolon =>
          rw [hcolon]
          rfl
      split
      · rfl
      · exact congrArg (':' :: ·) hplain
  | name collected =>
      rw [step]
      split
      · simp [Scanning.pending]
      · show (source (named collected) ++ (plainStep c).1.flatMap source) ++ _ = _
        rw [List.append_assoc, hplain]
        simp [named, source, Scanning.pending]

/-- The pieces of a text are all of it, behind what had been read already. -/
lemma flatMap_source_scanFrom (state : Scanning) (cs : List Char) :
    (scanFrom state cs).flatMap source = state.pending ++ cs := by
  induction cs generalizing state with
  | nil => cases state <;> simp [scanFrom, source, named, Scanning.pending]
  | cons c cs ih =>
      rw [scanFrom, List.flatMap_append, ih, ← List.append_assoc, source_step, List.append_assoc]
      rfl

lemma flatMap_source_scan (sql : String) : (scan sql).flatMap source = sql.toList :=
  flatMap_source_scanFrom .plain sql.toList

end Piece

/-! ## Substitution -/

/-- Placeholders that are bound are replaced in order. -/
lemma Bindings.substitute_eq (bindings : Bindings) (mark : Nat → String)
    (pieces : List Piece) {values : List Value}
    (h : (Piece.names pieces).mapM bindings.get? = some values) (count : Nat) :
    bindings.substitute mark count pieces = .ok (marked mark count pieces, values) := by
  induction pieces generalizing values count with
  | nil =>
      cases h
      rfl
  | cons piece pieces ih =>
      cases piece with
      | copied c =>
          rw [substitute, ih h count]
          rfl
      | placeholder name =>
          rw [Piece.names, List.mapM_cons] at h
          obtain ⟨value, hvalue, h⟩ := Option.bind_eq_some_iff.mp h
          obtain ⟨rest, hrest, h⟩ := Option.bind_eq_some_iff.mp h
          cases h
          rw [substitute, hvalue]
          simp only [ih hrest (count + 1)]
          rfl

/-- A matched statement is turned over completely. -/
lemma Prepared.Matched.toPositional_eq {prepared : Prepared} (h : prepared.Matched dialect)
    (mark : Nat → String) : prepared.bindings.toPositional prepared.sql mark
      = .ok (String.ofList (marked mark 0 (scan prepared.sql)), prepared.bindings.values) := by
  have hvalues := Bindings.mapM_get?_names h.nodup
  rw [← h.names_scan] at hvalues
  rw [Bindings.toPositional, prepared.bindings.substitute_eq mark _ hvalues 0]
  rfl

/-! ## Statements without raw fields -/

/-- A field that is no expression. -/
def Field.NoRaw (field : Field) : Prop := ∀ text, field.name ≠ .raw text

namespace Statement

/-- The ways in which a statement is written as a query, with a plan for its relations. -/
inductive Renders (statement : Statement) (plan : Plan) (query : Query Slot) : Prop
  | select (h : statement.selectQuery plan = .ok query)
  | count (h : statement.countQuery plan = .ok query)
  | insert (h : statement.insertQuery = .ok query)
  | update (h : statement.updateQuery = .ok query)
  | delete (h : statement.deleteQuery = .ok query)

section Fields

variable {p : Field → Prop}

lemma forall_ensure (hcolumn : ∀ name, p (Field.column name)) {table : String}
    {fields : List Field} (h : ∀ field ∈ fields, p field) (column : String) :
    ∀ field ∈ Field.ensure table fields column, p field := by
  rw [Field.ensure]
  split
  · exact h
  · intro field hfield
    rcases List.mem_append.mp hfield with hfield | hfield
    · exact h field hfield
    · rw [List.mem_singleton.mp hfield]
      exact hcolumn column

/-- What holds of the fields that were asked for holds of the whole select list, as long as it holds
of what is added to them: a key, and all columns of a table. -/
lemma forall_selectFields {statement : Statement} {plan : Plan}
    (hall : ∀ table, p (Field.allOf table)) (hcolumn : ∀ name, p (Field.column name))
    (h : ∀ field ∈ statement.fields ++ plan.fields, p field) (frame : Frame) :
    ∀ field ∈ statement.selectFields plan frame, p field := by
  intro field hfield
  rcases List.mem_append.mp hfield with hfield | hfield
  · split at hfield
    · rw [List.mem_singleton.mp hfield]
      exact hall _
    · have hown : ∀ field ∈ statement.fields.flatMap (statement.expandStar frame), p field := by
        intro field hfield
        obtain ⟨own, hmem, hfield⟩ := List.mem_flatMap.mp hfield
        rw [expandStar] at hfield
        split at hfield
        · rcases List.mem_cons.mp hfield with rfl | hfield
          · exact hall _
          · obtain ⟨join, -, rfl⟩ := List.mem_map.mp hfield
            exact hall _
        · rw [List.mem_singleton.mp hfield]
          exact h own (List.mem_append_left _ hmem)
      -- the keys of deferred relations are added one by one
      have hkeys : ∀ (keys : List String) (fields : List Field), (∀ field ∈ fields, p field) →
          ∀ field ∈ keys.foldl (Field.ensure frame.main) fields, p field := by
        intro keys
        induction keys with
        | nil => exact fun _ hfields => hfields
        | cons key keys ih => exact fun fields hfields => ih _ (forall_ensure hcolumn hfields key)
      exact hkeys _ _ hown field hfield
  · exact h field (List.mem_append_right _ hfield)

end Fields

lemma noRaw_selectFields {statement : Statement} {plan : Plan}
    (h : ∀ field ∈ statement.fields ++ plan.fields, field.NoRaw) (frame : Frame) :
    ∀ field ∈ statement.selectFields plan frame, field.NoRaw :=
  forall_selectFields (fun _ _ => FieldName.noConfusion) (fun _ _ => FieldName.noConfusion) h frame

end Statement

/-- How an entry of the select list comes about. -/
lemma Field.cases_of_item {frame : Frame} {field : Field} {item : SelectItem}
    (h : field.item frame = .ok item) :
    field.aliasName.mapM Identifier.parse = .ok item.aliasName
      ∧ ((∃ text, field.name = .raw text ∧ item.selected = .raw text)
        ∨ ∃ c, item.selected = .column c
          ∧ ((field.name = .all
              ∧ Identifier.parse (field.table.getD frame.main ++ ".*") = .ok c)
            ∨ ∃ name, field.name = .column name
              ∧ Identifier.column (field.table <|> frame.qualifier) name = .ok c)) := by
  rw [Field.item] at h
  cases hname : field.name with
  | raw text =>
      rw [hname] at h
      obtain ⟨selected, hselected, h⟩ := bind_eq_ok.mp h
      obtain ⟨aliasName, halias, h⟩ := bind_eq_ok.mp h
      cases hselected
      cases h
      exact ⟨halias, .inl ⟨text, rfl, rfl⟩⟩
  | all =>
      rw [hname] at h
      obtain ⟨selected, hselected, h⟩ := bind_eq_ok.mp h
      obtain ⟨aliasName, halias, h⟩ := bind_eq_ok.mp h
      cases h
      obtain ⟨c, hc, rfl⟩ := map_eq_ok.mp hselected
      exact ⟨halias, .inr ⟨c, rfl, .inl ⟨rfl, hc⟩⟩⟩
  | column name =>
      rw [hname] at h
      obtain ⟨selected, hselected, h⟩ := bind_eq_ok.mp h
      obtain ⟨aliasName, halias, h⟩ := bind_eq_ok.mp h
      cases h
      obtain ⟨c, hc, rfl⟩ := map_eq_ok.mp hselected
      exact ⟨halias, .inr ⟨c, rfl, .inr ⟨name, rfl, hc⟩⟩⟩

lemma Field.exists_of_item {frame : Frame} {field : Field} {item : SelectItem}
    (h : field.item frame = .ok item) (hraw : field.NoRaw) : ∃ c, item.selected = .column c := by
  obtain ⟨-, ⟨text, hname, -⟩ | ⟨c, hselected, -⟩⟩ := cases_of_item h
  · exact absurd hname (hraw text)
  · exact ⟨c, hselected⟩

lemma Statement.noRaw_of_renders {statement : Statement} {plan : Plan} {query : Query Slot}
    (h : statement.Renders plan query)
    (hraw : ∀ field ∈ statement.fields ++ plan.fields, field.NoRaw) : query.NoRaw := by
  cases h with
  | select h =>
      obtain ⟨frame, -, h⟩ := bind_eq_ok.mp h
      obtain ⟨items, hitems, h⟩ := bind_eq_ok.mp h
      obtain ⟨source, -, h⟩ := bind_eq_ok.mp h
      obtain ⟨order, -, h⟩ := bind_eq_ok.mp h
      cases h
      intro item hitem
      obtain ⟨field, hfield, hitem⟩ := exists_of_mem_mapM hitems hitem
      exact Field.exists_of_item hitem (noRaw_selectFields hraw frame field hfield)
  | count h =>
      obtain ⟨frame, -, h⟩ := bind_eq_ok.mp h
      obtain ⟨source, -, h⟩ := bind_eq_ok.mp h
      cases h
      trivial
  | insert h =>
      obtain ⟨table, -, h⟩ := bind_eq_ok.mp h
      obtain ⟨writable, -, h⟩ := bind_eq_ok.mp h
      obtain ⟨values, -, h⟩ := bind_eq_ok.mp h
      obtain ⟨name, -, h⟩ := bind_eq_ok.mp h
      cases h
      trivial
  | update h =>
      obtain ⟨table, -, h⟩ := bind_eq_ok.mp h
      obtain ⟨writable, -, h⟩ := bind_eq_ok.mp h
      obtain ⟨values, -, h⟩ := bind_eq_ok.mp h
      obtain ⟨name, -, h⟩ := bind_eq_ok.mp h
      obtain ⟨filter, -, h⟩ := bind_eq_ok.mp h
      cases h
      trivial
  | delete h =>
      obtain ⟨-, name, p, -, rfl⟩ := Statement.exists_of_deleteQuery h
      trivial

/-! ## The result -/

/-- **Every statement without raw fields is turned over completely**: its text is the pieces that the
scan finds in it, and in their place stand the same pieces with the `n`-th placeholder written
`mark n`.  The values that go with the placeholders are the bound ones, each once and in the order of
binding.  Nothing between quotes is taken for a placeholder.  Relations never plan raw fields of their
own. -/
theorem toPositional_of_renders :
    (∀ (statement : Statement) (plan : Plan) (query : Query Slot), statement.Renders plan query →
      (∀ field ∈ statement.fields ++ plan.fields, field.NoRaw) →
      ∀ (dialect : Dialect) (mark : Nat → String),
        let prepared := query.prepare dialect
        prepared.Matched dialect
          ∧ (scan prepared.sql).flatMap Piece.source = prepared.sql.toList
          ∧ prepared.bindings.toPositional prepared.sql mark
            = .ok (String.ofList (marked mark 0 (scan prepared.sql)), prepared.bindings.values))
    ∧ ∀ (σ : Type) (ctx : Context σ) (withFields : Bool) (relations : List Relation)
        (main : TableRef),
        Session.Makes (Plan.ofRelations ctx withFields relations main)
          fun plan => ∀ field ∈ plan.fields, field.NoRaw := by
  refine ⟨fun statement plan query h hraw dialect mark => ?_,
    fun σ ctx withFields relations main s plan t hplan field hfield => ?_⟩
  · have hmatched := Query.matched_prepare dialect (Statement.noRaw_of_renders h hraw)
    exact ⟨hmatched, flatMap_source_scan _, hmatched.toPositional_eq mark⟩
  · obtain ⟨aliasName, -, column, rfl⟩ :=
      Plan.makes_fields_ofRelations ctx withFields relations main s plan t hplan field hfield
    exact fun _ => FieldName.noConfusion

/-- Colons, quotes and backslashes in a text of the condition do not mislead the scan. -/
theorem toPositional_select_with_text :
    let statement : Statement :=
      { activity := .select, table := some ⟨"t", none⟩, fields := [.column "id"],
        conditions :=
          (Conditions.empty.within "a" [.str "a's :b\\"]).eq "c" (.scalar (.str "x")) }
    ∃ query, statement.selectQuery {} = .ok query
      ∧ (query.prepare .mysql).sql =
        "SELECT \x60id\x60 FROM \x60t\x60 WHERE \x60a\x60 IN ('a''s :b\\\\') AND \x60c\x60 = :cnd_c"
      ∧ (query.prepare .mysql).bindings.toPositional (query.prepare .mysql).sql
          (fun n => "$" ++ toString n) = .ok
        ("SELECT \x60id\x60 FROM \x60t\x60 WHERE \x60a\x60 IN ('a''s :b\\\\') AND " ++
          "\x60c\x60 = $1", [.str "x"]) := by
  intro statement
  let query : Query Slot :=
    .select [⟨.column ⟨["id"]⟩, none⟩] ⟨⟨["t"]⟩, none, [], ⟨[
      (.and, .test ⟨⟨["a"]⟩, .within, .many [.literal (.str "a's :b\\")]⟩),
      (.and, .test ⟨⟨["c"]⟩, .eq, .one (.param ⟨"cnd_c", .str "x"⟩)⟩)]⟩⟩ [] none
  have hquery : statement.selectQuery {} = .ok query := rfl
  have hraw : ∀ field ∈ statement.fields ++ ({} : Plan).fields, field.NoRaw := by
    intro field hfield
    rw [List.mem_singleton.mp hfield]
    exact fun _ => FieldName.noConfusion
  obtain ⟨-, -, htext⟩ :=
    toPositional_of_renders.1 statement {} query (.select hquery) hraw .mysql fun n =>
      "$" ++ toString n
  have hmarked : marked (fun n => "$" ++ toString n) 0 (scan (query.prepare .mysql).sql)
      = ("SELECT \x60id\x60 FROM \x60t\x60 WHERE \x60a\x60 IN ('a''s :b\\\\') AND " ++
        "\x60c\x60 = $1").toList := by
    decide +kernel
  rw [hmarked, String.ofList_toList] at htext
  exact ⟨query, hquery, rfl, htext⟩

end RelQuery
