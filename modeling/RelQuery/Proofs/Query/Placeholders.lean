import RelQuery.Proofs.Query.Slots
import RelQuery.Proofs.Reading.Placeholder
import RelQuery.Proofs.Reading.Written

/-!
# Placeholders in a written query

Whatever stands in a query besides its parameters, it is copied by the scan for placeholders: names
and texts stand between quotes, and the rest is written without colons.

* `Query.NoRaw` says that every entry of a select list is a column.  Expressions are written as they
  are, and could hold anything.
* **`Predicate.reads_text`** — in the text of a predicate the scan finds its parameters, in order.
* **`Query.reads_text`** — and so it does in the text of a query.
-/

namespace RelQuery

open Piece

variable {dialect : Dialect}

/-! ## Lists -/

lemma Piece.Copies.intercalate {sep : String} (hsep : Copies dialect sep.toList) :
    (texts : List String) → (∀ text ∈ texts, Copies dialect text.toList) →
    Copies dialect (sep.intercalate texts).toList
  | [], _ => Copies.nil
  | [text], h => by
      rw [String.intercalate_singleton]
      exact h text List.mem_cons_self
  | text :: next :: texts, h => by
      rw [String.intercalate_cons_cons, String.toList_append, String.toList_append]
      exact ((h text List.mem_cons_self).append hsep).append
        (Copies.intercalate hsep (next :: texts) fun t ht => h t (List.mem_cons_of_mem text ht))

section Lists

variable {α : Type} {text : α → String} {slots : α → List String}

/-- Items with placeholders, with commas between them. -/
lemma Piece.Reads.intercalate :
    (items : List α) → (∀ a ∈ items, Reads dialect (text a).toList (slots a)) →
    Reads dialect (", ".intercalate (items.map text)).toList (items.flatMap slots)
  | [], _ => Copies.nil.reads
  | [a], h => by
      rw [List.map_singleton, String.intercalate_singleton, List.flatMap_singleton]
      exact h a List.mem_cons_self
  | a :: b :: items, h => by
      have hrest := Reads.intercalate (b :: items) fun c hc => h c (List.mem_cons_of_mem a hc)
      rw [List.map_cons, List.map_cons, String.intercalate_cons_cons, String.toList_append,
        String.toList_append, List.append_assoc, List.flatMap_cons]
      rw [List.map_cons] at hrest
      exact (h a List.mem_cons_self).append
        ⟨ends_cons rfl _, (Copies.of_text rfl).append_reads hrest⟩

/-- A stretch with placeholders, up to the parenthesis behind it. -/
lemma Piece.Reads.close {cs : List Char} {ns : List String} (h : Reads dialect cs ns) :
    Reads dialect (cs ++ ")".toList) ns := by
  have hparen : Continues dialect ")".toList [] :=
    ⟨ends_cons rfl [], (Copies.of_text rfl).reads⟩
  have hclose := h.append hparen
  rwa [List.append_nil] at hclose

/-- Items with placeholders, one directly behind the other. -/
lemma Piece.Continues.join (items : List α)
    (h : ∀ a ∈ items, Continues dialect (text a).toList (slots a)) :
    Continues dialect (String.join (items.map text)).toList (items.flatMap slots) := by
  induction items with
  | nil => exact Continues.nil
  | cons a items ih =>
      rw [List.map_cons, String.join_cons, String.toList_append, List.flatMap_cons]
      exact (h a List.mem_cons_self).append (ih fun b hb => h b (List.mem_cons_of_mem a hb))

end Lists

/-! ## Names and values -/

lemma Dialect.copies_quote (part : String) : Copies dialect (dialect.quote part).toList := by
  have hq : Word.isQuote dialect.quoteChar = true := by cases dialect <;> rfl
  have hescape : ¬ (dialect = .mysql ∧ dialect.quoteChar ≠ '\x60') := by
    rintro ⟨rfl, hne⟩
    exact hne rfl
  rw [Dialect.toList_quote]
  refine Copies.quoted hq (fun c rest => ?_) part.toList
  split
  · exact leads_of_doubled hq rest
  · next hc => exact leads_of_quoted hc (fun h => hescape h.2) rest

lemma Dialect.copies_textLiteral (s : String) :
    Copies dialect (dialect.textLiteral s).toList := by
  rw [Dialect.textLiteral, String.toList_ofList]
  refine Copies.quoted rfl (fun c rest => ?_) s.toList
  rw [Dialect.literalChar]
  split
  · next hc =>
      rw [hc]
      exact leads_of_doubled rfl rest
  · next hc =>
      split
      · next hescape =>
          rw [hescape.1, hescape.2]
          exact leads_of_escaped rest
      · next hescape => exact leads_of_quoted hc (fun h => hescape ⟨h.1, h.2.1⟩) rest

/-- A class of characters without those that have a meaning. -/
lemma Piece.isCopied_of_class {p : Char → Bool}
    (hp : (':' :: Word.quotes).all (fun d => !p d) = true) {c : Char} (hc : p c = true) :
    isCopied c = true := by
  rw [isCopied, Word.not_contains_of_class hp hc]
  rfl

lemma Piece.copies_of_numeric {s : String} (h : Number.Numeric s) : Copies dialect s.toList :=
  Copies.of_plain fun c hc => isCopied_of_class rfl (h c hc)

lemma Dialect.copies_literal (v : Value) : Copies dialect (dialect.literal v).toList := by
  cases v with
  | null => exact Copies.of_text (s := "NULL") rfl
  | bool b =>
      cases b
      · exact Copies.of_text (s := "0") rfl
      · exact Copies.of_text (s := "1") rfl
  | num n => exact copies_of_numeric n.numeric_text
  | str s => exact copies_textLiteral s
  | arr items => exact copies_textLiteral _
  | obj members => exact copies_textLiteral _

lemma Identifier.copies_text (identifier : Identifier) :
    Copies dialect (identifier.text dialect).toList := by
  refine Copies.intercalate (Copies.of_text rfl) _ fun text htext => ?_
  obtain ⟨part, -, rfl⟩ := List.mem_map.mp htext
  rw [partText]
  split
  · exact Copies.of_text rfl
  · exact Dialect.copies_quote part

/-! ## Predicates -/

lemma Atom.reads_text {a : Atom String} (h : ∀ name ∈ a.slots, Bindings.Plain name) :
    Reads dialect (a.text dialect).toList a.slots := by
  cases a with
  | column c => exact c.copies_text.reads
  | literal v => exact (Dialect.copies_literal v).reads
  | param name => exact reads_placeholder (h name List.mem_cons_self)

lemma Side.reads_text {side : Side String} (h : ∀ name ∈ side.slots, Bindings.Plain name) :
    Reads dialect (side.text dialect).toList side.slots := by
  cases side with
  | one a => exact Atom.reads_text h
  | many items =>
      have hitems : Reads dialect (", ".intercalate (items.map (Atom.text dialect))).toList
          (items.flatMap Atom.slots) :=
        Reads.intercalate items fun a ha => Atom.reads_text fun name hname =>
          h name (List.mem_flatMap.mpr ⟨a, ha, hname⟩)
      rw [text, String.toList_append, String.toList_append]
      exact ((Copies.of_text rfl).append_reads hitems).close

lemma Operator.copies_sql (op : Operator) : Copies dialect op.sql.toList :=
  Copies.of_text (by cases op <;> rfl)

lemma Comparison.reads_text {c : Comparison String} (h : ∀ name ∈ c.slots, Bindings.Plain name) :
    Reads dialect (c.text dialect).toList c.slots := by
  rw [text, String.toList_append, String.toList_append, String.toList_append, String.toList_append]
  exact (((c.column.copies_text.append (Copies.of_text rfl)).append c.op.copies_sql).append
    (Copies.of_text rfl)).append_reads (Side.reads_text h)

namespace Mark

/-- The parameters of a word. -/
def slots : Mark → List String
  | test c => c.slots
  | _ => []

lemma reads_text {mark : Mark} (h : ∀ name ∈ mark.slots, Bindings.Plain name) :
    Reads dialect (mark.text dialect).toList mark.slots := by
  cases mark with
  | test c => exact Comparison.reads_text h
  | opening => exact (Copies.of_text (s := "(") rfl).reads
  | closing => exact (Copies.of_text (s := ")") rfl).reads
  | and => exact (Copies.of_text (s := "AND") rfl).reads
  | or => exact (Copies.of_text (s := "OR") rfl).reads
  | not => exact (Copies.of_text (s := "NOT") rfl).reads

lemma gap_eq_or (mark next : Mark) : mark.gap next = "" ∨ mark.gap next = " " := by
  cases mark <;> cases next <;> first | exact .inl rfl | exact .inr rfl

/-- Behind a word no name goes on, unless the word opens a group and has none. -/
lemma ends_gap {mark : Mark} (hmark : mark ≠ opening) (next : Mark) (rest : List Mark) :
    Ends (mark.gap next ++ spell dialect (next :: rest)).toList := by
  rw [String.toList_append]
  by_cases hnext : next = closing
  · obtain ⟨cs, hcs⟩ := exists_toList_spell_closing dialect rest
    rw [hnext, hcs]
    rcases gap_eq_or mark closing with hgap | hgap <;> rw [hgap] <;> exact ends_cons rfl _
  · rw [gap_of_ne_closing hmark hnext]
    exact ends_cons rfl _

lemma reads_spell : (marks : List Mark) →
    (∀ mark ∈ marks, ∀ name ∈ mark.slots, Bindings.Plain name) →
    Reads dialect (spell dialect marks).toList (marks.flatMap slots)
  | [], _ => Copies.nil.reads
  | [mark], h => by
      rw [List.flatMap_singleton]
      exact reads_text (h mark List.mem_cons_self)
  | mark :: next :: rest, h => by
      have hmark : Reads dialect (mark.text dialect).toList mark.slots :=
        reads_text (h mark List.mem_cons_self)
      have hrest := reads_spell (next :: rest) fun m hm => h m (List.mem_cons_of_mem mark hm)
      have hgap : Copies dialect (mark.gap next).toList := by
        rcases gap_eq_or mark next with hgap | hgap <;> rw [hgap] <;> exact Copies.of_text rfl
      have hbehind := hgap.append_reads hrest
      rw [← String.toList_append] at hbehind
      rw [spell, String.append_assoc, String.toList_append, List.flatMap_cons]
      by_cases hopening : mark = opening
      · rw [hopening] at hbehind ⊢
        exact (Copies.of_text (s := "(") rfl).append_reads hbehind
      · exact hmark.append ⟨ends_gap hopening next rest, hbehind⟩

/-- The parameters of words are those of the comparisons among them. -/
lemma flatMap_slots (marks : List Mark) :
    marks.flatMap slots = (Word.comparisons (marks.map word)).flatMap Comparison.slots := by
  induction marks with
  | nil => rfl
  | cons mark marks ih =>
      rw [List.flatMap_cons, ih]
      cases mark <;> rfl

end Mark

/-- **In the text of a predicate the scan finds its parameters**, in order. -/
theorem Predicate.reads_text {p : Predicate String} (h : ∀ name ∈ p.slots, Bindings.Plain name) :
    Reads dialect (p.text dialect).toList p.slots := by
  have hslots : p.marks.flatMap Mark.slots = p.slots := by
    rw [Mark.flatMap_slots, slots, ← p.comparisons_words]
    rfl
  rw [← hslots]
  refine Mark.reads_spell p.marks fun mark hmark name hname => h name ?_
  rw [← hslots]
  exact List.mem_flatMap.mpr ⟨mark, hmark, hname⟩

/-! ## Queries -/

lemma copies_aliasText (aliasName : Option Identifier) :
    Copies dialect (aliasText dialect aliasName).toList := by
  cases aliasName with
  | none => exact Copies.nil
  | some aliasName =>
      rw [aliasText, String.toList_append]
      exact (Copies.of_text rfl).append aliasName.copies_text

lemma JoinItem.continues_text {join : JoinItem String}
    (h : ∀ name ∈ join.slots, Bindings.Plain name) :
    Continues dialect (join.text dialect).toList join.slots := by
  have hsql : Copies dialect join.kind.sql.toList :=
    Copies.of_text (by cases join.kind <;> rfl)
  have hbefore : Copies dialect (" " ++ join.kind.sql ++ " " ++ join.table.text dialect ++
      aliasText dialect join.aliasName ++ " ON ").toList := by
    simp only [String.toList_append]
    exact (((((Copies.of_text rfl).append hsql).append (Copies.of_text rfl)).append
      join.table.copies_text).append (copies_aliasText _)).append (Copies.of_text rfl)
  rw [text, String.toList_append]
  refine ⟨?_, hbefore.append_reads (Predicate.reads_text h)⟩
  simp only [String.toList_append, List.append_assoc]
  exact ends_cons rfl _

lemma continues_filterText {filter : Predicate String}
    (h : ∀ name ∈ filter.slots, Bindings.Plain name) :
    Continues dialect (filterText dialect filter).toList filter.slots := by
  rw [filterText]
  split
  · next hempty =>
      have hnone : filter.slots = [] := by
        rw [Predicate.slots, Predicate.comparisons, List.isEmpty_iff.mp hempty,
          Term.linkComparisons, List.flatMap_nil]
      rw [hnone]
      exact Continues.nil
  · rw [String.toList_append]
    exact ⟨ends_cons rfl _, (Copies.of_text rfl).append_reads (Predicate.reads_text h)⟩

lemma Source.continues_text {source : Source String}
    (h : ∀ name ∈ source.slots, Bindings.Plain name) :
    Continues dialect (source.text dialect).toList source.slots := by
  have hjoins : Continues dialect (String.join (source.joins.map (JoinItem.text dialect))).toList
      (source.joins.flatMap JoinItem.slots) :=
    Continues.join source.joins fun join hjoin => JoinItem.continues_text fun name hname =>
      h name (List.mem_append_left _ (List.mem_flatMap.mpr ⟨join, hjoin, hname⟩))
  have hfilter : Continues dialect (filterText dialect source.filter).toList
      source.filter.slots :=
    continues_filterText fun name hname => h name (List.mem_append_right _ hname)
  simp only [text, String.toList_append, List.append_assoc]
  exact ⟨ends_cons rfl _, (Copies.of_text rfl).append_reads (source.table.copies_text.append_reads
    ((copies_aliasText _).append_reads (hjoins.append hfilter).reads))⟩

lemma OrderItem.copies_text (item : OrderItem) : Copies dialect (item.text dialect).toList := by
  have hsql : Copies dialect item.direction.sql.toList :=
    Copies.of_text (by cases item.direction <;> rfl)
  rw [text, String.toList_append, String.toList_append]
  exact (item.column.copies_text.append (Copies.of_text rfl)).append hsql

lemma continues_orderText (order : List OrderItem) :
    Continues dialect (orderText dialect order).toList [] := by
  rw [orderText]
  split
  · exact Continues.nil
  · rw [String.toList_append]
    refine ⟨ends_cons rfl _, ((Copies.of_text rfl).append ?_).reads⟩
    refine Copies.intercalate (Copies.of_text rfl) _ fun text htext => ?_
    obtain ⟨item, -, rfl⟩ := List.mem_map.mp htext
    exact item.copies_text

lemma Dialect.copies_limit {offset count : Option Nat} {clause : String}
    (h : clause ∈ dialect.limit offset count) : Copies dialect clause.toList := by
  have hnumber : ∀ n : Nat, Copies dialect (toString n).toList :=
    fun n => copies_of_numeric (Number.numeric_toString n)
  have hword : ∀ {word : String}, word.toList.all isCopied = true → ∀ n : Nat,
      Copies dialect (word ++ toString n).toList := by
    intro word hword n
    rw [String.toList_append]
    exact (Copies.of_text hword).append (hnumber n)
  have htwo : ∀ {word word' : String}, word.toList.all isCopied = true →
      word'.toList.all isCopied = true → ∀ m n : Nat,
      Copies dialect (word ++ toString m ++ word' ++ toString n).toList := by
    intro word word' hword hword' m n
    simp only [String.toList_append]
    exact (((Copies.of_text hword).append (hnumber m)).append (Copies.of_text hword')).append
      (hnumber n)
  cases offset with
  | none =>
      cases count with
      | none => cases h
      | some count =>
          cases h
          exact hword rfl count
  | some offset =>
      cases count with
      | none =>
          cases dialect with
          | mysql =>
              cases h
              show Copies _ ("LIMIT " ++ toString offset ++ ", 18446744073709551615").toList
              rw [String.toList_append]
              exact (hword rfl offset).append (Copies.of_text rfl)
          | sqlite =>
              cases h
              exact hword rfl offset
          | postgres =>
              cases h
              exact hword rfl offset
      | some count =>
          cases dialect <;> cases h
          · exact htwo rfl rfl offset count
          · exact htwo rfl rfl count offset
          · exact htwo rfl rfl count offset

lemma continues_limitText (limit : Option Limit) :
    Continues dialect (limitText dialect limit).toList [] := by
  rw [limitText]
  split
  · next clause hclause =>
      obtain ⟨limit, -, hlimit⟩ := Option.bind_eq_some_iff.mp hclause
      rw [String.toList_append]
      exact ⟨ends_cons rfl _, ((Copies.of_text rfl).append (Dialect.copies_limit hlimit)).reads⟩
  · exact Continues.nil

lemma SelectItem.copies_text {item : SelectItem} (h : ∃ c, item.selected = .column c) :
    Copies dialect (item.text dialect).toList := by
  obtain ⟨c, hc⟩ := h
  rw [text, hc, String.toList_append]
  exact c.copies_text.append (copies_aliasText _)

lemma copies_selectItems {items : List SelectItem}
    (h : ∀ item ∈ items, ∃ c, item.selected = .column c) :
    Copies dialect (", ".intercalate (items.map (SelectItem.text dialect))).toList := by
  refine Copies.intercalate (Copies.of_text rfl) _ fun text htext => ?_
  obtain ⟨item, hitem, rfl⟩ := List.mem_map.mp htext
  exact SelectItem.copies_text (h item hitem)

/-- The columns of an insert. -/
lemma copies_insertColumns (values : List (Identifier × String)) :
    Copies dialect (", ".intercalate
      (values.map fun (column, _) => column.text dialect)).toList := by
  refine Copies.intercalate (Copies.of_text rfl) _ fun text htext => ?_
  obtain ⟨value, -, rfl⟩ := List.mem_map.mp htext
  exact value.1.copies_text

/-- The values of an insert. -/
lemma reads_insertValues {values : List (Identifier × String)}
    (h : ∀ name ∈ values.map Prod.snd, Bindings.Plain name) :
    Reads dialect (", ".intercalate (values.map fun (_, name) => ":" ++ name)).toList
      (values.map Prod.snd) := by
  rw [List.map_eq_flatMap (f := Prod.snd)]
  exact Reads.intercalate values fun value hvalue =>
    reads_placeholder (h value.2 (List.mem_map_of_mem hvalue))

/-- The assignments of an update. -/
lemma reads_assignments {values : List (Identifier × String)}
    (h : ∀ name ∈ values.map Prod.snd, Bindings.Plain name) :
    Reads dialect (", ".intercalate
        (values.map fun (column, name) => column.text dialect ++ " = :" ++ name)).toList
      (values.map Prod.snd) := by
  rw [List.map_eq_flatMap (f := Prod.snd)]
  refine Reads.intercalate values fun value hvalue => ?_
  have hmark : (value.1.text dialect ++ " = :" ++ value.2).toList
      = (value.1.text dialect).toList ++ (" = ".toList ++ (":" ++ value.2).toList) := by
    simp only [String.toList_append, List.append_assoc]
    rfl
  show Reads dialect (value.1.text dialect ++ " = :" ++ value.2).toList [value.2]
  rw [hmark]
  exact value.1.copies_text.append_reads ((Copies.of_text rfl).append_reads
    (reads_placeholder (h value.2 (List.mem_map_of_mem hvalue))))

/-- Whether every entry of the select list is a column. -/
def Query.NoRaw {ρ : Type} : Query ρ → Prop
  | select items _ _ _ => ∀ item ∈ items, ∃ c, item.selected = .column c
  | _ => True

/-- **In the text of a query the scan finds its parameters**, in order. -/
theorem Query.reads_text {query : Query String} (hraw : query.NoRaw)
    (h : ∀ name ∈ query.slots, Bindings.Plain name) :
    Reads dialect (query.text dialect).toList query.slots := by
  cases query with
  | select items source order limit =>
      have hsource : Continues dialect (source.text dialect).toList source.slots :=
        Source.continues_text h
      have hbehind := hsource.append
        ((continues_orderText order).append (continues_limitText limit))
      rw [List.append_nil, List.append_nil] at hbehind
      show Reads dialect ("SELECT " ++ ", ".intercalate (items.map (SelectItem.text dialect)) ++
        source.text dialect ++ orderText dialect order ++ limitText dialect limit).toList _
      simp only [String.toList_append, List.append_assoc]
      exact (Copies.of_text rfl).append_reads
        ((copies_selectItems hraw).append_reads hbehind.reads)
  | count source =>
      show Reads dialect
        ("SELECT COUNT(*) AS " ++ dialect.quote "count" ++ source.text dialect).toList _
      rw [String.toList_append, String.toList_append, List.append_assoc]
      exact (Copies.of_text rfl).append_reads
        ((Dialect.copies_quote _).append_reads (Source.continues_text h).reads)
  | insert table values =>
      show Reads dialect ("INSERT INTO " ++ table.text dialect ++
        " (" ++ ", ".intercalate (values.map fun (column, _) => column.text dialect) ++
        ") VALUES (" ++ ", ".intercalate (values.map fun (_, name) => ":" ++ name) ++ ")").toList _
      simp only [String.toList_append, List.append_assoc]
      exact (Copies.of_text rfl).append_reads (table.copies_text.append_reads
        ((Copies.of_text rfl).append_reads ((copies_insertColumns values).append_reads
          ((Copies.of_text rfl).append_reads (reads_insertValues h).close))))
  | update table values filter =>
      have hvalues : Reads dialect (", ".intercalate
          (values.map fun (column, name) => column.text dialect ++ " = :" ++ name)).toList
          (values.map Prod.snd) :=
        reads_assignments fun name hname => h name (List.mem_append_left _ hname)
      have hfilter : Continues dialect (filterText dialect filter).toList filter.slots :=
        continues_filterText fun name hname => h name (List.mem_append_right _ hname)
      show Reads dialect ("UPDATE " ++ table.text dialect ++ " SET " ++
        ", ".intercalate
          (values.map fun (column, name) => column.text dialect ++ " = :" ++ name) ++
        filterText dialect filter).toList _
      simp only [String.toList_append, List.append_assoc]
      exact (Copies.of_text rfl).append_reads (table.copies_text.append_reads
        ((Copies.of_text rfl).append_reads (hvalues.append hfilter)))
  | delete table filter =>
      show Reads dialect
        ("DELETE FROM " ++ table.text dialect ++ filterText dialect filter).toList _
      rw [String.toList_append, String.toList_append, List.append_assoc]
      exact (Copies.of_text rfl).append_reads
        (table.copies_text.append_reads (continues_filterText h).reads)

end RelQuery
