import RelQuery.Proofs.Reading.Name
import RelQuery.Text.Letter

/-!
# The name in a key

The key of a clause is the name of a column, and perhaps an operator behind it.  Where a list is
taken apart into alternatives, each of them is given a key that has lost its operator, and the key
is read once more.  The column is the same each time: it is the name that the key begins with, and
taking an operator off the end never cuts into that.

* `Identifier.leadingName` is the name that a key begins with.
* `Scope.qualifiedName` is the full name of a column with such a name.
* **`Identifier.leadingName_splitKey`** — a key without its operator begins with the same name.
* **`Identifier.leadingName_eq_splitKey`** — which is all of it, if it is a name.
* **`Scope.columnOf_eq_ok`** — the column that is found for a key is the one of this name.
-/

namespace RelQuery

/-- A trimmed text begins with no blank. -/
lemma Text.dropWhile_trim (s : String) :
    (trim s).toList.dropWhile isBlank = (trim s).toList := by
  rw [trim, String.toList_ofList]
  refine List.dropWhile_eq_self_iff.mpr fun hlength => ?_
  have hshorter : dropBlankEnd (s.toList.dropWhile isBlank) <+: s.toList.dropWhile isBlank :=
    List.rdropWhile_prefix isBlank _
  rw [hshorter.getElem hlength]
  exact List.dropWhile_get_zero_not isBlank s.toList (hlength.trans_le hshorter.length_le)

/-- A trimmed text ends with no blank, either. -/
lemma Text.trim_trim (s : String) : trim (trim s) = trim s := by
  have hback (cs : List Char) : dropBlankEnd (dropBlankEnd cs) = dropBlankEnd cs :=
    List.rdropWhile_idempotent isBlank cs
  rw [trim, dropWhile_trim, trim, String.toList_ofList, hback]

/-- A word goes up to the next blank. -/
lemma Text.runsFrom_append {run word rest : List Char} (hword : ∀ c ∈ word, isBlank c = false)
    (hne : run ≠ [] ∨ word ≠ []) (hrest : ∀ c ∈ rest.head?, isBlank c = true) :
    runsFrom isBlank run (word ++ rest) = (run.reverse ++ word) :: runsFrom isBlank [] rest := by
  induction word generalizing run with
  | nil =>
      have hrun : run ≠ [] := by simpa using hne
      cases rest with
      | nil => simp [runsFrom, hrun]
      | cons c rest => simp [runsFrom, hrun, hrest c rfl]
  | cons c word ih =>
      obtain ⟨hc, hword⟩ := List.forall_mem_cons.mp hword
      rw [List.cons_append, runsFrom, hc, if_neg Bool.false_ne_true,
        ih hword (.inl (List.cons_ne_nil _ _)), List.reverse_cons, List.append_assoc]
      rfl

/-! ## Names in front -/

namespace Identifier

/-- Whether a character may stand in a name with points. -/
def isNameChar (c : Char) : Bool := isPartChar c || c = '.' || c = '*'

/-- The name that some characters begin with, behind blanks. -/
def leading (cs : List Char) : List Char := (cs.dropWhile Text.isBlank).takeWhile isNameChar

/-- The name that a key begins with. -/
def leadingName (key : String) : String := String.ofList (leading key.toList)

/-- A name is in ASCII, so what holds of its characters can be tried out. -/
lemma toNat_lt_of_isNameChar {c : Char} (h : isNameChar c = true) : c.toNat < 128 := by
  simp only [isNameChar, isPartChar, Bool.or_eq_true, decide_eq_true_eq] at h
  rcases h with (((rfl | rfl) | h) | rfl) | rfl
  · decide
  · decide
  · exact Text.toNat_lt_of_isAlphanum h
  · decide
  · decide

lemma isBlank_of_isNameChar {c : Char} (h : isNameChar c = true) : Text.isBlank c = false := by
  have all : ∀ n < 128, isNameChar (Char.ofNat n) = true → Text.isBlank (Char.ofNat n) = false := by
    decide +kernel
  simpa [Char.ofNat_toNat] using all c.toNat (toNat_lt_of_isNameChar h) (by simpa using h)

lemma isNameChar_of_isBlank {c : Char} (h : Text.isBlank c = true) : isNameChar c = false := by
  by_contra hname
  rw [isBlank_of_isNameChar (by simpa using hname)] at h
  cases h

lemma isNameChar_toUpper {c : Char} (h : isNameChar c = true) : isNameChar c.toUpper = true := by
  have all : ∀ n < 128, isNameChar (Char.ofNat n) = true →
      isNameChar (Char.ofNat n).toUpper = true := by
    decide +kernel
  simpa [Char.ofNat_toNat] using all c.toNat (toNat_lt_of_isNameChar h) (by simpa using h)

/-- What follows does not count if something else ends the name. -/
lemma leading_append {cs rest : List Char} (hcs : ∃ c ∈ cs, Text.isBlank c = false)
    (hends : (∃ c ∈ cs.dropWhile Text.isBlank, isNameChar c = false)
      ∨ ∀ c ∈ rest.head?, isNameChar c = false) : leading (cs ++ rest) = leading cs := by
  have hdrop : (cs ++ rest).dropWhile Text.isBlank = cs.dropWhile Text.isBlank ++ rest := by
    rw [List.dropWhile_append, if_neg]
    simpa using hcs
  rw [leading, leading, hdrop, List.takeWhile_append]
  split
  · next hlength =>
      have hall := List.takeWhile_eq_self_iff.mp
        (List.takeWhile_sublist isNameChar |>.eq_of_length hlength)
      rcases hends with ⟨c, hc, hname⟩ | hhead
      · rw [hall c hc] at hname
        cases hname
      · rw [List.takeWhile_eq_self_iff.mpr hall]
        cases rest with
        | nil => simp
        | cons d rest =>
            have hd := hhead d rfl
            simp [hd]
  · rfl

lemma leading_dropWhile (cs : List Char) : leading (cs.dropWhile Text.isBlank) = leading cs := by
  rw [leading, List.dropWhile_idempotent]
  rfl

lemma leading_dropBlankEnd (cs : List Char) : leading (Text.dropBlankEnd cs) = leading cs := by
  -- the blanks at the end are cut off
  have hsplit : Text.dropBlankEnd cs ++ cs.rtakeWhile Text.isBlank = cs :=
    List.rdropWhile_append_rtakeWhile
  have hblank : ∀ c ∈ cs.rtakeWhile Text.isBlank, Text.isBlank c = true :=
    fun c hc => List.mem_rtakeWhile_imp hc
  by_cases hcs : ∃ c ∈ Text.dropBlankEnd cs, Text.isBlank c = false
  · have hends : ∀ c ∈ (cs.rtakeWhile Text.isBlank).head?, isNameChar c = false :=
      fun c hc => isNameChar_of_isBlank (hblank c (List.mem_of_mem_head? hc))
    rw [← leading_append hcs (.inr hends), hsplit]
  · have hnone : ∀ c ∈ Text.dropBlankEnd cs, Text.isBlank c = true := by simpa using hcs
    have hall : ∀ c ∈ cs, Text.isBlank c = true := by
      rw [← hsplit]
      exact List.forall_mem_append.mpr ⟨hnone, hblank⟩
    rw [leading, leading, List.dropWhile_eq_nil_iff.mpr hnone, List.dropWhile_eq_nil_iff.mpr hall]

/-- Blanks on either side do not count. -/
lemma leadingName_trim (s : String) : leadingName (Text.trim s) = leadingName s := by
  rw [leadingName, Text.trim, String.toList_ofList, leading_dropBlankEnd, leading_dropWhile]
  rfl

/-! ## Operators behind -/

/-- What stands behind the field of a key is a spelling of the operator, and either the spelling or
what stands in front of it is apart from names. -/
lemma exists_tail_of_fieldBefore? {key field : List Char} {op : Operator}
    (h : Operator.fieldBefore? key op = some field) :
    ∃ tail, key = field ++ tail ∧ (∃ c ∈ field, Text.isBlank c = false)
      ∧ tail.map Char.toUpper = op.sql.toList
      ∧ (op.isWord = true → field.getLast?.any Text.isBlank = true) := by
  rw [Operator.fieldBefore?] at h
  split at h
  · cases h
  · next hspelled =>
      split at h
      · cases h
      · next hfield =>
          split at h
          · cases h
          · next hword =>
              cases h
              rw [Bool.not_eq_true, Bool.not_eq_false', List.isSuffixOf_iff_suffix,
                List.suffix_iff_eq_drop, List.length_map, ← List.map_drop] at hspelled
              refine ⟨_, (List.take_append_drop _ key).symm, by simpa using hfield,
                hspelled.symm, fun hop => ?_⟩
              simpa [hop] using hword

/-- An operator that is not a word ends a name. -/
lemma isNameChar_of_head?_tail {op : Operator} (hop : op.isWord = false) {tail : List Char}
    (htail : tail.map Char.toUpper = op.sql.toList) :
    ∀ c ∈ tail.head?, isNameChar c = false := by
  have hsymbol : ∀ d ∈ op.sql.toList.head?, isNameChar d = false := by
    cases op <;> simp [Operator.isWord, Operator.sql, isNameChar, Identifier.isPartChar] at hop ⊢
  intro c hc
  by_contra hname
  have hupper : isNameChar c.toUpper = false := by
    refine hsymbol c.toUpper ?_
    rw [← htail, List.head?_map, Option.mem_def.mp hc]
    rfl
  rw [isNameChar_toUpper (by simpa using hname)] at hupper
  cases hupper

/-- The last of some characters stands behind the blanks in front. -/
lemma mem_dropWhile_of_getLast? {cs : List Char} (hcs : ∃ c ∈ cs, Text.isBlank c = false) {c : Char}
    (hc : c ∈ cs.getLast?) : c ∈ cs.dropWhile Text.isBlank := by
  have hne : cs.dropWhile Text.isBlank ≠ [] := by
    simpa [List.dropWhile_eq_nil_iff] using hcs
  rw [← List.takeWhile_append_dropWhile (p := Text.isBlank) (l := cs),
    List.getLast?_append_of_ne_nil _ hne] at hc
  exact List.mem_of_getLast? hc

/-- **A key without its operator begins with the same name.** -/
theorem leadingName_splitKey (key : String) :
    leadingName (Operator.splitKey key).1 = leadingName key := by
  rw [Operator.splitKey]
  split
  · next field op hfound =>
      obtain ⟨other, -, hop⟩ := List.exists_of_findSome?_eq_some hfound
      obtain ⟨_, hbefore, heq⟩ := Option.map_eq_some_iff.mp hop
      cases heq
      obtain ⟨tail, hsplit, hfield, htail, hword⟩ := exists_tail_of_fieldBefore? hbefore
      have hkey : leading (Text.trimEnd key).toList = leading key.toList := by
        rw [Text.trimEnd, String.toList_ofList, leading_dropBlankEnd]
      rw [leadingName_trim, leadingName, leadingName, String.toList_ofList, ← hkey, hsplit,
        leading_append hfield ?_]
      cases hw : op.isWord with
      | false => exact .inr (isNameChar_of_head?_tail hw htail)
      | true =>
          obtain ⟨c, hc, hblank⟩ := (Option.any_eq_true _ _).mp (hword hw)
          exact .inl ⟨c, mem_dropWhile_of_getLast? hfield hc, isNameChar_of_isBlank hblank⟩
  · exact leadingName_trim key

/-! ## Names that are read -/

lemma IsWord.ne_nil {part : String} (h : IsWord part) : part.toList ≠ [] := by
  intro hnil
  rw [IsWord, hnil] at h
  exact h

lemma IsWord.isNameChar {part : String} (h : IsWord part) :
    ∀ c ∈ part.toList, isNameChar c = true := by
  intro c hc
  simp [Identifier.isNameChar, (isPartChar_iff c).mpr (h.isMore c hc)]

lemma Dotted.isNameChar {parts : List String} (h : Dotted parts) :
    ∀ c ∈ (".".intercalate parts).toList, isNameChar c = true := by
  induction h with
  | all =>
      rw [String.intercalate_singleton]
      simp [Identifier.isNameChar]
  | word h =>
      rw [String.intercalate_singleton]
      exact h.isNameChar
  | @more part parts h hparts ih =>
      obtain ⟨next, parts, rfl⟩ := List.exists_cons_of_ne_nil hparts.ne_nil
      rw [String.intercalate_cons_cons, String.toList_append, String.toList_append]
      simp only [List.forall_mem_append]
      exact ⟨⟨h.isNameChar, by simp [Identifier.isNameChar]⟩, ih⟩

lemma dropWhile_eq_self {cs : List Char} (h : ∀ c ∈ cs, isNameChar c = true) :
    cs.dropWhile Text.isBlank = cs := by
  cases cs with
  | nil => rfl
  | cons c cs =>
      have hc := isBlank_of_isNameChar (h c List.mem_cons_self)
      exact List.dropWhile_cons_of_neg (by simp [hc])

lemma dropBlankEnd_eq_self {cs : List Char} (h : ∀ c ∈ cs, isNameChar c = true) :
    Text.dropBlankEnd cs = cs := by
  have hreverse : ∀ c ∈ cs.reverse, isNameChar c = true := by simpa using h
  rw [Text.dropBlankEnd, dropWhile_eq_self hreverse, List.reverse_reverse]

lemma trim_eq_self {s : String} (h : ∀ c ∈ s.toList, isNameChar c = true) : Text.trim s = s := by
  rw [Text.trim, dropWhile_eq_self h, dropBlankEnd_eq_self h, String.ofList_toList]

/-- A name begins with all of itself. -/
lemma leading_eq_self {cs : List Char} (h : ∀ c ∈ cs, isNameChar c = true) : leading cs = cs := by
  rw [leading, dropWhile_eq_self h, List.takeWhile_eq_self_iff.mpr h]

/-- What is read of a text are the pieces of its name. -/
lemma parse_eq_ok {s : String} {identifier : Identifier} (h : parse s = .ok identifier) :
    identifier = ⟨Text.pieces '.' (Text.trim s)⟩
      ∧ ∀ c ∈ (Text.trim s).toList, isNameChar c = true := by
  obtain ⟨hdotted, htrim⟩ := (parse_eq_ok_iff s identifier).mp h
  rw [htrim, Text.pieces_intercalate hdotted.ne_nil hdotted.not_mem]
  exact ⟨rfl, hdotted.isNameChar⟩

lemma leadingName_of_parse {s : String} {identifier : Identifier} (h : parse s = .ok identifier) :
    leadingName s = Text.trim s := by
  rw [← leadingName_trim, leadingName, leading_eq_self (parse_eq_ok h).2, String.ofList_toList]

/-- A key without its operator has no blanks on either side. -/
lemma trim_splitKey (key : String) :
    Text.trim (Operator.splitKey key).1 = (Operator.splitKey key).1 := by
  rw [Operator.splitKey]
  split <;> exact Text.trim_trim _

/-- **If a key without its operator is a name, then it is the name that the key begins with.** -/
theorem leadingName_eq_splitKey {key : String} {identifier : Identifier}
    (h : parse (Operator.splitKey key).1 = .ok identifier) :
    leadingName key = (Operator.splitKey key).1 := by
  rw [← leadingName_splitKey, leadingName_of_parse h, trim_splitKey]

end Identifier

/-! ## Columns -/

namespace Scope

open Identifier

/-- The full name of a column: the name itself if it has a table, and otherwise the name behind the
table of the scope. -/
def qualifiedName (table : Option String) (name : String) : String :=
  if isQualified name then name
  else match table with
    | some table => Text.trim table ++ "." ++ name
    | none => name

/-- The column with such a name. -/
def columnNamed (table : Option String) (name : String) : Identifier :=
  ⟨Text.pieces '.' (qualifiedName table name)⟩

lemma qualifiedName_of_isQualified {name : String} (h : isQualified name = true)
    (table : Option String) : qualifiedName table name = name := if_pos h

lemma qualifiedName_of_not_isQualified {name : String} (h : isQualified name = false)
    (table : Option String) : qualifiedName table name
      = (table.map fun table => Text.trim table ++ "." ++ name).getD name := by
  cases table <;> simp [qualifiedName, h]

variable {scope : Scope} {field : String} {column : Identifier}

lemma mem_dropWhile_isBlank {cs : List Char} {c : Char} (hc : Text.isBlank c = false) :
    c ∈ cs.dropWhile Text.isBlank ↔ c ∈ cs := by
  refine ⟨fun h => (List.dropWhile_sublist _).subset h, fun h => ?_⟩
  rw [← List.takeWhile_append_dropWhile (p := Text.isBlank) (l := cs)] at h
  rcases List.mem_append.mp h with hblank | h
  · rw [List.mem_takeWhile_imp hblank] at hc
    cases hc
  · exact h

lemma isQualified_trim (s : String) : isQualified (Text.trim s) = isQualified s := by
  have hpoint : Text.isBlank '.' = false := by decide
  rw [isQualified, isQualified, Bool.eq_iff_iff, List.contains_iff_mem, List.contains_iff_mem,
    Text.trim, String.toList_ofList, Text.dropBlankEnd, List.mem_reverse,
    mem_dropWhile_isBlank hpoint, List.mem_reverse, mem_dropWhile_isBlank hpoint]

/-- The name has no character that the field does not have. -/
lemma isQualified_of_leadingName (h : isQualified (leadingName field) = true) :
    isQualified field = true := by
  rw [isQualified, List.contains_iff_mem, leadingName, String.toList_ofList] at h
  rw [isQualified, List.contains_iff_mem]
  exact (List.dropWhile_sublist _).subset ((List.takeWhile_sublist _).subset h)

/-- Blanks are only cut off up to a point. -/
lemma dropWhile_append_point (cs rest : List Char) : (cs ++ '.' :: rest).dropWhile Text.isBlank
    = cs.dropWhile Text.isBlank ++ '.' :: rest := by
  have hpoint : ('.' :: rest).dropWhile Text.isBlank = '.' :: rest :=
    List.dropWhile_cons_of_neg (by decide)
  rw [List.dropWhile_append]
  split
  · next hnone => rw [hpoint, List.isEmpty_iff.mp hnone, List.nil_append]
  · rfl

lemma toList_trim_point (table name : String) :
    (Text.trim (table ++ "." ++ name)).toList
      = table.toList.dropWhile Text.isBlank ++ '.' :: Text.dropBlankEnd name.toList := by
  have hpoint : (table ++ "." ++ name).toList = table.toList ++ '.' :: name.toList := by
    simp
  rw [Text.trim, String.toList_ofList, hpoint, dropWhile_append_point, Text.dropBlankEnd,
    List.reverse_append, List.reverse_cons, List.append_assoc, List.singleton_append,
    dropWhile_append_point, List.reverse_append, List.reverse_cons, List.reverse_reverse,
    List.append_assoc, List.singleton_append]
  rfl

/-- A name that is read behind a table and a point is the name that the text begins with. -/
lemma trim_point {table name : String}
    (h : ∀ c ∈ (Text.trim (table ++ "." ++ name)).toList, isNameChar c = true) :
    Text.trim (table ++ "." ++ name) = Text.trim table ++ "." ++ leadingName name := by
  rw [toList_trim_point, List.forall_mem_append, List.forall_mem_cons] at h
  obtain ⟨htable, -, hname⟩ := h
  have hleading : leading name.toList = Text.dropBlankEnd name.toList := by
    rw [← leading_dropBlankEnd, leading_eq_self hname]
  rw [← String.toList_inj, toList_trim_point, leadingName, hleading, Text.trim,
    dropBlankEnd_eq_self htable]
  simp

/-- **The column that is found for a key is the one of the name that the key begins with.** -/
theorem columnOf_eq_ok (h : scope.columnOf field = .ok column) :
    column = columnNamed scope.defaultTable (leadingName field) := by
  rw [columnOf] at h
  split at h
  · next hpoint =>
      have htrimmed : isQualified (Text.trim field) = true := (isQualified_trim field).trans hpoint
      rw [leadingName_of_parse h, columnNamed, qualifiedName_of_isQualified htrimmed]
      exact (parse_eq_ok h).1
  · next hpoint =>
      rw [columnNamed, qualifiedName_of_not_isQualified
        (Bool.eq_false_iff.mpr fun hname => hpoint (isQualified_of_leadingName hname))]
      cases htable : scope.defaultTable with
      | none =>
          rw [htable, Identifier.column] at h
          rw [leadingName_of_parse h]
          exact (parse_eq_ok h).1
      | some table =>
          rw [htable, Identifier.column] at h
          obtain ⟨rfl, hchars⟩ := parse_eq_ok h
          rw [trim_point hchars]
          rfl

end Scope

end RelQuery
