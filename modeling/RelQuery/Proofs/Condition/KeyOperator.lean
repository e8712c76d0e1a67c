import RelQuery.Proofs.Condition.KeyName

/-!
# The operator in a key

An operator is read in two ways.  Alone, it may be spelled in any case and with any blanks, and `<>`
is one more spelling of `!=`.  At the end of a key it is looked for as it is written, in any case
but with the one space that is in it.  So the two agree on the spellings that the second way knows,
and on no other.

* `Text.letterCount` counts what is left of a text without its blanks; reading an operator alone
  keeps it.
* **`Operator.exists_suffix_of_fieldBefore?`** — what is taken off the end of a key never reaches
  into a name, nor into the blanks behind it.
* **`Operator.splitKey_of_parse`** — a name by itself has no operator at its end.
* **`Operator.splitKey_spaced_iff`** — a name, a space and a spelling of an operator are taken apart
  again exactly if the spelling is, in capitals, the one in statements.
-/

namespace RelQuery

/-! ## Blanks -/

namespace Text

/-- Capitals are blank where the letters are. -/
lemma isBlank_toUpper (c : Char) : isBlank c.toUpper = isBlank c := by
  rw [Char.toUpper]
  split
  · next hlower =>
      have hname : Identifier.isNameChar c = true := by
        rw [Identifier.isNameChar, (Identifier.isPartChar_iff c).mpr (.inl (.inr (.inl hlower)))]
        rfl
      have hupper := Identifier.isNameChar_toUpper hname
      rw [Char.toUpper, dif_pos hlower] at hupper
      rw [Identifier.isBlank_of_isNameChar hname, Identifier.isBlank_of_isNameChar hupper]
  · rfl

/-- Only blanks at the end of what has something else in it are cut off. -/
lemma dropBlankEnd_append {as bs : List Char} (h : ∃ c ∈ bs, isBlank c = false) :
    dropBlankEnd (as ++ bs) = as ++ dropBlankEnd bs := by
  have hsome : ¬ (bs.reverse.dropWhile isBlank).isEmpty = true := by
    simpa [List.dropWhile_eq_nil_iff] using h
  rw [dropBlankEnd, dropBlankEnd, List.reverse_append, List.dropWhile_append, if_neg hsome,
    List.reverse_append, List.reverse_reverse]

/-- Blanks at the end are cut off. -/
lemma dropBlankEnd_append_of_isBlank (as : List Char) {bs : List Char}
    (h : ∀ c ∈ bs, isBlank c = true) : dropBlankEnd (as ++ bs) = dropBlankEnd as := by
  have hnone : bs.reverse.dropWhile isBlank = [] := by
    simpa [List.dropWhile_eq_nil_iff] using h
  rw [dropBlankEnd, dropBlankEnd, List.reverse_append, List.dropWhile_append, hnone]
  rfl

/-- A text without the blanks at its end is the trimmed text behind other blanks. -/
lemma exists_front (s : String) : ∃ front, (∀ c ∈ front, isBlank c = true)
    ∧ dropBlankEnd s.toList = front ++ (trim s).toList := by
  rw [trim, String.toList_ofList]
  by_cases h : ∃ c ∈ s.toList.dropWhile isBlank, isBlank c = false
  · refine ⟨s.toList.takeWhile isBlank, fun c hc => List.mem_takeWhile_imp hc, ?_⟩
    rw [← dropBlankEnd_append h, List.takeWhile_append_dropWhile]
  · have hblank : ∀ c ∈ s.toList.dropWhile isBlank, isBlank c = true := by simpa using h
    have hall := dropBlankEnd_append_of_isBlank (s.toList.takeWhile isBlank) hblank
    rw [List.takeWhile_append_dropWhile] at hall
    have hnone : dropBlankEnd (s.toList.dropWhile isBlank) = [] :=
      dropBlankEnd_append_of_isBlank [] hblank
    refine ⟨dropBlankEnd s.toList, fun c hc => ?_, by rw [hnone, List.append_nil]⟩
    rw [hall] at hc
    exact List.mem_takeWhile_imp (List.IsPrefix.subset (List.rdropWhile_prefix isBlank _) hc)

/-- A trimmed text begins with something else than a blank. -/
lemma isBlank_of_head?_trim (s : String) : ∀ c ∈ (trim s).toList.head?, isBlank c = false := by
  intro c hc
  obtain ⟨cs, hcs⟩ := List.head?_eq_some_iff.mp (Option.mem_def.mp hc)
  have hkept := dropWhile_trim s
  rw [hcs, List.dropWhile_eq_self_iff] at hkept
  simpa using hkept (Nat.zero_lt_succ cs.length)

/-! ## Letters -/

/-- The number of characters that are not blank. -/
def letterCount (cs : List Char) : Nat := cs.countP fun c => !isBlank c

lemma letterCount_append (as bs : List Char) :
    letterCount (as ++ bs) = letterCount as + letterCount bs := List.countP_append

lemma letterCount_cons (c : Char) (cs : List Char) :
    letterCount (c :: cs) = letterCount [c] + letterCount cs := letterCount_append [c] cs

lemma letterCount_eq_zero_iff {cs : List Char} :
    letterCount cs = 0 ↔ ∀ c ∈ cs, isBlank c = true := by
  simp [letterCount]

lemma letterCount_map_toUpper (cs : List Char) :
    letterCount (cs.map Char.toUpper) = letterCount cs := by
  rw [letterCount, List.countP_map]
  exact List.countP_congr fun c _ => by rw [Function.comp_apply, isBlank_toUpper]

/-- What is put between words is blank. -/
lemma letterCount_intercalate_cons (word : List Char) (words : List (List Char)) :
    letterCount ([' '].intercalate (word :: words))
      = letterCount word + letterCount ([' '].intercalate words) := by
  cases words with
  | nil => simp [letterCount, List.intercalate]
  | cons next words =>
      have hspace : letterCount [' '] = 0 := by decide
      rw [List.intercalate_cons_cons, letterCount_append, letterCount_append, hspace, Nat.add_zero]

/-- What is cut out between words is blank. -/
lemma letterCount_intercalate_runsFrom (run cs : List Char) :
    letterCount ([' '].intercalate (runsFrom isBlank run cs))
      = letterCount run + letterCount cs := by
  have hreverse (run : List Char) : letterCount run.reverse = letterCount run :=
    List.countP_reverse
  induction cs generalizing run with
  | nil =>
      cases run with
      | nil => rfl
      | cons d run =>
          show letterCount ([' '].intercalate [(d :: run).reverse]) = _
          rw [letterCount_intercalate_cons, hreverse]
          rfl
  | cons c cs ih =>
      rw [runsFrom, letterCount_cons c cs]
      by_cases hc : isBlank c = true
      · have hnone : letterCount [c] = 0 := by simp [letterCount, hc]
        rw [if_pos hc, hnone, Nat.zero_add]
        cases run with
        | nil => exact ih []
        | cons d run =>
            show letterCount ([' '].intercalate ((d :: run).reverse :: runsFrom isBlank [] cs)) = _
            rw [letterCount_intercalate_cons, hreverse, ih []]
            exact congrArg _ (Nat.zero_add _)
      · rw [if_neg hc, ih, letterCount_cons c run]
        omega

/-- The spelling in which keywords are compared has the letters of the text. -/
lemma letterCount_keyword (s : String) :
    letterCount (keyword s).toList = letterCount s.toList := by
  have hwords : (" ".intercalate (words s)).toList
      = [' '].intercalate (runsFrom isBlank [] s.toList) := by
    rw [String.toList_intercalate, words, List.map_map]
    simp [Function.comp_def]
  rw [keyword, upperAscii, String.toList_ofList, letterCount_map_toUpper, hwords,
    letterCount_intercalate_runsFrom]
  exact Nat.zero_add _

/-- What is trimmed off is blank. -/
lemma letterCount_trim (s : String) : letterCount (trim s).toList = letterCount s.toList := by
  obtain ⟨front, hfront, hcut⟩ := exists_front s
  have hsplit : dropBlankEnd s.toList ++ s.toList.rtakeWhile isBlank = s.toList :=
    List.rdropWhile_append_rtakeWhile
  have hback : letterCount (s.toList.rtakeWhile isBlank) = 0 :=
    letterCount_eq_zero_iff.mpr fun c hc => List.mem_rtakeWhile_imp hc
  rw [← hsplit, letterCount_append, hback, hcut, letterCount_append,
    letterCount_eq_zero_iff.mpr hfront, Nat.zero_add, Nat.add_zero]

end Text

/-- A name has a character. -/
lemma Identifier.Dotted.intercalate_ne {parts : List String} (h : Dotted parts) :
    ".".intercalate parts ≠ "" := by
  intro hempty
  have hparts := Text.pieces_intercalate h.ne_nil h.not_mem
  rw [hempty] at hparts
  -- the empty text has one piece, and that is no word
  rw [← hparts] at h
  have hnone : partsFault? [""] = none := (partsFault?_eq_none_iff "" []).mpr h
  cases hnone

/-! ## Taking off an operator -/

namespace Operator

variable {op : Operator}

/-- No spelling begins with a blank. -/
lemma exists_sql (op : Operator) : ∃ c cs, op.sql.toList = c :: cs ∧ Text.isBlank c = false := by
  cases op <;> exact ⟨_, _, rfl, by decide⟩

/-- What is before the spelling of an operator, if that is apart from it, is the field. -/
lemma fieldBefore?_append {field tail : List Char} (hfield : ∃ c ∈ field, Text.isBlank c = false)
    (htail : tail.map Char.toUpper = op.sql.toList)
    (hword : op.isWord = true → field.getLast?.any Text.isBlank = true) :
    fieldBefore? (field ++ tail) op = some field := by
  have hlength : op.sql.toList.length = tail.length := by rw [← htail, List.length_map]
  have htake : (field ++ tail).take ((field ++ tail).length - op.sql.toList.length) = field := by
    rw [hlength, List.length_append, Nat.add_sub_cancel, List.take_left]
  have hspelled : op.sql.toList.isSuffixOf ((field ++ tail).map Char.toUpper) = true := by
    rw [List.isSuffixOf_iff_suffix, List.map_append, htail]
    exact List.suffix_append _ _
  have hblank : field.all Text.isBlank = false := by simpa using hfield
  have hapart : (op.isWord && !field.getLast?.any Text.isBlank) = false := by
    cases h : op.isWord with
    | false => rfl
    | true => simp [hword h]
  simp only [fieldBefore?, htake, hspelled, hblank, hapart]
  rfl

/-- Behind a blank that is behind a name are blanks only. -/
lemma isBlank_of_append {front name back field rest : List Char}
    (hfront : ∀ c ∈ front, Text.isBlank c = true)
    (hname : ∀ c ∈ name, Identifier.isNameChar c = true)
    (hback : ∀ c ∈ back, Text.isBlank c = true)
    (h : front ++ name ++ back = field ++ rest) (hfield : ∃ c ∈ field, Text.isBlank c = false)
    (hlast : field.getLast?.any Text.isBlank = true) : ∀ c ∈ rest, Text.isBlank c = true := by
  rcases List.append_eq_append_iff.mp h with ⟨more, -, hrest⟩ | ⟨cut, hbefore, -⟩
  · rw [hrest] at hback
    exact fun c hc => hback c (List.mem_append_right _ hc)
  · -- the field would end in the name
    obtain ⟨c, hc, hblank⟩ := (Option.any_eq_true _ _).mp hlast
    have hdrop : field.dropWhile Text.isBlank ++ cut = name := by
      have hsome : ¬ (field.dropWhile Text.isBlank).isEmpty = true := by
        simpa [List.dropWhile_eq_nil_iff] using hfield
      have happend : (field ++ cut).dropWhile Text.isBlank
          = field.dropWhile Text.isBlank ++ cut := by
        rw [List.dropWhile_append, if_neg hsome]
      rw [← happend, ← hbefore, List.dropWhile_append_of_pos hfront,
        Identifier.dropWhile_eq_self hname]
    have hmem := Identifier.mem_dropWhile_of_getLast? hfield hc
    rw [Identifier.isBlank_of_isNameChar
      (hname c (hdrop ▸ List.mem_append_left _ hmem))] at hblank
    cases hblank

/-- **What is taken off the end of a key is behind the name in it**, and behind the blanks that
follow the name. -/
theorem exists_suffix_of_fieldBefore? (front back rest : List Char) {name field : List Char}
    (hfront : ∀ c ∈ front, Text.isBlank c = true)
    (hname : ∀ c ∈ name, Identifier.isNameChar c = true)
    (hback : ∀ c ∈ back, Text.isBlank c = true)
    (h : fieldBefore? (front ++ name ++ back ++ rest) op = some field) :
    ∃ tail, tail <:+ rest ∧ tail.map Char.toUpper = op.sql.toList := by
  obtain ⟨tail, hkey, hfield, htail, hword⟩ := Identifier.exists_tail_of_fieldBefore? h
  rcases List.append_eq_append_iff.mp hkey with ⟨more, -, hrest⟩ | ⟨inner, hbefore, hinner⟩
  · exact ⟨tail, hrest ▸ List.suffix_append _ _, htail⟩
  cases inner with
  | nil => exact ⟨tail, hinner ▸ List.suffix_refl _, htail⟩
  | cons d inner =>
      -- the spelling would begin inside of what is before the rest, where no character can begin it
      exfalso
      have hhead : d ∈ tail.head? := by rw [hinner]; rfl
      have hletter : Text.isBlank d = false := by
        obtain ⟨c, cs, hsql, hc⟩ := op.exists_sql
        rw [← htail, hinner, List.cons_append, List.map_cons] at hsql
        rw [← Text.isBlank_toUpper, (List.cons.inj hsql).1, hc]
      cases hop : op.isWord with
      | false =>
          have hd : d ∈ front ++ name ++ back := by
            rw [hbefore]
            exact List.mem_append_right _ List.mem_cons_self
          have hother := Identifier.isNameChar_of_head?_tail hop htail d hhead
          rcases List.mem_append.mp hd with hd | hd
          · rcases List.mem_append.mp hd with hd | hd
            · exact Bool.false_ne_true (hletter.symm.trans (hfront d hd))
            · exact Bool.false_ne_true (hother.symm.trans (hname d hd))
          · exact Bool.false_ne_true (hletter.symm.trans (hback d hd))
      | true =>
          have hblank := isBlank_of_append hfront hname hback hbefore hfield (hword hop) d
            List.mem_cons_self
          exact Bool.false_ne_true (hletter.symm.trans hblank)

/-- A name by itself has no operator at its end. -/
theorem splitKey_of_parse {key : String} {identifier : Identifier}
    (h : Identifier.parse key = .ok identifier) : splitKey key = (Text.trim key, none) := by
  obtain ⟨front, hfront, hkey⟩ := Text.exists_front key
  have hnone : (all.findSome? fun op =>
      (fieldBefore? (Text.trimEnd key).toList op).map (·, op)) = none := by
    rw [List.findSome?_eq_none_iff]
    intro op _
    rw [Option.map_eq_none_iff, Option.eq_none_iff_forall_ne_some, Text.trimEnd,
      String.toList_ofList, hkey]
    intro field hfield
    obtain ⟨tail, htail, hsql⟩ := exists_suffix_of_fieldBefore? front [] []
      hfront (Identifier.parse_eq_ok h).2 (by simp) (by simpa using hfield)
    obtain ⟨c, cs, hcs, -⟩ := op.exists_sql
    rw [List.suffix_nil.mp htail, hcs] at hsql
    cases hsql
  rw [splitKey, hnone]

/-! ## Two readings of a spelling -/

/-- An operator is looked for before those whose spelling ends its own. -/
lemma find?_isSuffixOf (op : Operator) :
    (all.find? fun other => other.sql.toList.isSuffixOf op.sql.toList) = some op := by
  cases op <;> rfl

/-- The operator that is taken off is the one at the end whose spelling the others end. -/
lemma splitKey_of_suffix {key : String} {op : Operator} {field : List Char}
    (hfield : fieldBefore? (Text.trimEnd key).toList op = some field)
    (hothers : ∀ other field, fieldBefore? (Text.trimEnd key).toList other = some field →
      other.sql.toList <:+ op.sql.toList) :
    splitKey key = (Text.trim (String.ofList field), some op) := by
  obtain ⟨-, before, behind, hall, hbefore⟩ := List.find?_eq_some_iff_append.mp op.find?_isSuffixOf
  have hnone : ∀ other ∈ before, fieldBefore? (Text.trimEnd key).toList other = none := by
    intro other hother
    rw [Option.eq_none_iff_forall_ne_some]
    intro field hfound
    have hsuffix := List.isSuffixOf_iff_suffix.mpr (hothers other field hfound)
    simpa [hsuffix] using hbefore other hother
  have hfirst : (all.findSome? fun op =>
      (fieldBefore? (Text.trimEnd key).toList op).map (·, op)) = some (field, op) := by
    have hskip : (before.findSome? fun op =>
        (fieldBefore? (Text.trimEnd key).toList op).map (·, op)) = none := by
      rw [List.findSome?_eq_none_iff]
      exact fun other hother => by rw [hnone other hother]; rfl
    rw [hall, List.findSome?_append, hskip, List.findSome?_cons, hfield]
    rfl
  rw [splitKey, hfirst]

/-- A spelling that is read has the letters of the spelling in statements. -/
lemma letterCount_of_parse? {s : String} (h : parse? s = some op) :
    Text.letterCount s.toList = Text.letterCount op.sql.toList := by
  rw [← Text.letterCount_keyword]
  rw [parse?] at h
  split at h
  · next halias =>
      obtain rfl := Option.some.inj h
      rw [halias]
      decide
  · have hsql := List.find?_some h
    rw [beq_iff_eq] at hsql
    rw [hsql]

/-- The key of a name, a space and a spelling, without the blanks at its end. -/
lemma exists_trimEnd_spaced (name : String) {s : String} (h : parse? s = some op) :
    ∃ front, (∀ c ∈ front, Text.isBlank c = true)
      ∧ (Text.trimEnd (name ++ " " ++ s)).toList
        = name.toList ++ ' ' :: front ++ (Text.trim s).toList := by
  have hletter : ∃ c ∈ s.toList, Text.isBlank c = false := by
    by_contra hnone
    have hzero : Text.letterCount s.toList = 0 :=
      Text.letterCount_eq_zero_iff.mpr (by simpa using hnone)
    rw [letterCount_of_parse? h] at hzero
    cases op <;> cases hzero
  obtain ⟨front, hfront, hs⟩ := Text.exists_front s
  refine ⟨front, hfront, ?_⟩
  rw [Text.trimEnd, String.toList_ofList, String.toList_append, Text.dropBlankEnd_append hletter,
    hs, String.toList_append]
  simp

section Spaced

variable {name s : String} (hname : ∀ c ∈ name.toList, Identifier.isNameChar c = true)

include hname

/-- All that can be taken off behind a name is at the end of the spelling. -/
lemma exists_suffix_of_spaced (hs : parse? s = some op) {other : Operator} {field : List Char}
    (h : fieldBefore? (Text.trimEnd (name ++ " " ++ s)).toList other = some field) :
    ∃ tail, tail <:+ (Text.trim s).toList ∧ tail.map Char.toUpper = other.sql.toList := by
  obtain ⟨front, hfront, hkey⟩ := exists_trimEnd_spaced name hs
  have hback : ∀ c ∈ ' ' :: front, Text.isBlank c = true :=
    List.forall_mem_cons.mpr ⟨by decide, hfront⟩
  rw [hkey] at h
  exact exists_suffix_of_fieldBefore? [] _ _ (by simp) hname hback h

/-- What is taken off is the whole spelling, because it has as many letters. -/
lemma upperAscii_of_splitKey (hs : parse? s = some op)
    (h : (splitKey (name ++ " " ++ s)).2 = some op) :
    Text.upperAscii (Text.trim s) = op.sql := by
  obtain ⟨field, hfield⟩ : ∃ field,
      fieldBefore? (Text.trimEnd (name ++ " " ++ s)).toList op = some field := by
    rw [splitKey] at h
    split at h
    · next field found hfound =>
        obtain rfl := Option.some.inj h
        obtain ⟨other, -, hother⟩ := List.exists_of_findSome?_eq_some hfound
        obtain ⟨_, hbefore, heq⟩ := Option.map_eq_some_iff.mp hother
        cases heq
        exact ⟨_, hbefore⟩
    · cases h
  obtain ⟨tail, ⟨rest, hrest⟩, htail⟩ := exists_suffix_of_spaced hname hs hfield
  have hcount : Text.letterCount rest = 0 := by
    have htrim := Text.letterCount_trim s
    rw [letterCount_of_parse? hs, ← hrest, Text.letterCount_append, ← htail,
      Text.letterCount_map_toUpper] at htrim
    omega
  have hnil : rest = [] := by
    cases rest with
    | nil => rfl
    | cons c rest =>
        have hletter := Text.isBlank_of_head?_trim s c (by rw [← hrest]; rfl)
        have hblank := Text.letterCount_eq_zero_iff.mp hcount c List.mem_cons_self
        exact absurd (hletter.symm.trans hblank) Bool.false_ne_true
  rw [hnil, List.nil_append] at hrest
  rw [Text.upperAscii, ← hrest, htail, String.ofList_toList]

/-- The spelling in statements is found, in any case and with blanks around it. -/
lemma splitKey_of_upperAscii (hne : name ≠ "") (hs : parse? s = some op)
    (h : Text.upperAscii (Text.trim s) = op.sql) :
    splitKey (name ++ " " ++ s) = (name, some op) := by
  obtain ⟨front, hfront, hkey⟩ := exists_trimEnd_spaced name hs
  have hback : ∀ c ∈ ' ' :: front, Text.isBlank c = true :=
    List.forall_mem_cons.mpr ⟨by decide, hfront⟩
  have hsql : (Text.trim s).toList.map Char.toUpper = op.sql.toList := by
    rw [← h, Text.upperAscii, String.toList_ofList]
  obtain ⟨c, cs, hc⟩ : ∃ c cs, name.toList = c :: cs :=
    List.exists_cons_of_ne_nil (mt String.toList_eq_nil_iff.mp hne)
  have hfirst : Text.isBlank c = false :=
    Identifier.isBlank_of_isNameChar (hname c (hc ▸ List.mem_cons_self))
  have hfield : fieldBefore? (Text.trimEnd (name ++ " " ++ s)).toList op
      = some (name.toList ++ ' ' :: front) := by
    rw [hkey]
    refine fieldBefore?_append ⟨c, by simp [hc], hfirst⟩ hsql fun _ => ?_
    rw [List.getLast?_append_of_ne_nil _ (List.cons_ne_nil _ _)]
    exact (Option.any_eq_true _ _).mpr
      ⟨_, List.getLast?_eq_some_getLast (List.cons_ne_nil _ _), hback _ (List.getLast_mem _)⟩
  have htrim : Text.trim (String.ofList (name.toList ++ ' ' :: front)) = name := by
    have hfront : (name.toList ++ ' ' :: front).dropWhile Text.isBlank
        = name.toList ++ ' ' :: front := by
      rw [hc, List.cons_append, List.dropWhile_cons_of_neg (by simp [hfirst])]
    rw [Text.trim, String.toList_ofList, hfront, Text.dropBlankEnd_append_of_isBlank _ hback,
      Identifier.dropBlankEnd_eq_self hname, String.ofList_toList]
  rw [splitKey_of_suffix hfield fun other field hother => ?_, htrim]
  obtain ⟨tail, htail, hother⟩ := exists_suffix_of_spaced hname hs hother
  rw [← hother, ← hsql]
  exact htail.map _

end Spaced

/-- **A name, a space and a spelling of an operator are taken apart again exactly if the spelling
is the one in statements**, but for its case and the blanks around it.  Any other spelling that is
read alone is not found there: `<>`, and two words with more or other blanks between them than one
space. -/
theorem splitKey_spaced_iff {parts : List String} (hparts : Identifier.Dotted parts) {s : String}
    {op : Operator} (hs : parse? s = some op) :
    (splitKey (".".intercalate parts ++ " " ++ s) = (".".intercalate parts, some op)
        ↔ Text.upperAscii (Text.trim s) = op.sql)
      ∧ (Text.upperAscii (Text.trim s) ≠ op.sql →
        (splitKey (".".intercalate parts ++ " " ++ s)).2 ≠ some op) := by
  refine ⟨⟨fun h => ?_, splitKey_of_upperAscii hparts.isNameChar hparts.intercalate_ne hs⟩, mt ?_⟩
  · exact upperAscii_of_splitKey hparts.isNameChar hs (congrArg Prod.snd h)
  · exact upperAscii_of_splitKey hparts.isNameChar hs

/-- A spelling in small letters behind a tab is taken off; `<>` and two spaces are not. -/
theorem splitKey_spaced_of_name :
    Identifier.Dotted ["u", "name"] ∧ parse? "\tnot like " = some .notLike
      ∧ parse? "<>" = some .ne ∧ parse? "not  like" = some .notLike
      ∧ splitKey (".".intercalate ["u", "name"] ++ " " ++ "\tnot like ")
        = (".".intercalate ["u", "name"], some .notLike)
      ∧ (splitKey (".".intercalate ["u", "name"] ++ " " ++ "<>")).2 ≠ some .ne
      ∧ (splitKey (".".intercalate ["u", "name"] ++ " " ++ "not  like")).2 ≠ some .notLike := by
  have hparts : Identifier.Dotted ["u", "name"] :=
    .more ((Identifier.partFault?_eq_none_iff "u").mp rfl)
      (.word ((Identifier.partFault?_eq_none_iff "name").mp rfl))
  have hspelled : parse? "\tnot like " = some .notLike := by decide
  have halias : parse? "<>" = some .ne := by decide
  have hspaces : parse? "not  like" = some .notLike := by decide
  exact ⟨hparts, hspelled, halias, hspaces, (splitKey_spaced_iff hparts hspelled).1.mpr (by decide),
    (splitKey_spaced_iff hparts halias).2 (by decide),
    (splitKey_spaced_iff hparts hspaces).2 (by decide)⟩

end Operator

end RelQuery
