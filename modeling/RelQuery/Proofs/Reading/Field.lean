import RelQuery.Clause.Field
import RelQuery.Proofs.Condition.KeyOperator

/-!
# Reading fields

A field is written with its table in front and its alias behind, and the parts are told apart by
looking for the last `AS` and the last point.  Names may spell `AS` themselves, and in expressions
anything may stand, so what counts is where an `AS` stands: between spaces, and outside of
parentheses.

* `Field.Balanced` are the texts in which parentheses come in pairs.
* `Field.SpellsBody` and `Field.SpellsAlias` are the written forms of a field and of its alias.
* **`Field.splitAlias?_eq_none_iff`** — nothing is split exactly if no `AS` stands where none is
  open.
* **`Field.parse_of_spells`** — what is read is what is written.
-/

namespace RelQuery

open Identifier

/-! ## Blanks around a text -/

namespace Text

/-- A trimmed text ends with something else than a blank. -/
lemma isBlank_of_getLast?_trim (s : String) :
    ∀ c ∈ (trim s).toList.getLast?, isBlank c = false := by
  intro c hc
  rw [trim, String.toList_ofList] at hc
  obtain ⟨hne, hlast⟩ := List.mem_getLast?_eq_getLast hc
  have hnot : ¬ isBlank ((dropBlankEnd (s.toList.dropWhile isBlank)).getLast hne) = true :=
    List.rdropWhile_last_not isBlank _ hne
  rw [hlast]
  simpa using hnot

/-- Blanks around a text that neither begins nor ends with one are cut off, and nothing else. -/
lemma trim_padded {left cs right : List Char} (hleft : ∀ c ∈ left, isBlank c = true)
    (hright : ∀ c ∈ right, isBlank c = true) (hhead : ∀ c ∈ cs.head?, isBlank c = false)
    (hlast : ∀ c ∈ cs.getLast?, isBlank c = false) :
    trim (String.ofList (left ++ cs ++ right)) = String.ofList cs := by
  have hfront : (left ++ cs ++ right).dropWhile isBlank = (cs ++ right).dropWhile isBlank := by
    rw [List.append_assoc, List.dropWhile_append_of_pos hleft]
  rw [trim, String.toList_ofList, hfront]
  cases cs with
  | nil => rw [List.nil_append, List.dropWhile_eq_nil_iff.mpr hright]; rfl
  | cons c cs =>
      have hc : isBlank c = false := hhead c rfl
      have hkept : (c :: cs).rdropWhile isBlank = c :: cs := by
        rw [List.rdropWhile_eq_self_iff]
        intro hne
        simpa using hlast _ (List.getLast?_eq_getLast_of_ne_nil hne)
      rw [List.cons_append, List.dropWhile_cons_of_neg (by simp [hc]), ← List.cons_append,
        dropBlankEnd_append_of_isBlank _ hright]
      exact congrArg String.ofList hkept

end Text

namespace Field

/-! ## Parentheses -/

/-- Parentheses come in pairs. -/
inductive Balanced : List Char → Prop
  | nil : Balanced []
  | other {c : Char} {cs : List Char} (hopening : c ≠ '(') (hclosing : c ≠ ')')
    (hrest : Balanced cs) : Balanced (c :: cs)
  | pair {inside rest : List Char} (hinside : Balanced inside) (hrest : Balanced rest) :
    Balanced ('(' :: inside ++ ')' :: rest)

lemma Balanced.append_of_not_mem {cs rest : List Char} (hopening : '(' ∉ cs) (hclosing : ')' ∉ cs)
    (hrest : Balanced rest) : Balanced (cs ++ rest) := by
  induction cs with
  | nil => exact hrest
  | cons c cs ih =>
      simp only [List.mem_cons, not_or] at hopening hclosing
      exact .other (Ne.symm hopening.1) (Ne.symm hclosing.1) (ih hopening.2 hclosing.2)

lemma balanced_of_not_mem {cs : List Char} (hopening : '(' ∉ cs) (hclosing : ')' ∉ cs) :
    Balanced cs := by
  simpa using Balanced.append_of_not_mem hopening hclosing .nil

lemma depthAfter_of_ne {c : Char} (hopening : c ≠ '(') (hclosing : c ≠ ')') (depth : Nat) :
    depthAfter depth c = depth := by
  rw [depthAfter, if_neg hopening, if_neg hclosing]

/-- As many parentheses are open behind a balanced text as before it. -/
lemma Balanced.foldl_depthAfter {cs : List Char} (h : Balanced cs) (depth : Nat) :
    cs.foldl depthAfter depth = depth := by
  induction h generalizing depth with
  | nil => rfl
  | other hopening hclosing _ ih =>
      rw [List.foldl_cons, depthAfter_of_ne hopening hclosing, ih]
  | pair _ _ ihinside ihrest =>
      rw [List.cons_append, List.foldl_cons, List.foldl_append, ihinside, List.foldl_cons, ihrest]
      simp [depthAfter]

/-- Inside of a balanced text no more parentheses are closed than were opened, and where none is
open, the text up to there is balanced. -/
lemma Balanced.of_append {before rest : List Char} (h : Balanced (before ++ rest)) (depth : Nat) :
    depth ≤ before.foldl depthAfter depth
      ∧ (before.foldl depthAfter depth = depth → Balanced before) := by
  generalize hcs : before ++ rest = cs at h
  induction h generalizing before rest depth with
  | nil =>
      obtain ⟨rfl, -⟩ := List.append_eq_nil_iff.mp hcs
      exact ⟨le_rfl, fun _ => .nil⟩
  | other hopening hclosing _ ih =>
      cases before with
      | nil => exact ⟨le_rfl, fun _ => .nil⟩
      | cons c before =>
          rw [List.cons_append] at hcs
          obtain ⟨rfl, htail⟩ := List.cons.inj hcs
          rw [List.foldl_cons, depthAfter_of_ne hopening hclosing]
          obtain ⟨hle, hbalanced⟩ := ih depth htail
          exact ⟨hle, fun heq => .other hopening hclosing (hbalanced heq)⟩
  | @pair inside later hinside _ ihinside ihlater =>
      cases before with
      | nil => exact ⟨le_rfl, fun _ => .nil⟩
      | cons c before =>
          rw [List.cons_append, List.cons_append] at hcs
          obtain ⟨rfl, htail⟩ := List.cons.inj hcs
          have hopen : depthAfter depth '(' = depth + 1 := by simp [depthAfter]
          rw [List.foldl_cons, hopen]
          rcases List.append_eq_append_iff.mp htail with ⟨front, hfront, -⟩ | ⟨front, rfl, hfront⟩
          · -- the text ends inside of the pair
            have hle := (ihinside (depth + 1) hfront.symm).1
            exact ⟨by omega, by omega⟩
          · rw [List.foldl_append, hinside.foldl_depthAfter]
            cases front with
            | nil => simp
            | cons c front =>
                rw [List.cons_append] at hfront
                obtain ⟨rfl, hlater⟩ := List.cons.inj hfront
                have hclose : depthAfter (depth + 1) ')' = depth := by simp [depthAfter]
                rw [List.foldl_cons, hclose]
                obtain ⟨hle, hbalanced⟩ := ihlater depth hlater.symm
                exact ⟨hle, fun heq => .pair hinside (hbalanced heq)⟩

/-! ## The word between spaces -/

/-- The word `AS`, in some letter case. -/
def IsAs (word : List Char) : Prop :=
  word ∈ [['A', 'S'], ['A', 's'], ['a', 'S'], ['a', 's']]

instance (word : List Char) : Decidable (IsAs word) :=
  inferInstanceAs (Decidable (word ∈ [['A', 'S'], ['A', 's'], ['a', 'S'], ['a', 's']]))

/-- Some spaces, and at least one. -/
def IsGap (cs : List Char) : Prop := cs ≠ [] ∧ ∀ c ∈ cs, c = ' '

/-- Such a word has two letters in it. -/
lemma IsAs.exists_eq {word : List Char} (h : IsAs word) :
    ∃ a s, word = [a, s] ∧ ∀ c ∈ word, c ≠ ' ' ∧ c ≠ '(' ∧ c ≠ ')' := by
  simp only [IsAs, List.mem_cons, List.not_mem_nil, or_false] at h
  rcases h with rfl | rfl | rfl | rfl <;> exact ⟨_, _, rfl, by simp⟩

lemma eq_toUpper_or (c : Char) : c = c.toUpper ∨ c = c.toUpper.toLower := by
  by_cases hlower : c.toNat < 128
  · have all : ∀ n < 128, Char.ofNat n = (Char.ofNat n).toUpper
        ∨ Char.ofNat n = (Char.ofNat n).toUpper.toLower := by
      decide +kernel
    simpa [Char.ofNat_toNat] using all c.toNat hlower
  · left
    rw [Char.toUpper, dif_neg]
    rintro ⟨-, hle⟩
    have : c.toNat ≤ 122 := hle
    omega

lemma beginsWithAs_of_isAs {word : List Char} (h : IsAs word) (rest : List Char) :
    beginsWithAs (' ' :: word ++ ' ' :: rest) = true := by
  simp only [IsAs, List.mem_cons, List.not_mem_nil, or_false] at h
  rcases h with rfl | rfl | rfl | rfl <;> rfl

lemma exists_isAs_of_beginsWithAs {cs : List Char} (h : beginsWithAs cs = true) :
    ∃ word rest, cs = ' ' :: word ++ ' ' :: rest ∧ IsAs word := by
  rw [beginsWithAs, beq_iff_eq] at h
  rcases cs with _ | ⟨a, _ | ⟨b, _ | ⟨c, _ | ⟨d, rest⟩⟩⟩⟩
  all_goals simp at h
  obtain ⟨ha, hb, hc, hd⟩ := h
  have hspace {e : Char} (he : e.toUpper = ' ') : e = ' ' := by
    rcases eq_toUpper_or e with h | h
    · rw [h, he]
    · rw [h, he]; rfl
  refine ⟨[b, c], rest, by rw [hspace ha, hspace hd]; rfl, ?_⟩
  have hbs := eq_toUpper_or b
  have hcs := eq_toUpper_or c
  rw [hb] at hbs
  rw [hc] at hcs
  rcases hbs with rfl | rfl <;> rcases hcs with rfl | rfl <;> decide

/-! ## Where a text is split -/

/-- A split behind some characters is one of the whole text. -/
lemma splitAlias?_append (before : List Char) (depth : Nat) {rest body aliasName : List Char}
    (h : splitAlias? (before.foldl depthAfter depth) rest = some (body, aliasName)) :
    splitAlias? depth (before ++ rest) = some (before ++ body, aliasName) := by
  induction before generalizing depth with
  | nil => exact h
  | cons c before ih =>
      rw [List.cons_append, splitAlias?, ih _ h]
      rfl

/-- **Nothing is split exactly if no `AS` stands between spaces where no parenthesis is open.** -/
theorem splitAlias?_eq_none_iff (depth : Nat) (cs : List Char) :
    splitAlias? depth cs = none ↔ ∀ before rest, cs = before ++ rest →
      before.foldl depthAfter depth = 0 → beginsWithAs rest = false := by
  induction cs generalizing depth with
  | nil =>
      refine iff_of_true rfl fun before rest hcs _ => ?_
      obtain ⟨-, rfl⟩ := List.append_eq_nil_iff.mp hcs.symm
      rfl
  | cons c cs ih =>
      -- a place in the text is its front, or one behind the first character
      have hplaces : (∀ before rest, c :: cs = before ++ rest →
            before.foldl depthAfter depth = 0 → beginsWithAs rest = false)
          ↔ (depth = 0 → beginsWithAs (c :: cs) = false)
            ∧ splitAlias? (depthAfter depth c) cs = none := by
        rw [ih]
        constructor
        · intro h
          refine ⟨h [] (c :: cs) rfl, fun before rest hcs => h (c :: before) rest ?_⟩
          rw [hcs, List.cons_append]
        · rintro ⟨hfront, hbehind⟩ before rest hcs hdepth
          cases before with
          | nil =>
              rw [← List.nil_append rest, ← hcs]
              exact hfront hdepth
          | cons d before =>
              obtain ⟨rfl, htail⟩ := List.cons.inj hcs
              exact hbehind before rest htail hdepth
      rw [splitAlias?, hplaces]
      cases splitAlias? (depthAfter depth c) cs with
      | some parts => simp
      | none => by_cases hdepth : depth = 0 <;> simp [hdepth]

/-- A balanced text is not split exactly if every `AS` between spaces has an open parenthesis before
it. -/
lemma Balanced.splitAlias?_eq_none_iff {cs : List Char} (h : Balanced cs) :
    splitAlias? 0 cs = none ↔ ∀ before word rest,
      cs = before ++ (' ' :: word ++ ' ' :: rest) → IsAs word → ¬ Balanced before := by
  rw [Field.splitAlias?_eq_none_iff]
  constructor
  · intro hnone before word rest hcs hword hbefore
    have hbegins := hnone before _ hcs (hbefore.foldl_depthAfter 0)
    rw [beginsWithAs_of_isAs hword] at hbegins
    cases hbegins
  · intro houtside before rest hcs hdepth
    by_contra hbegins
    obtain ⟨word, rest, rfl, hword⟩ := exists_isAs_of_beginsWithAs (by simpa using hbegins)
    rw [hcs] at h
    exact houtside before word rest hcs hword ((h.of_append 0).2 hdepth)

/-- A word with other characters in it than spaces and parentheses is passed over. -/
lemma splitAlias?_word {word cs : List Char} {depth : Nat}
    (hword : ∀ c ∈ word, c ≠ ' ' ∧ c ≠ '(' ∧ c ≠ ')') (h : splitAlias? depth cs = none) :
    splitAlias? depth (word ++ cs) = none := by
  induction word with
  | nil => exact h
  | cons c word ih =>
      obtain ⟨⟨hspace, hopening, hclosing⟩, hrest⟩ := List.forall_mem_cons.mp hword
      have hbegins : beginsWithAs (c :: (word ++ cs)) = false := by
        by_contra hbegins
        obtain ⟨_, _, heq, -⟩ := exists_isAs_of_beginsWithAs (by simpa using hbegins)
        exact hspace (List.cons.inj heq).1
      rw [List.cons_append, splitAlias?, depthAfter_of_ne hopening hclosing, ih hrest, hbegins]
      simp

/-- No `AS` between spaces is in a word and the spaces in front of it. -/
lemma splitAlias?_gap_append {gap : List Char} {word : String} (hgap : ∀ c ∈ gap, c = ' ')
    (hword : IsWord word) : splitAlias? 0 (gap ++ word.toList) = none := by
  have hspace : ' ' ∉ word.toList := hword.not_mem (by decide)
  -- in such a text spaces stand behind spaces only
  have hbehind : (gap ++ word.toList).Pairwise fun c d => d = ' ' → c = ' ' := by
    refine List.pairwise_append.mpr ⟨?_, ?_, fun c hc _ _ _ => hgap c hc⟩
    · exact List.pairwise_of_forall_mem_list fun c hc _ _ _ => hgap c hc
    · exact List.pairwise_of_forall_mem_list fun _ _ d hd heq => absurd (heq ▸ hd) hspace
  rw [splitAlias?_eq_none_iff]
  intro before rest hsplit _
  by_contra hbegins
  obtain ⟨as, rest, rfl, has⟩ := exists_isAs_of_beginsWithAs (by simpa using hbegins)
  obtain ⟨a, s, rfl, hletters⟩ := has.exists_eq
  have hsub : [a, ' '].Sublist (gap ++ word.toList) := by
    rw [hsplit]
    simp
  have hspaces : ' ' = ' ' → a = ' ' := List.pairwise_pair.mp (hbehind.sublist hsub)
  exact (hletters a List.mem_cons_self).1 (hspaces rfl)

/-! ## Points -/

lemma splitTable?_eq_none {cs : List Char} (h : '.' ∉ cs) : splitTable? cs = none := by
  induction cs with
  | nil => rfl
  | cons c cs ih =>
      simp only [List.mem_cons, not_or] at h
      rw [splitTable?, ih h.2]
      exact if_neg (Ne.symm h.1)

lemma splitTable?_append_point (table : List Char) {name : List Char} (h : '.' ∉ name) :
    splitTable? (table ++ '.' :: name) = some (table, name) := by
  induction table with
  | nil =>
      rw [List.nil_append, splitTable?, splitTable?_eq_none h]
      rfl
  | cons c table ih =>
      rw [List.cons_append, splitTable?, ih]

/-! ## Written forms -/

/-- The name of a table: words with points between them. -/
def IsTable (table : String) : Prop :=
  ∃ parts ≠ [], (∀ part ∈ parts, IsWord part) ∧ table = ".".intercalate parts

/-- A table in front of a name. -/
def tableText : Option String → String
  | none => ""
  | some table => table ++ "."

/-- The written forms of a field without an alias. -/
inductive SpellsBody : Field → String → Prop
  | column {table : Option String} {name : String} (htable : ∀ t ∈ table, IsTable t)
    (hname : IsWord name) : SpellsBody { table, name := .column name } (tableText table ++ name)
  | all {table : Option String} (htable : ∀ t ∈ table, IsTable t) :
    SpellsBody { table, name := .all } (tableText table ++ "*")
  /-- An expression without blanks around it.  It has parentheses, all of them in pairs, and outside
  of these no `AS` between spaces. -/
  | expression {text : String} (htrim : Text.trim text = text) (hparens : '(' ∈ text.toList)
    (hbalanced : Balanced text.toList)
    (houtside : ∀ before word rest, text.toList = before ++ (' ' :: word ++ ' ' :: rest) →
      IsAs word → ¬ Balanced before) :
    SpellsBody { name := .raw text } text

/-- The written forms of an alias, behind a field. -/
inductive SpellsAlias : Option String → List Char → Prop
  | none : SpellsAlias none []
  | some {before word after : List Char} {aliasName : String} (hbefore : IsGap before)
    (hword : IsAs word) (hafter : IsGap after) (halias : IsWord aliasName) :
    SpellsAlias (some aliasName) (before ++ word ++ after ++ aliasName.toList)

/-- The written forms of a field, with blanks around it. -/
inductive Spells : Field → String → Prop
  | mk {field : Field} {body : String} {aliasName : Option String} {mark left right : List Char}
    (hbody : SpellsBody field body) (hmark : SpellsAlias aliasName mark)
    (hleft : ∀ c ∈ left, Text.isBlank c = true) (hright : ∀ c ∈ right, Text.isBlank c = true) :
    Spells { field with aliasName } (String.ofList (left ++ (body.toList ++ mark) ++ right))

/-! ## Reading what is written -/

lemma IsTable.isNameChar {table : String} (h : IsTable table) :
    ∀ c ∈ table.toList, isNameChar c = true := by
  obtain ⟨parts, hne, hwords, rfl⟩ := h
  have hdotted : Dotted parts := by
    induction parts with
    | nil => exact absurd rfl hne
    | cons part parts ih =>
        obtain ⟨hpart, hparts⟩ := List.forall_mem_cons.mp hwords
        cases parts with
        | nil => exact .word hpart
        | cons next parts => exact .more hpart (ih (List.cons_ne_nil _ _) hparts)
  exact hdotted.isNameChar

lemma isNameChar_tableText {table : Option String} (htable : ∀ t ∈ table, IsTable t) {name : String}
    (hname : ∀ c ∈ name.toList, isNameChar c = true) :
    ∀ c ∈ (tableText table ++ name).toList, isNameChar c = true := by
  cases table with
  | none => simpa [tableText] using hname
  | some table =>
      have htable := (htable table rfl).isNameChar
      rw [tableText, String.toList_append, String.toList_append]
      simp only [List.forall_mem_append]
      exact ⟨⟨htable, by simp [Identifier.isNameChar]⟩, hname⟩

/-- A name is read with the table in front of it. -/
lemma ofBody_tableText {table : Option String} (htable : ∀ t ∈ table, IsTable t) {name : String}
    (hname : ∀ c ∈ name.toList, isNameChar c = true) (hpoint : '.' ∉ name.toList) :
    ofBody (tableText table ++ name)
      = { table, name := if name = "*" then .all else .column name } := by
  have hparens : (tableText table ++ name).toList.contains '(' = false := by
    rw [Bool.eq_false_iff]
    intro hmem
    have hchar := isNameChar_tableText htable hname '(' (List.contains_iff_mem.mp hmem)
    exact absurd hchar (by decide)
  rw [ofBody, hparens, if_neg Bool.false_ne_true]
  cases table with
  | none =>
      rw [tableText, String.empty_append, splitTable?_eq_none hpoint]
      split <;> rfl
  | some table =>
      have htext : (tableText (some table) ++ name).toList = table.toList ++ '.' :: name.toList := by
        simp [tableText]
      have hstar : tableText (some table) ++ name ≠ "*" := by
        intro heq
        have hmem : '.' ∈ "*".toList := by
          rw [← heq, htext]
          simp
        exact absurd hmem (by decide)
      rw [if_neg hstar, htext, splitTable?_append_point _ hpoint]
      have hall : name.toList = ['*'] ↔ name = "*" := by
        rw [← String.toList_inj]
        rfl
      simp [hall]

namespace SpellsBody

variable {field : Field} {body : String}

lemma aliasName_eq (h : SpellsBody field body) : field.aliasName = none := by
  cases h <;> rfl

/-- A field that is no expression is written as a name. -/
lemma isNameChar_or (h : SpellsBody field body) :
    (body.toList ≠ [] ∧ ∀ c ∈ body.toList, isNameChar c = true) ∨ field.name = .raw body := by
  cases h with
  | @column table name htable hname =>
      refine .inl ⟨?_, isNameChar_tableText htable hname.isNameChar⟩
      simp [hname.ne_nil]
  | all htable =>
      refine .inl ⟨?_, isNameChar_tableText htable (by simp [Identifier.isNameChar])⟩
      simp
  | expression _ _ _ _ => exact .inr rfl

lemma ofBody_eq (h : SpellsBody field body) : ofBody body = field := by
  cases h with
  | @column table name htable hname =>
      have hstar : name ≠ "*" := by
        rintro rfl
        exact hname.not_mem (c := '*') (by decide) (by decide)
      rw [ofBody_tableText htable hname.isNameChar (hname.not_mem (by decide)), if_neg hstar]
  | all htable =>
      rw [ofBody_tableText htable (by simp [Identifier.isNameChar]) (by decide), if_pos rfl]
  | expression _ hparens _ _ =>
      rw [ofBody, if_pos (List.contains_iff_mem.mpr hparens)]

lemma balanced (h : SpellsBody field body) : Balanced body.toList := by
  rcases h.isNameChar_or with ⟨-, hchars⟩ | hraw
  · refine balanced_of_not_mem (fun hmem => ?_) (fun hmem => ?_)
    · exact absurd (hchars _ hmem) (by decide)
    · exact absurd (hchars _ hmem) (by decide)
  · cases h with
    | expression _ _ hbalanced _ => exact hbalanced
    | _ => cases hraw

/-- A field without an alias is not split. -/
lemma splitAlias?_eq (h : SpellsBody field body) : splitAlias? 0 body.toList = none := by
  refine h.balanced.splitAlias?_eq_none_iff.mpr ?_
  intro before word rest hsplit hword
  rcases h.isNameChar_or with ⟨-, hchars⟩ | hraw
  · have hspace : ' ' ∈ body.toList := by
      rw [hsplit]
      simp
    exact absurd (hchars _ hspace) (by decide)
  · cases h with
    | expression _ _ _ houtside => exact houtside before word rest hsplit hword
    | _ => cases hraw

/-- A field begins and ends with something else than a blank. -/
lemma ends (h : SpellsBody field body) : body.toList ≠ []
    ∧ (∀ c ∈ body.toList.head?, Text.isBlank c = false)
    ∧ ∀ c ∈ body.toList.getLast?, Text.isBlank c = false := by
  rcases h.isNameChar_or with ⟨hne, hchars⟩ | hraw
  · exact ⟨hne, fun c hc => isBlank_of_isNameChar (hchars c (List.mem_of_mem_head? hc)),
      fun c hc => isBlank_of_isNameChar (hchars c (List.mem_of_mem_getLast? hc))⟩
  · cases h with
    | expression htrim hparens _ _ =>
        refine ⟨List.ne_nil_of_mem hparens, ?_⟩
        rw [← htrim]
        exact ⟨Text.isBlank_of_head?_trim body, Text.isBlank_of_getLast?_trim body⟩
    | _ => cases hraw

end SpellsBody

/-- A field with its alias is split behind the field, at the last space before the `AS`. -/
lemma splitAlias?_mark {before word after : List Char} {body aliasName : String}
    (hbody : Balanced body.toList) (hbefore : IsGap before) (hword : IsAs word) (hafter : IsGap after)
    (halias : IsWord aliasName) :
    splitAlias? 0 (body.toList ++ (before ++ word ++ after ++ aliasName.toList))
      = some (body.toList ++ before.dropLast, after.tail ++ aliasName.toList) := by
  obtain ⟨hne, hspaces⟩ := hbefore
  obtain ⟨hne', hspaces'⟩ := hafter
  have hfront : before = before.dropLast ++ [' '] := by
    rw [← hspaces _ (List.getLast_mem hne), List.dropLast_append_getLast]
  have hback : after = ' ' :: after.tail := by
    rw [← hspaces' _ (List.head_mem hne'), List.cons_head_tail]
  have hdepth : (body.toList ++ before.dropLast).foldl depthAfter 0 = 0 := by
    have hspace : ∀ c ∈ before.dropLast, c = ' ' :=
      fun c hc => hspaces c (List.mem_of_mem_dropLast hc)
    have hbalanced : Balanced before.dropLast :=
      balanced_of_not_mem (fun hmem => absurd (hspace _ hmem) (by decide))
        (fun hmem => absurd (hspace _ hmem) (by decide))
    rw [List.foldl_append, hbody.foldl_depthAfter, hbalanced.foldl_depthAfter]
  -- no later `AS` is there: the alias is one word
  have hlater : splitAlias? 0 (word ++ (after ++ aliasName.toList)) = none := by
    obtain ⟨_, _, -, hletters⟩ := hword.exists_eq
    exact splitAlias?_word hletters (splitAlias?_gap_append hspaces' halias)
  have hmark : splitAlias? 0 (' ' :: (word ++ (after ++ aliasName.toList)))
      = some ([], after.tail ++ aliasName.toList) := by
    have hbegins : beginsWithAs (' ' :: (word ++ (after ++ aliasName.toList))) = true := by
      rw [hback]
      exact beginsWithAs_of_isAs hword (after.tail ++ aliasName.toList)
    rw [splitAlias?, depthAfter_of_ne (by decide) (by decide), hlater, hbegins]
    obtain ⟨a, s, rfl, -⟩ := hword.exists_eq
    rw [hback]
    rfl
  have hsplit := splitAlias?_append (body.toList ++ before.dropLast) 0
    (by rw [hdepth]; exact hmark)
  rw [List.append_nil] at hsplit
  rw [← hsplit]
  nth_rewrite 1 [hfront]
  simp

/-- An alias ends with something else than a blank. -/
lemma SpellsAlias.isBlank_of_getLast? {body : List Char} {aliasName : Option String}
    {mark : List Char} (hbody : ∀ c ∈ body.getLast?, Text.isBlank c = false)
    (h : SpellsAlias aliasName mark) :
    ∀ c ∈ (body ++ mark).getLast?, Text.isBlank c = false := by
  cases h with
  | none => simpa using hbody
  | some _ _ _ halias =>
      rw [← List.append_assoc, List.getLast?_append_of_ne_nil _ halias.ne_nil]
      exact fun c hc => isBlank_of_isNameChar (halias.isNameChar c (List.mem_of_mem_getLast? hc))

lemma isBlank_of_isGap {gap : List Char} (h : IsGap gap) : ∀ c ∈ gap, Text.isBlank c = true := by
  intro c hc
  rw [h.2 c hc]
  rfl

/-- **What is read is what is written**: a column, all columns or an expression, with the table in
front of it and the alias behind. -/
theorem parse_of_spells {field : Field} {spec : String} (h : Spells field spec) :
    parse spec = field := by
  cases h with
  | @mk field body aliasName mark left right hbody hmark hleft hright =>
      obtain ⟨hne, hhead, hlast⟩ := hbody.ends
      have htrim : Text.trim (String.ofList (left ++ (body.toList ++ mark) ++ right))
          = String.ofList (body.toList ++ mark) := by
        refine Text.trim_padded hleft hright ?_ (hmark.isBlank_of_getLast? hlast)
        rwa [List.head?_append_of_ne_nil _ hne]
      rw [parse, htrim, String.toList_ofList]
      cases hmark with
      | none =>
          rw [List.append_nil, hbody.splitAlias?_eq, String.ofList_toList]
          change ofBody body = _
          rw [hbody.ofBody_eq, ← hbody.aliasName_eq]
      | @some before word after name hbefore hword hafter halias =>
          have hnone : ∀ c ∈ ([] : List Char), Text.isBlank c = true := List.forall_mem_nil _
          have hfield : Text.trim (String.ofList (body.toList ++ before.dropLast)) = body := by
            have hpadded := Text.trim_padded hnone
              (fun c hc => isBlank_of_isGap hbefore c (List.mem_of_mem_dropLast hc)) hhead hlast
            rwa [List.nil_append, String.ofList_toList] at hpadded
          have hchars : ∀ c ∈ name.toList, Text.isBlank c = false :=
            fun c hc => isBlank_of_isNameChar (halias.isNameChar c hc)
          have hname : Text.trim (String.ofList (after.tail ++ name.toList)) = name := by
            have hgap : ∀ c ∈ after.tail, Text.isBlank c = true :=
              fun c hc => isBlank_of_isGap hafter c (List.mem_of_mem_tail hc)
            have hhead : ∀ c ∈ name.toList.head?, Text.isBlank c = false :=
              fun c hc => hchars c (List.mem_of_mem_head? hc)
            have hpadded := Text.trim_padded hgap hnone hhead
              (fun c hc => hchars c (List.mem_of_mem_getLast? hc))
            rwa [List.append_nil, String.ofList_toList] at hpadded
          rw [splitAlias?_mark hbody.balanced hbefore hword hafter halias]
          simp only [hfield, hname, hbody.ofBody_eq]

/-- A cast has an `AS` of its own, and the name of a type may be one too. -/
theorem parse_cast_as :
    Spells { aliasName := some "as", name := .raw "COALESCE(CAST(x AS as), 0) AS" }
        "\t COALESCE(CAST(x AS as), 0) AS  aS   as\u00a0"
      ∧ parse "\t COALESCE(CAST(x AS as), 0) AS  aS   as\u00a0"
        = { aliasName := some "as", name := .raw "COALESCE(CAST(x AS as), 0) AS" } := by
  have hbalanced : Balanced "COALESCE(CAST(x AS as), 0) AS".toList := by
    have htype : Balanced "x AS as".toList := balanced_of_not_mem (by decide) (by decide)
    have hzero : Balanced ", 0".toList := balanced_of_not_mem (by decide) (by decide)
    have hend : Balanced " AS".toList := balanced_of_not_mem (by decide) (by decide)
    have hcast : Balanced ("CAST".toList ++ ('(' :: "x AS as".toList ++ ')' :: ", 0".toList)) :=
      .append_of_not_mem (by decide) (by decide) (.pair htype hzero)
    show Balanced ("COALESCE".toList ++ ('(' :: "CAST(x AS as), 0".toList ++ ')' :: " AS".toList))
    exact .append_of_not_mem (by decide) (by decide) (.pair hcast hend)
  have hspells : Spells { aliasName := some "as", name := .raw "COALESCE(CAST(x AS as), 0) AS" }
      "\t COALESCE(CAST(x AS as), 0) AS  aS   as\u00a0" :=
    @Spells.mk _ _ _ _ ['\t', ' '] ['\u00a0']
      (.expression (by decide +kernel) (by decide) hbalanced
        (hbalanced.splitAlias?_eq_none_iff.mp (by decide +kernel)))
      (@SpellsAlias.some "  ".toList "aS".toList "   ".toList "as"
        ⟨by decide, by simp⟩ (by decide) ⟨by decide, by simp⟩
        ((partFault?_eq_none_iff "as").mp rfl))
      (List.all_eq_true.mp rfl) (List.all_eq_true.mp rfl)
  exact ⟨hspells, parse_of_spells hspells⟩

end Field

end RelQuery
