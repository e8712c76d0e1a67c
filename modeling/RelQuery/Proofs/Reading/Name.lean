import RelQuery.Proofs.Condition.Steps
import RelQuery.Proofs.Reading.Quoted

/-!
# Reading names

Every name of a table, an alias or a column is checked and put between quotes before it is written.
The check accepts a plain grammar and nothing else, and what is written is read back as the parts of
the name: no character of a name is read outside of its quotes.

* `Identifier.Dotted` is the grammar, by its parts: words, and at most a `*` behind the last point.
* `Dialect.nameTokens?` is how a database reads a written name: quoted names, points, stars, and
  any other character, each on its own.
* **`Identifier.parse_eq_ok_iff`** — the check accepts the grammar.
* **`Identifier.quote_lossless`** — what is written is read back as the parts of the name.
-/

namespace RelQuery

namespace Identifier

/-! ## The grammar -/

/-- A letter of the plain alphabet, or an underscore. -/
def IsStart (c : Char) : Prop := ('A' ≤ c ∧ c ≤ 'Z') ∨ ('a' ≤ c ∧ c ≤ 'z') ∨ c = '_'

/-- Such a letter, a digit, or a dollar sign. -/
def IsMore (c : Char) : Prop := IsStart c ∨ ('0' ≤ c ∧ c ≤ '9') ∨ c = '$'

/-- A letter or an underscore, and any number of letters, digits, underscores and dollar signs. -/
def IsWord (part : String) : Prop :=
  match part.toList with
  | [] => False
  | c :: cs => IsStart c ∧ ∀ d ∈ cs, IsMore d

/-- The parts of a name: a `*` alone, or one word and more, the last of which may be a `*`. -/
inductive Dotted : List String → Prop
  | all : Dotted ["*"]
  | word {part : String} (h : IsWord part) : Dotted [part]
  | more {part : String} {parts : List String} (h : IsWord part) (hparts : Dotted parts) :
    Dotted (part :: parts)

lemma isPartStart_iff (c : Char) : isPartStart c = true ↔ IsStart c := by
  simp only [isPartStart, IsStart, Char.isAlpha, Char.isUpper, Char.isLower, Bool.or_eq_true,
    Bool.and_eq_true, decide_eq_true_eq, Char.le_def, ge_iff_le]
  tauto

lemma isPartChar_iff (c : Char) : isPartChar c = true ↔ IsMore c := by
  rw [IsMore, ← isPartStart_iff]
  simp only [isPartChar, isPartStart, Char.isAlphanum, Char.isDigit, Bool.or_eq_true,
    Bool.and_eq_true, decide_eq_true_eq, Char.le_def, ge_iff_le]
  tauto

/-- A part without a fault is a word. -/
lemma partFault?_eq_none_iff (part : String) : partFault? part = none ↔ IsWord part := by
  rw [partFault?, IsWord]
  cases part.toList with
  | nil => simp
  | cons c cs =>
      have hmore : (cs.find? fun d => !isPartChar d) = none ↔ ∀ d ∈ cs, IsMore d := by
        simp [List.find?_eq_none, isPartChar_iff]
      dsimp only
      rw [← isPartStart_iff, ← hmore]
      cases isPartStart c <;> simp

/-- Parts without a fault are those of a name. -/
lemma partsFault?_eq_none_iff : (part : String) → (parts : List String) →
    (partsFault? (part :: parts) = none ↔ Dotted (part :: parts))
  | part, [] => by
      by_cases hall : part = "*"
      · rw [hall]
        exact ⟨fun _ => .all, fun _ => rfl⟩
      · rw [partsFault?, if_neg hall, partFault?_eq_none_iff]
        refine ⟨.word, fun h => ?_⟩
        cases h with
        | all => exact absurd rfl hall
        | word h => exact h
        | more h hparts => exact h
  | part, next :: parts => by
      have hrec := partsFault?_eq_none_iff next parts
      rw [partsFault?]
      cases hfault : partFault? part with
      | none =>
          refine hrec.trans ⟨.more ((partFault?_eq_none_iff part).mp hfault), fun h => ?_⟩
          cases h with
          | more _ hparts => exact hparts
      | some fault =>
          refine ⟨fun h => absurd h (Option.some_ne_none fault), fun h => ?_⟩
          cases h with
          | more hword _ =>
              rw [(partFault?_eq_none_iff part).mpr hword] at hfault
              cases hfault
      case x_1 => exact List.cons_ne_nil next parts

lemma IsWord.isMore {part : String} (h : IsWord part) : ∀ c ∈ part.toList, IsMore c := by
  rw [IsWord] at h
  cases hpart : part.toList with
  | nil =>
      intro c hc
      cases hc
  | cons c cs =>
      rw [hpart] at h
      rintro d (_ | ⟨_, hd⟩)
      · exact .inl h.1
      · exact h.2 d hd

lemma IsWord.not_mem {part : String} (h : IsWord part) {c : Char} (hc : isPartChar c = false) :
    c ∉ part.toList := by
  intro hmem
  rw [(isPartChar_iff c).mpr (h.isMore c hmem)] at hc
  cases hc

/-- A point is between the parts, never in one. -/
lemma Dotted.not_mem {parts : List String} (h : Dotted parts) :
    ∀ part ∈ parts, '.' ∉ part.toList := by
  induction h with
  | all => simp
  | word h =>
      rintro _ (_ | ⟨_, ⟨⟩⟩)
      exact h.not_mem rfl
  | more h hparts ih =>
      rintro _ (_ | ⟨_, hmem⟩)
      · exact h.not_mem rfl
      · exact ih _ hmem

lemma Dotted.ne_nil {parts : List String} (h : Dotted parts) : parts ≠ [] := by
  cases h <;> exact List.cons_ne_nil _ _

end Identifier

/-! ## Points -/

namespace Text

lemma piecesOf_eq_splitOn (sep : Char) (cs : List Char) : piecesOf sep cs = cs.splitOn sep := by
  induction cs with
  | nil => rfl
  | cons c cs ih =>
      rw [piecesOf, List.splitOn_cons_eq_if_modifyHead, ih]
      by_cases hc : c = sep
      · simp [hc]
      · cases hsplit : cs.splitOn sep with
        | nil => exact absurd hsplit (List.splitOn_ne_nil sep cs)
        | cons piece pieces => simp [hc]

/-- Put together again, the pieces are the text. -/
lemma intercalate_pieces (s : String) : ".".intercalate (pieces '.' s) = s := by
  rw [← String.toList_inj, String.toList_intercalate, pieces, piecesOf_eq_splitOn, List.map_map]
  have hmap : (s.toList.splitOn '.').map (String.toList ∘ String.ofList)
      = s.toList.splitOn '.' := by
    simp [Function.comp_def]
  rw [hmap]
  exact List.intercalate_splitOn '.'

/-- Taken apart again, the pieces are the same, where no point is in one of them. -/
lemma pieces_intercalate {parts : List String} (hne : parts ≠ [])
    (h : ∀ part ∈ parts, '.' ∉ part.toList) : pieces '.' (".".intercalate parts) = parts := by
  have hsplit : (['.'].intercalate (parts.map String.toList)).splitOn '.'
      = parts.map String.toList :=
    List.splitOn_intercalate '.' (List.forall_mem_map.mpr h) (by simpa using hne)
  rw [pieces, piecesOf_eq_splitOn, String.toList_intercalate]
  show ((['.'].intercalate (parts.map String.toList)).splitOn '.').map String.ofList = parts
  rw [hsplit, List.map_map]
  simp [Function.comp_def]

end Text

namespace Identifier

/-- **A name is read exactly if it is one of the grammar**, in its parts. -/
theorem parse_eq_ok_iff (s : String) (identifier : Identifier) :
    parse s = .ok identifier
      ↔ Dotted identifier.parts ∧ Text.trim s = ".".intercalate identifier.parts := by
  have hfault : partsFault? (Text.pieces '.' (Text.trim s)) = none
      ↔ Dotted (Text.pieces '.' (Text.trim s)) := by
    cases hparts : Text.pieces '.' (Text.trim s) with
    | nil => exact absurd hparts (Text.pieces_ne_nil '.' _)
    | cons part parts => exact partsFault?_eq_none_iff part parts
  rw [parse]
  constructor
  · intro h
    dsimp only at h
    split at h
    case isTrue => simp [misuse] at h
    case isFalse =>
      split at h
      case h_1 => simp [misuse] at h
      case h_2 hnone =>
        obtain rfl := Except.ok.inj h
        dsimp only
        exact ⟨hfault.mp hnone, (Text.intercalate_pieces _).symm⟩
  · rintro ⟨hdotted, htrim⟩
    have hparts : Text.pieces '.' (Text.trim s) = identifier.parts := by
      rw [htrim, Text.pieces_intercalate hdotted.ne_nil hdotted.not_mem]
    have hempty : ¬ (Text.trim s).isEmpty := by
      intro hempty
      -- the empty text has one piece, and that is no word
      rw [← hparts, String.isEmpty_iff.mp hempty] at hdotted
      have hnone : partsFault? [""] = none := (partsFault?_eq_none_iff "" []).mpr hdotted
      cases hnone
    rw [hparts] at hfault
    simp only [hempty, hparts, hfault.mpr hdotted]
    rfl

end Identifier

/-! ## Written names -/

/-- What a database finds in a written name. -/
inductive NameToken where
  | quoted (name : String)
  | all
  | point
  /-- Any other character outside of quotes. -/
  | other (c : Char)
  deriving DecidableEq

namespace NameToken

/-- A character outside of quotes. -/
def bare (c : Char) : NameToken :=
  if c = '*' then all else if c = '.' then point else other c

/-- What a part is to be found as. -/
def ofPart (part : String) : NameToken := if part = "*" then all else quoted part

/-- The part that is found. -/
def part? : NameToken → Option String
  | quoted name => some name
  | all => some "*"
  | point => none
  | other _ => none

lemma part?_ofPart (part : String) : (ofPart part).part? = some part := by
  rw [ofPart]
  split
  case isTrue hall =>
    rw [hall]
    rfl
  case isFalse => rfl

/-- Points are no parts. -/
lemma filterMap_part?_intersperse : (parts : List String) →
    ((parts.map ofPart).intersperse .point).filterMap part? = parts
  | [] => rfl
  | [part] => by
      rw [List.map_singleton, List.intersperse_singleton,
        List.filterMap_cons_some (part?_ofPart part), List.filterMap_nil]
  | part :: next :: parts => by
      have hrec := filterMap_part?_intersperse (next :: parts)
      rw [List.map_cons] at hrec
      rw [List.map_cons, List.map_cons, List.intersperse_cons_cons,
        List.filterMap_cons_some (part?_ofPart part), List.filterMap_cons_none rfl, hrec]

end NameToken

namespace Dialect

/-- Read a written name: what stands in it, one after the other. -/
def nameTokens? (dialect : Dialect) (cs : List Char) : Option (List NameToken) :=
  match cs with
  | [] => some []
  | c :: cs =>
    if c = dialect.quoteChar then
      match _ : dialect.nameQuoting.read? cs with
      | none => none
      | some (name, rest) => (nameTokens? dialect rest).map (.quoted (String.ofList name) :: ·)
    else (nameTokens? dialect cs).map (.bare c :: ·)
  termination_by cs.length
  decreasing_by
    · rename_i hread
      exact (Quoting.length_lt_of_read? hread).trans (Nat.lt_succ_self _)
    · exact Nat.lt_succ_self _

variable {dialect : Dialect}

lemma nameTokens?_bare {c : Char} (hc : c ≠ dialect.quoteChar) (rest : List Char) :
    dialect.nameTokens? (c :: rest) = (dialect.nameTokens? rest).map (.bare c :: ·) := by
  rw [nameTokens?, if_neg hc]

/-- A part in quotes is found as it is. -/
lemma nameTokens?_quote (part : String) {rest : List Char}
    (h : rest.head? ≠ some dialect.quoteChar) :
    dialect.nameTokens? ((dialect.quote part).toList ++ rest)
      = (dialect.nameTokens? rest).map (.quoted part :: ·) := by
  have hread : dialect.nameQuoting.read? (part.toList.flatMap (fun c =>
      if c = dialect.quoteChar then [dialect.quoteChar, dialect.quoteChar] else [c])
      ++ dialect.quoteChar :: rest) = some (part.toList, rest) :=
    Quoting.read?_flatMap dialect.spells_doubled part.toList h
  rw [toList_quote, List.cons_append, List.cons_append, List.append_assoc, List.singleton_append,
    nameTokens?, if_pos rfl, hread]
  dsimp only
  rw [String.ofList_toList]

/-- A written part is found as what it is. -/
lemma nameTokens?_partText (part : String) {rest : List Char}
    (h : rest.head? ≠ some dialect.quoteChar) :
    dialect.nameTokens? ((Identifier.partText dialect part).toList ++ rest)
      = (dialect.nameTokens? rest).map (.ofPart part :: ·) := by
  rw [Identifier.partText, NameToken.ofPart]
  split
  case isTrue =>
    have hstar : '*' ≠ dialect.quoteChar := by cases dialect <;> decide
    exact nameTokens?_bare hstar rest
  case isFalse => exact nameTokens?_quote part h

/-- **A written name is found as its parts**, with a point between any two. -/
theorem nameTokens?_text : (parts : List String) →
    dialect.nameTokens? (Identifier.text dialect ⟨parts⟩).toList
      = some ((parts.map .ofPart).intersperse .point)
  | [] => by
      rw [Identifier.text, List.map_nil, String.intercalate_nil, String.toList_empty, nameTokens?]
      rfl
  | [part] => by
      have hread : dialect.nameTokens? ((Identifier.partText dialect part).toList ++ [])
          = (dialect.nameTokens? []).map (.ofPart part :: ·) :=
        nameTokens?_partText part (Option.some_ne_none _).symm
      rw [Identifier.text, List.map_singleton, String.intercalate_singleton, ← List.append_nil
        (Identifier.partText dialect part).toList, hread, nameTokens?]
      rfl
  | part :: next :: parts => by
      have hrec := nameTokens?_text (next :: parts)
      have hpoint : '.' ≠ dialect.quoteChar := by cases dialect <;> decide
      rw [Identifier.text, List.map_cons, List.map_cons, String.intercalate_cons_cons,
        String.toList_append, String.toList_append, List.append_assoc]
      show dialect.nameTokens? (_ ++ '.' :: (Identifier.text dialect ⟨next :: parts⟩).toList) = _
      rw [nameTokens?_partText part (by simpa using hpoint), nameTokens?_bare hpoint, hrec]
      rfl

end Dialect

/-- **A name is written so that it is read as it is meant.**  It can be written exactly if it is one
of the grammar, but for blanks on either side.  Then a database finds its parts in what is written,
each in quotes and the star bare, and nothing but points between them. -/
theorem Identifier.quote_lossless (dialect : Dialect) (s : String) :
    ((∃ text, quote dialect s = .ok text)
        ↔ ∃ parts, Dotted parts ∧ Text.trim s = ".".intercalate parts)
      ∧ ∀ text parts, quote dialect s = .ok text → Dotted parts →
        Text.trim s = ".".intercalate parts →
        ∃ tokens, dialect.nameTokens? text.toList = some tokens
          ∧ tokens = (parts.map NameToken.ofPart).intersperse .point
          ∧ tokens.filterMap NameToken.part? = parts := by
  refine ⟨⟨?_, ?_⟩, ?_⟩
  · rintro ⟨text, htext⟩
    obtain ⟨identifier, hparse, -⟩ := map_eq_ok.mp htext
    exact ⟨identifier.parts, (parse_eq_ok_iff s identifier).mp hparse⟩
  · rintro ⟨parts, hparts⟩
    have hparse : parse s = .ok ⟨parts⟩ := (parse_eq_ok_iff s ⟨parts⟩).mpr hparts
    exact ⟨_, map_eq_ok.mpr ⟨⟨parts⟩, hparse, rfl⟩⟩
  · intro text parts htext hdotted htrim
    have hparse : parse s = .ok ⟨parts⟩ := (parse_eq_ok_iff s ⟨parts⟩).mpr ⟨hdotted, htrim⟩
    rw [quote, hparse] at htext
    obtain rfl := Except.ok.inj htext
    exact ⟨_, dialect.nameTokens?_text parts, rfl, NameToken.filterMap_part?_intersperse parts⟩

/-- The same for MySQL and all columns of a table. -/
theorem Identifier.quote_of_all_users :
    quote .mysql " users.* " = .ok "\x60users\x60.*" ∧ Dotted ["users", "*"]
      ∧ Text.trim " users.* " = ".".intercalate ["users", "*"]
      ∧ ∃ tokens, Dialect.mysql.nameTokens? "\x60users\x60.*".toList = some tokens
        ∧ tokens = [.quoted "users", .point, .all]
        ∧ tokens.filterMap NameToken.part? = ["users", "*"] := by
  have hquote : quote .mysql " users.* " = .ok "\x60users\x60.*" := rfl
  have hword : IsWord "users" := (partFault?_eq_none_iff "users").mp rfl
  have hdotted : Dotted ["users", "*"] := .more hword .all
  have htrim : Text.trim " users.* " = ".".intercalate ["users", "*"] := rfl
  exact ⟨hquote, hdotted, htrim,
    (quote_lossless .mysql " users.* ").2 _ _ hquote hdotted htrim⟩

end RelQuery
