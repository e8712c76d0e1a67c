import RelQuery.Proofs.Condition.KeyName
import RelQuery.Proofs.Reading.Literal
import RelQuery.Proofs.Value.Numeral
import RelQuery.Query.Basic

/-!
# What a limit leaves

A limit is written behind a select in the words of the dialect.  What a database makes of these words
is a window: it skips some of the rows that the select has, and takes some of the others.

* `Limit.window` are the rows that a limit leaves.
* `Dialect.readLimit?` is how a database reads the clause.
* **`Dialect.readLimit?_limitText`** — a limit is read as it was written.  Only where a dialect has no
  words for skipping without a count there is one, of as many rows as a word of 64 bits counts.
* **`Limit.window_single_iff`** — when a limit of one row leaves the first row of another limit.
-/

namespace RelQuery

namespace Limit

/-- The rows that a limit leaves: those behind its offset, and no more than its count. -/
def window {α : Type} (limit : Limit) (rows : List α) : List α :=
  match limit.count with
  | some count => (rows.drop (limit.offset.getD 0)).take count
  | none => rows.drop (limit.offset.getD 0)

/-- A limit that takes a row if one out of a number of rows is behind its offset. -/
def KeepsFirst (limit : Limit) (n : Nat) : Prop := limit.count = some 0 → n ≤ limit.offset.getD 0

instance (limit : Limit) (n : Nat) : Decidable (limit.KeepsFirst n) :=
  inferInstanceAs (Decidable (limit.count = some 0 → n ≤ limit.offset.getD 0))

/-- **One row from where a limit begins is the first row that the limit leaves**, unless the limit
leaves out a row that is there. -/
theorem window_single_iff {α : Type} (limit : Option Limit) (rows : List α) :
    (Limit.single limit).window rows = ((limit.getD {}).window rows).take 1
      ↔ (limit.getD {}).KeepsFirst rows.length := by
  rcases limit with _ | ⟨offset, _ | _ | count⟩
  · simp [single, window, KeepsFirst]
  · simp [single, window, KeepsFirst]
  · simp [single, window, KeepsFirst]
  · simp [single, window, KeepsFirst, List.take_take]

/-- Where a limit takes no rows, one row is a row too many. -/
example : (Limit.mk none (some 0)).window [1, 2] = []
    ∧ (Limit.single (some ⟨none, some 0⟩)).window [1, 2] = [1] := by decide

/-- A limit that leaves out the first row leaves out all of them. -/
lemma window_of_not_keepsFirst {α : Type} {limit : Limit} {rows : List α}
    (h : ¬ limit.KeepsFirst rows.length) :
    limit.window rows = [] ∧ (Limit.single (some limit)).window rows ≠ [] := by
  obtain ⟨hcount, hbehind⟩ := Classical.not_imp.mp h
  exact ⟨by simp [window, hcount], by simpa [window, single] using hbehind⟩

end Limit

/-! ## Words -/

namespace Text

/-- A word: there is something in it, and no blank. -/
def Solid (word : String) : Prop := word.toList ≠ [] ∧ ∀ c ∈ word.toList, isBlank c = false

lemma solid_of_all {word : String} (hne : word.toList ≠ [])
    (h : (word.toList.all fun c => !isBlank c) = true) : Solid word :=
  ⟨hne, fun c hc => by simpa using List.all_eq_true.mp h c hc⟩

lemma Solid.append {v w : String} (hv : Solid v) (hw : Solid w) : Solid (v ++ w) := by
  rw [Solid, String.toList_append]
  exact ⟨by simp [hv.1], fun c hc => (List.mem_append.mp hc).elim (hv.2 c) (hw.2 c)⟩

/-- Words with a space in front of each of them. -/
def spaced (ws : List String) : List Char := ws.flatMap fun w => ' ' :: w.toList

/-- Such words are found again. -/
lemma words_ofList_spaced {ws : List String} (h : ∀ w ∈ ws, Solid w) :
    words (String.ofList (spaced ws)) = ws := by
  have hruns : runsFrom isBlank [] (spaced ws) = ws.map String.toList := by
    induction ws with
    | nil => rfl
    | cons w ws ih =>
        obtain ⟨⟨hne, hw⟩, hrest⟩ := List.forall_mem_cons.mp h
        have hblank : runsFrom isBlank [] (spaced (w :: ws))
            = runsFrom isBlank [] (w.toList ++ spaced ws) := rfl
        have hhead : ∀ c ∈ (spaced ws).head?, isBlank c = true := by
          cases ws with
          | nil => simp [spaced]
          | cons next ws =>
              rintro _ ⟨⟩
              rfl
        rw [hblank, runsFrom_append hw (.inr hne) hhead, ih hrest]
        rfl
  rw [words, String.toList_ofList, hruns, List.map_map]
  exact (List.map_congr_left fun w _ => String.ofList_toList).trans (List.map_id ws)

end Text

/-! ## The reader -/

namespace Dialect

/-- A bound of a limit: decimal digits. -/
def bound? (word : String) : Option Nat := Numeral.natural? word.toList

/-- A bound with a comma behind it. -/
def boundBeforeComma? (word : String) : Option Nat :=
  if word.toList.getLast? = some ',' then Numeral.natural? word.toList.dropLast else none

/-- What the words behind a select say to a database.  A count of `-1` is none. -/
def readWords? (dialect : Dialect) : List String → Option Limit
  | [] => some {}
  | ["OFFSET", offset] =>
    if dialect = .postgres then do return ⟨some (← bound? offset), none⟩ else none
  | ["LIMIT", count] => do return ⟨none, some (← bound? count)⟩
  | ["LIMIT", offset, count] =>
    if dialect = .mysql then do return ⟨some (← boundBeforeComma? offset), some (← bound? count)⟩
    else none
  | ["LIMIT", count, "OFFSET", offset] =>
    if dialect = .sqlite ∧ count = "-1" then do return ⟨some (← bound? offset), none⟩
    else do return ⟨some (← bound? offset), some (← bound? count)⟩
  | _ => none

/-- How a database reads what stands behind a select. -/
def readLimit? (dialect : Dialect) (clause : String) : Option Limit :=
  dialect.readWords? (Text.words clause)

/-- A limit as it is written.  Where there are no words for skipping without a count, the count is
the greatest number of 64 bits. -/
def written (dialect : Dialect) (limit : Option Limit) : Limit :=
  match dialect, limit with
  | .mysql, some ⟨some offset, none⟩ => ⟨some offset, some 18446744073709551615⟩
  | _, limit => limit.getD {}

/-! ## Reading what is written -/

lemma isDigit_of_mem_toString {n : Nat} {c : Char} (hc : c ∈ (toString n).toList) :
    c.isDigit = true := by
  rw [Decimal.toList_toString] at hc
  exact Numeral.isDigit_of_mem_toDigits hc

lemma bound?_toString (n : Nat) : bound? (toString n) = some n := by
  rw [bound?, Decimal.toList_toString, Numeral.natural?_toDigits]

lemma boundBeforeComma?_toString (n : Nat) : boundBeforeComma? (toString n ++ ",") = some n := by
  have htext : (toString n ++ ",").toList = Nat.toDigits 10 n ++ [','] := by
    rw [String.toList_append, Decimal.toList_toString]
    rfl
  rw [boundBeforeComma?, htext, List.getLast?_concat, if_pos rfl, List.dropLast_concat,
    Numeral.natural?_toDigits]

lemma toString_ne_minus (n : Nat) : toString n ≠ "-1" := by
  intro heq
  have hminus : '-' ∈ (toString n).toList := by
    rw [heq]
    decide
  exact absurd (isDigit_of_mem_toString hminus) (by decide)

lemma solid_toString (n : Nat) : Text.Solid (toString n) := by
  refine ⟨?_, fun c hc => Literal.isBlank_of_isTextChar
    (Number.isTextChar_of_isDigit (isDigit_of_mem_toString hc))⟩
  rw [Decimal.toList_toString]
  exact Nat.toDigits_ne_nil

/-- The count that takes every row where a dialect has no words for it. -/
lemma toString_greatest : toString 18446744073709551615 = "18446744073709551615" := by
  decide +kernel

/-- The words of a limit. -/
def limitWords : Dialect → Limit → List String
  | _, ⟨none, none⟩ => []
  | _, ⟨none, some count⟩ => ["LIMIT", toString count]
  | mysql, ⟨some offset, some count⟩ => ["LIMIT", toString offset ++ ",", toString count]
  | _, ⟨some offset, some count⟩ => ["LIMIT", toString count, "OFFSET", toString offset]
  | mysql, ⟨some offset, none⟩ => ["LIMIT", toString offset ++ ",", "18446744073709551615"]
  | sqlite, ⟨some offset, none⟩ => ["LIMIT", "-1", "OFFSET", toString offset]
  | postgres, ⟨some offset, none⟩ => ["OFFSET", toString offset]

lemma toList_limitText (dialect : Dialect) (limit : Limit) :
    (limitText dialect (some limit)).toList = Text.spaced (dialect.limitWords limit) := by
  have htext (text : String) : toString text = text := rfl
  rcases limit with ⟨_ | offset, _ | count⟩ <;> cases dialect <;>
    simp [limitText, Dialect.limit, limitWords, Text.spaced, htext]

lemma solid_of_mem_limitWords (dialect : Dialect) (limit : Limit) :
    ∀ w ∈ dialect.limitWords limit, Text.Solid w := by
  have hlimit : Text.Solid "LIMIT" := Text.solid_of_all (by decide) rfl
  have hoffset : Text.Solid "OFFSET" := Text.solid_of_all (by decide) rfl
  have hall : Text.Solid "-1" := Text.solid_of_all (by decide) rfl
  have hgreatest : Text.Solid "18446744073709551615" := toString_greatest ▸ solid_toString _
  have hbefore (n : Nat) : Text.Solid (toString n ++ ",") :=
    (solid_toString n).append (Text.solid_of_all (by decide) rfl)
  rcases limit with ⟨_ | offset, _ | count⟩ <;> cases dialect <;>
    simp only [limitWords, List.forall_mem_cons, List.not_mem_nil, IsEmpty.forall_iff, implies_true,
      solid_toString, hbefore, hlimit, hoffset, hall, hgreatest, and_self]

lemma words_limitText (dialect : Dialect) (limit : Limit) :
    Text.words (limitText dialect (some limit)) = dialect.limitWords limit := by
  rw [← Text.words_ofList_spaced (solid_of_mem_limitWords dialect limit), ← toList_limitText,
    String.ofList_toList]

lemma readWords?_limitWords (dialect : Dialect) (limit : Limit) :
    dialect.readWords? (dialect.limitWords limit) = some (dialect.written (some limit)) := by
  have hgreatest : bound? "18446744073709551615" = some 18446744073709551615 :=
    toString_greatest ▸ bound?_toString _
  rcases limit with ⟨_ | offset, _ | count⟩ <;> cases dialect <;>
    simp [readWords?, limitWords, hgreatest, bound?_toString, boundBeforeComma?_toString,
      toString_ne_minus, written, -Nat.toString_eq_repr]

/-- **A limit is read as it was written.** -/
theorem readLimit?_limitText (dialect : Dialect) (limit : Option Limit) :
    dialect.readLimit? (limitText dialect limit) = some (dialect.written limit) := by
  cases limit with
  | none => cases dialect <;> rfl
  | some limit => rw [readLimit?, words_limitText, readWords?_limitWords]

end Dialect

end RelQuery
