import Mathlib
import RelQuery.Bindings.Basic

/-!
# The names of parameters

A base can be any text, but the name made from it stands in a statement behind a colon, and has to
end where it ends.

* `Bindings.Plain` is a name of ASCII letters, digits and underscores that no digit begins.
* **`plain_freshName`** — every name that is given out is one.
-/

namespace RelQuery.Bindings

/-- A name of letters, digits and underscores, without a digit in front. -/
def Plain (name : String) : Prop :=
  ∃ c cs, name.toList = c :: cs ∧ isNameStart c = true ∧ ∀ c ∈ cs, isNameChar c = true

lemma isNameChar_of_isNameStart {c : Char} (h : isNameStart c = true) : isNameChar c = true := by
  simp only [isNameStart, isNameChar, Char.isAlphanum, Bool.or_eq_true] at h ⊢
  exact h.imp_left Or.inl

/-- All characters of a plain name may stand in it. -/
lemma Plain.isNameChar {name : String} (h : Plain name) :
    ∀ c ∈ name.toList, isNameChar c = true := by
  obtain ⟨c, cs, hname, hstart, hrest⟩ := h
  intro d hd
  rw [hname, List.mem_cons] at hd
  rcases hd with rfl | hd
  · exact isNameChar_of_isNameStart hstart
  · exact hrest d hd

/-- A name goes on with characters that may stand in it. -/
lemma Plain.append {name suffix : String} (h : Plain name)
    (hsuffix : ∀ c ∈ suffix.toList, Bindings.isNameChar c = true) : Plain (name ++ suffix) := by
  obtain ⟨c, cs, hname, hstart, hrest⟩ := h
  refine ⟨c, cs ++ suffix.toList, by rw [String.toList_append, hname, List.cons_append], hstart, ?_⟩
  intro d hd
  exact (List.mem_append.mp hd).elim (hrest d) (hsuffix d)

lemma plain_sanitize (base : String) : Plain (sanitize base) := by
  have hchar : ∀ c ∈ base.toList.map (fun c => if isNameChar c then c else '_'),
      isNameChar c = true := by
    intro c hc
    obtain ⟨d, -, rfl⟩ := List.mem_map.mp hc
    split
    · assumption
    · rfl
  rw [sanitize]
  split
  · exact ⟨'p', [], rfl, rfl, by simp⟩
  · next c cs heq =>
      rw [heq] at hchar
      split
      · exact ⟨'p', c :: cs, by rw [heq, String.toList_ofList], rfl, hchar⟩
      · next hdigit =>
          refine ⟨c, cs, by rw [heq, String.toList_ofList], ?_, ?_⟩
          · have hc := hchar c List.mem_cons_self
            simp only [isNameChar, Char.isAlphanum, hdigit, Bool.or_false] at hc
            exact hc
          · exact fun d hd => hchar d (List.mem_cons_of_mem c hd)

lemma plain_candidate {base : String} (h : Plain base) (n : Nat) : Plain (candidate base n) := by
  rw [candidate]
  split
  · exact h
  · have hmark : ∀ c ∈ "_".toList, isNameChar c = true := by
      intro c hc
      rw [show "_".toList = ['_'] from rfl, List.mem_singleton] at hc
      rw [hc]
      rfl
    refine (h.append hmark).append fun c hc => ?_
    rw [Nat.toString_eq_ofList_toDigits, String.toList_ofList] at hc
    have hdigit := Nat.isDigit_of_mem_toDigits (by omega) (by omega) hc
    simp [isNameChar, Char.isAlphanum, hdigit]

lemma plain_firstFree (taken : List String) {base : String} (h : Plain base) (tries n : Nat) :
    Plain (firstFree taken base n tries) := by
  induction tries generalizing n with
  | zero => exact plain_candidate h n
  | succ tries ih =>
      rw [firstFree]
      split
      · exact ih (n + 1)
      · exact plain_candidate h n

/-- **Every name that is given out is plain**, whatever its base is. -/
theorem plain_freshName (bindings : Bindings) (base : String) : Plain (bindings.freshName base) :=
  plain_firstFree _ (plain_sanitize base) _ _

end RelQuery.Bindings
