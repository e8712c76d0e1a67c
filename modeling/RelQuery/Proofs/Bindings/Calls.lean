import RelQuery.Proofs.Bindings.Fresh
import RelQuery.Proofs.Reading.Name

/-!
# One name for each value

The values of a statement are bound one after the other, each under a name made from a base that may
be any text.  Bases may be equal, become equal when they are sanitized, or look like numbered names
of other bases.

* `Bindings.Finds` is the search for a free name, without any bound on it.
* `Bindings.BindsAll` says what calls give that search so, and `Bindings.bindAll` makes the calls.
* **`Bindings.bindAll_lossless`** — every search ends, and the names are distinct, can be told from
  the text behind them, and lead back to the values.
-/

namespace RelQuery.Bindings

/-! ## The search -/

/-- Try the candidates of a base from the `n`-th on, as long as they are taken. -/
inductive Finds (taken : List String) (base : String) : Nat → String → Prop
  | free {n : Nat} (h : candidate base n ∉ taken) : Finds taken base n (candidate base n)
  | taken {n : Nat} {name : String} (h : candidate base n ∈ taken)
    (hrest : Finds taken base (n + 1) name) : Finds taken base n name

variable {taken : List String} {base : String}

/-- What is found with a bound on the tries is found without one, if it is free. -/
lemma finds_firstFree {tries n : Nat} (h : firstFree taken base n tries ∉ taken) :
    Finds taken base n (firstFree taken base n tries) := by
  induction tries generalizing n with
  | zero => exact .free h
  | succ tries ih =>
      rw [firstFree] at h ⊢
      split at h
      · next htaken =>
          rw [if_pos htaken]
          exact .taken (List.contains_iff_mem.mp htaken) (ih h)
      · next hfree =>
          rw [if_neg hfree]
          exact .free h

/-- **The search for a name ends**, and there is nothing else that it can end with. -/
lemma finds_iff (bindings : Bindings) (base name : String) :
    Finds bindings.names (sanitize base) 1 name ↔ name = bindings.freshName base := by
  have hends : Finds bindings.names (sanitize base) 1 (bindings.freshName base) :=
    finds_firstFree (freshName_not_mem bindings base)
  have hunique {n : Nat} {found other : String} (h : Finds bindings.names (sanitize base) n found)
      (h' : Finds bindings.names (sanitize base) n other) : found = other := by
    induction h with
    | free hfree =>
        cases h' with
        | free _ => rfl
        | taken htaken _ => exact absurd htaken hfree
    | taken htaken _ ih =>
        cases h' with
        | free hfree => exact absurd htaken hfree
        | taken _ hrest => exact ih hrest
  constructor
  · exact fun h => hunique h hends
  · rintro rfl
    exact hends

/-! ## Names -/

/-- A letter of the plain alphabet or an underscore, and any number of letters, digits and
underscores. -/
def IsWord (name : String) : Prop :=
  ∃ c cs, name.toList = c :: cs ∧ Identifier.IsStart c
    ∧ ∀ d ∈ cs, Identifier.IsStart d ∨ ('0' ≤ d ∧ d ≤ '9')

lemma isNameStart_iff (c : Char) : isNameStart c = true ↔ Identifier.IsStart c := by
  rw [← Identifier.isPartStart_iff, isNameStart, Identifier.isPartStart, Bool.or_comm]

lemma isNameChar_iff (c : Char) :
    isNameChar c = true ↔ Identifier.IsStart c ∨ ('0' ≤ c ∧ c ≤ '9') := by
  rw [← isNameStart_iff]
  simp only [isNameChar, isNameStart, Char.isAlphanum, Char.isDigit, Bool.or_eq_true,
    Bool.and_eq_true, decide_eq_true_eq, Char.le_def, ge_iff_le]
  tauto

lemma plain_iff_isWord (name : String) : Plain name ↔ IsWord name := by
  simp only [Plain, IsWord, isNameStart_iff, isNameChar_iff]

/-! ## Calls in a row -/

/-- Bind values one after the other.  Each call searches for a name among those of the calls before
it, and what it finds goes last. -/
inductive BindsAll : Bindings → List (String × Value) → List String → Bindings → Prop
  | nil (bindings : Bindings) : BindsAll bindings [] [] bindings
  | cons {bindings last : Bindings} {base name : String} {value : Value}
    {calls : List (String × Value)} {names : List String}
    (hname : Finds bindings.names (sanitize base) 1 name)
    (hrest : BindsAll ⟨bindings.params ++ [(name, value)]⟩ calls names last) :
    BindsAll bindings ((base, value) :: calls) (name :: names) last

/-- Bind values one after the other: their names, and all that is bound in the end. -/
def bindAll (bindings : Bindings) : List (String × Value) → List String × Bindings
  | [] => ([], bindings)
  | (base, value) :: calls =>
    let (name, next) := bindings.bind base value
    let (names, last) := next.bindAll calls
    (name :: names, last)

lemma bindAll_cons (bindings : Bindings) (base : String) (value : Value)
    (calls : List (String × Value)) :
    bindings.bindAll ((base, value) :: calls)
      = (bindings.freshName base :: ((bindings.bind base value).2.bindAll calls).1,
        ((bindings.bind base value).2.bindAll calls).2) := rfl

section

variable (bindings : Bindings) (calls : List (String × Value))

/-- All searches end, with the names that the calls return. -/
lemma bindsAll_bindAll :
    BindsAll bindings calls (bindings.bindAll calls).1 (bindings.bindAll calls).2 := by
  induction calls generalizing bindings with
  | nil => exact .nil bindings
  | cons call calls ih =>
      obtain ⟨base, value⟩ := call
      rw [bindAll_cons]
      exact .cons ((finds_iff bindings base _).mpr rfl) (ih (bindings.bind base value).2)

/-- What is bound goes last, in the order of the calls. -/
lemma params_bindAll : (bindings.bindAll calls).2.params
    = bindings.params ++ (bindings.bindAll calls).1.zip (calls.map Prod.snd) := by
  induction calls generalizing bindings with
  | nil => simp [bindAll]
  | cons call calls ih =>
      obtain ⟨base, value⟩ := call
      rw [bindAll_cons, ih, params_bind, List.append_assoc]
      rfl

lemma length_bindAll : (bindings.bindAll calls).1.length = calls.length := by
  induction calls generalizing bindings with
  | nil => rfl
  | cons call calls ih =>
      obtain ⟨base, value⟩ := call
      rw [bindAll_cons, List.length_cons, ih, List.length_cons]

lemma nodup_names_bindAll (h : bindings.names.Nodup) :
    (bindings.bindAll calls).2.names.Nodup := by
  induction calls generalizing bindings with
  | nil => exact h
  | cons call calls ih =>
      obtain ⟨base, value⟩ := call
      rw [bindAll_cons]
      exact ih _ (nodup_names_bind h base value)

lemma isWord_of_mem_bindAll {name : String} (h : name ∈ (bindings.bindAll calls).1) :
    IsWord name := by
  induction calls generalizing bindings with
  | nil => cases h
  | cons call calls ih =>
      obtain ⟨base, value⟩ := call
      rw [bindAll_cons] at h
      rcases List.mem_cons.mp h with rfl | hmem
      · exact (plain_iff_isWord _).mp (plain_freshName bindings base)
      · exact ih _ hmem

end

lemma params_bindAll_empty (calls : List (String × Value)) : (empty.bindAll calls).2.params
    = (empty.bindAll calls).1.zip (calls.map Prod.snd) := params_bindAll empty calls

/-- The names are those that the calls returned. -/
lemma names_bindAll_empty (calls : List (String × Value)) :
    (empty.bindAll calls).2.names = (empty.bindAll calls).1 := by
  have hlength : (empty.bindAll calls).1.length ≤ (calls.map Prod.snd).length := by
    rw [length_bindAll, List.length_map]
  rw [names, params_bindAll_empty, List.map_fst_zip hlength]

/-- **No value is lost among the others.**  Whatever the bases are, each search for a name ends.  The
names differ from each other and are plain words, the parameters are the values under these names in
the order of the calls, and after all calls each name still leads to the value that it was returned
for. -/
theorem bindAll_lossless (calls : List (String × Value)) :
    ∃ names last, empty.bindAll calls = (names, last)
      ∧ BindsAll empty calls names last
      ∧ names.Nodup
      ∧ last.params = names.zip (calls.map Prod.snd)
      ∧ List.Forall₂ (fun call name => IsWord name ∧ last.get? name = some call.2) calls names := by
  have hnodup : (empty.bindAll calls).2.names.Nodup :=
    nodup_names_bindAll empty calls List.nodup_nil
  refine ⟨_, _, rfl, bindsAll_bindAll empty calls, names_bindAll_empty calls ▸ hnodup,
    params_bindAll_empty calls, ?_⟩
  refine List.forall₂_iff_get.mpr ⟨(length_bindAll empty calls).symm, fun i hcall hname => ?_⟩
  refine ⟨isWord_of_mem_bindAll empty calls (List.get_mem _ _), get?_of_mem hnodup ?_⟩
  rw [params_bindAll_empty]
  refine List.mem_iff_getElem.mpr ⟨i, by simpa [hname] using hcall, ?_⟩
  simp

/-- A base that looks like a numbered name, bases that become equal, and none at all. -/
example : (empty.bindAll
    (["a", "a", "a_2", "ä", "_", "a", "1", ""].map fun base => (base, .null))).1
      = ["a", "a_2", "a_2_2", "_", "__2", "a_3", "p1", "p"] := by
  decide +kernel

end RelQuery.Bindings
