import RelQuery.Bindings.Positional
import RelQuery.Proofs.Predicate.Truth
import RelQuery.Proofs.Reading.Scan

/-!
# Finding placeholders

Two readers look at a written statement: the scan that replaces its placeholders, and the database.
The scan knows quotes but no dialect; the database of MySQL has backslash escapes besides.  Written
statements are such that this makes no difference.

* `Piece.names` are the placeholders that the scan finds.
* `Piece.InStep` says that the scan and a database agree on whether they are inside quotes.
* `Copies` is a stretch without a placeholder, `Reads` a stretch with some, and `Continues` one
  that may stand behind a name.  All of them keep in step.
* **`Copies.quoted`** — whatever stands between quotes is copied, if quotes in it are spelled so
  that both readers stay between them.
* **`reads_placeholder`** — a plain name behind a colon is found.
-/

namespace RelQuery

/-! ## Two readers -/

namespace Piece

/-- The placeholders among pieces, in order. -/
def names : List Piece → List String
  | [] => []
  | copied _ :: pieces => names pieces
  | placeholder name :: pieces => name :: names pieces

lemma names_append (ps qs : List Piece) : names (ps ++ qs) = names ps ++ names qs := by
  induction ps with
  | nil => rfl
  | cons p ps ih => cases p <;> simp [names, ih]

/-- The state of the scan behind some characters. -/
def Scanning.after (state : Scanning) (cs : List Char) : Scanning :=
  cs.foldl (fun state c => (step state c).2) state

end Piece

/-- The place in which a database finds itself behind some characters. -/
def Word.Place.after (dialect : Dialect) (place : Place) (cs : List Char) : Place :=
  cs.foldl (fun place c => place.next dialect c) place

namespace Piece

open Word (Place)

/-- Whether the scan and a database agree on the quotes that they are inside of. -/
def InStep : Scanning → Place → Prop
  | .quoted q, .quoted q' => q = q'
  | .quoted q, .escaped q' => q = q'
  | .quoted _, .bare => False
  | _, place => place = .bare

/-- Where the two readers stand, and what they have before them. -/
structure Position where
  state : Scanning
  place : Place
  rest : List Char

/-- Whether the readers agree from here to the end. -/
def Position.StaysInStep (dialect : Dialect) (p : Position) : Prop :=
  ∀ cs, cs <+: p.rest → InStep (p.state.after cs) (p.place.after dialect cs)

/-- How reading goes on: the scan finds the placeholders `ns` on the way from one position to the
other, and on this way the readers agree. -/
structure Leads (dialect : Dialect) (ns : List String) (p q : Position) : Prop where
  names_eq : names (scanFrom p.state p.rest) = ns ++ names (scanFrom q.state q.rest)
  staysInStep : q.StaysInStep dialect → p.StaysInStep dialect

section Leads

variable {dialect : Dialect} {ns ms : List String} {p q r : Position}

lemma Leads.refl (p : Position) : Leads dialect [] p p := ⟨rfl, id⟩

lemma Leads.trans (hp : Leads dialect ns p q) (hq : Leads dialect ms q r) :
    Leads dialect (ns ++ ms) p r :=
  ⟨by rw [hp.names_eq, hq.names_eq, List.append_assoc],
    fun h => hp.staysInStep (hq.staysInStep h)⟩

/-- One character. -/
lemma Leads.step (dialect : Dialect) (state : Scanning) (place : Place) (h : InStep state place)
    (c : Char) (cs : List Char) :
    Leads dialect (names (step state c).1) ⟨state, place, c :: cs⟩
      ⟨(step state c).2, place.next dialect c, cs⟩ := by
  refine ⟨names_append _ _, fun hrest before hbefore => ?_⟩
  cases before with
  | nil => exact h
  | cons d before =>
      obtain ⟨rfl, hprefix⟩ := List.cons_prefix_cons.mp hbefore
      exact hrest before hprefix

end Leads

/-! ## Stretches -/

/-- A stretch without a placeholder, at the end of which nothing is left open. -/
def Copies (dialect : Dialect) (cs : List Char) : Prop :=
  ∀ rest, Leads dialect [] ⟨.plain, .bare, cs ++ rest⟩ ⟨.plain, .bare, rest⟩

/-- Characters that do not go on with a name. -/
def Ends (cs : List Char) : Prop := ∀ c ∈ cs.head?, Bindings.isNameChar c = false

/-- A stretch with the placeholders `ns`, where no name goes on behind it. -/
def Reads (dialect : Dialect) (cs : List Char) (ns : List String) : Prop :=
  ∀ rest, Ends rest → Leads dialect ns ⟨.plain, .bare, cs ++ rest⟩ ⟨.plain, .bare, rest⟩

/-- Such a stretch that may stand behind a name. -/
structure Continues (dialect : Dialect) (cs : List Char) (ns : List String) : Prop where
  ends : Ends cs
  reads : Reads dialect cs ns

section Stretches

variable {dialect : Dialect} {as bs cs : List Char} {ns ms : List String}

lemma Ends.append (has : Ends as) (hbs : Ends bs) : Ends (as ++ bs) := by
  cases as with
  | nil => exact hbs
  | cons a as => exact has

lemma ends_cons {c : Char} (h : Bindings.isNameChar c = false) (cs : List Char) :
    Ends (c :: cs) := by
  intro d hd
  cases hd
  exact h

lemma ends_nil : Ends [] := fun _ hc => by simp at hc

lemma Copies.nil : Copies dialect [] := fun _ => Leads.refl _

lemma Copies.append (has : Copies dialect as) (hbs : Copies dialect bs) :
    Copies dialect (as ++ bs) := by
  intro rest
  rw [List.append_assoc]
  exact (has _).trans (hbs _)

lemma Copies.reads (h : Copies dialect cs) : Reads dialect cs [] := fun rest _ => h rest

lemma Copies.append_reads (has : Copies dialect as) (hbs : Reads dialect bs ns) :
    Reads dialect (as ++ bs) ns := by
  intro rest hrest
  rw [List.append_assoc]
  exact (has _).trans (hbs rest hrest)

lemma Reads.append (has : Reads dialect as ns) (hbs : Continues dialect bs ms) :
    Reads dialect (as ++ bs) (ns ++ ms) := by
  intro rest hrest
  rw [List.append_assoc]
  exact (has _ (hbs.ends.append hrest)).trans (hbs.reads rest hrest)

lemma Continues.nil : Continues dialect [] [] := ⟨ends_nil, Copies.nil.reads⟩

lemma Continues.append (has : Continues dialect as ns) (hbs : Continues dialect bs ms) :
    Continues dialect (as ++ bs) (ns ++ ms) :=
  ⟨has.ends.append hbs.ends, has.reads.append hbs⟩

/-! ### Plain characters -/

lemma isQuote_eq (c : Char) : isQuote c = Word.isQuote c := by
  rw [isQuote, Word.isQuote, Word.quotes, Bool.eq_iff_iff]
  simp [or_assoc]

/-- Whether a character has no meaning of its own outside of quotes. -/
def isCopied (c : Char) : Bool := !(':' :: Word.quotes).contains c

lemma leads_of_isCopied {c : Char} (h : isCopied c = true) (cs : List Char) :
    Leads dialect [] ⟨.plain, .bare, c :: cs⟩ ⟨.plain, .bare, cs⟩ := by
  simp only [isCopied, List.contains_cons, Bool.not_eq_true', Bool.or_eq_false_iff,
    beq_eq_false_iff_ne] at h
  obtain ⟨hcolon, hquote⟩ := h
  have hstep : step .plain c = ([copied c], .plain) := by
    rw [step, plainStep, isQuote_eq, if_neg (by simpa [Word.isQuote] using hquote), if_neg hcolon]
  have hplace : Place.bare.next dialect c = .bare := by
    rw [Place.next, if_neg (by simpa [Word.isQuote] using hquote)]
  have hlead := Leads.step dialect .plain .bare rfl c cs
  rw [hstep, hplace] at hlead
  exact hlead

lemma Copies.of_plain {cs : List Char} (h : ∀ c ∈ cs, isCopied c = true) : Copies dialect cs := by
  induction cs with
  | nil => exact Copies.nil
  | cons c cs ih =>
      intro rest
      exact (leads_of_isCopied (h c List.mem_cons_self) _).trans
        (ih (fun d hd => h d (List.mem_cons_of_mem c hd)) rest)

lemma Copies.of_text {s : String} (h : s.toList.all isCopied = true) : Copies dialect s.toList :=
  Copies.of_plain (List.all_eq_true.mp h)

/-! ### Quotes -/

/-- A stretch between quotes, if what stands for each character leads back between them. -/
lemma Copies.quoted {q : Char} (hq : Word.isQuote q = true) {spell : Char → List Char}
    (hspell : ∀ c rest, Leads dialect [] ⟨.quoted q, .quoted q, spell c ++ rest⟩
      ⟨.quoted q, .quoted q, rest⟩) (cs : List Char) :
    Copies dialect (q :: cs.flatMap spell ++ [q]) := by
  have hopen : ∀ rest,
      Leads dialect [] ⟨.plain, .bare, q :: rest⟩ ⟨.quoted q, .quoted q, rest⟩ := by
    intro rest
    have hstep : step .plain q = ([copied q], .quoted q) := by
      rw [step, plainStep, isQuote_eq, if_pos hq]
    have hlead := Leads.step dialect .plain .bare rfl q rest
    rwa [hstep, Place.next, if_pos hq] at hlead
  have hclose : ∀ rest,
      Leads dialect [] ⟨.quoted q, .quoted q, q :: rest⟩ ⟨.plain, .bare, rest⟩ := by
    intro rest
    have hlead := Leads.step dialect (.quoted q) (.quoted q) rfl q rest
    rwa [step, if_pos rfl, Place.next, if_pos rfl] at hlead
  have hbody : ∀ (cs rest : List Char),
      Leads dialect [] ⟨.quoted q, .quoted q, cs.flatMap spell ++ rest⟩
        ⟨.quoted q, .quoted q, rest⟩ := by
    intro cs
    induction cs with
    | nil => exact fun rest => Leads.refl _
    | cons c cs ih =>
        intro rest
        rw [List.flatMap_cons, List.append_assoc]
        exact (hspell c _).trans (ih rest)
  intro rest
  rw [List.cons_append, List.cons_append, List.append_assoc]
  exact (hopen _).trans ((hbody cs _).trans (hclose rest))

/-- Between quotes any other character stands for itself. -/
lemma leads_of_quoted {q c : Char} (hc : c ≠ q)
    (hescape : ¬ (c = '\\' ∧ dialect = .mysql ∧ q ≠ '\x60')) (rest : List Char) :
    Leads dialect [] ⟨.quoted q, .quoted q, c :: rest⟩ ⟨.quoted q, .quoted q, rest⟩ := by
  have hlead := Leads.step dialect (.quoted q) (.quoted q) rfl c rest
  rwa [step, if_neg hc, Place.next, if_neg hc, if_neg hescape] at hlead

/-- Between quotes the quote twice is none. -/
lemma leads_of_doubled {q : Char} (hq : Word.isQuote q = true) (rest : List Char) :
    Leads dialect [] ⟨.quoted q, .quoted q, q :: q :: rest⟩ ⟨.quoted q, .quoted q, rest⟩ := by
  have hout := Leads.step dialect (.quoted q) (.quoted q) rfl q (q :: rest)
  have hin := Leads.step dialect .plain .bare rfl q rest
  rw [step, if_pos rfl, Place.next, if_pos rfl] at hout
  rw [step, plainStep, isQuote_eq, if_pos hq, Place.next, if_pos hq] at hin
  exact hout.trans hin

/-- Where backslashes escape, two of them are none. -/
lemma leads_of_escaped (rest : List Char) :
    Leads .mysql [] ⟨.quoted '\x27', .quoted '\x27', '\\' :: '\\' :: rest⟩
      ⟨.quoted '\x27', .quoted '\x27', rest⟩ :=
  (Leads.step .mysql (.quoted '\x27') (.quoted '\x27') rfl '\\' ('\\' :: rest)).trans
    (Leads.step .mysql (.quoted '\x27') (.escaped '\x27') rfl '\\' rest)

/-! ### Names -/

/-- The rest of a name, where none goes on behind it. -/
lemma leads_of_name {cs : List Char} (hcs : ∀ c ∈ cs, Bindings.isNameChar c = true)
    (collected : List Char) {rest : List Char} (hrest : Ends rest) :
    Leads dialect [String.ofList (collected.reverse ++ cs)] ⟨.name collected, .bare, cs ++ rest⟩
      ⟨.plain, .bare, rest⟩ := by
  induction cs generalizing collected with
  | nil =>
      rw [List.append_nil, List.nil_append]
      cases rest with
      | nil =>
          refine ⟨rfl, fun _ before hbefore => ?_⟩
          rw [List.prefix_nil.mp hbefore]
          rfl
      | cons c cs =>
          have hc : Bindings.isNameChar c = false := hrest c rfl
          have hstep : step (.name collected) c
              = (named collected :: (step .plain c).1, (step .plain c).2) := by
            simp only [step, hc, Bool.false_eq_true, if_false]
          -- the character behind a name is read as one that no name stands before
          refine ⟨?_, fun hstays before hbefore => ?_⟩
          · show names ((step (.name collected) c).1 ++ scanFrom (step (.name collected) c).2 cs)
              = _
            rw [hstep]
            rfl
          · cases before with
            | nil => rfl
            | cons d before =>
                obtain ⟨rfl, -⟩ := List.cons_prefix_cons.mp hbefore
                have hsame := hstays (d :: before) hbefore
                rw [Scanning.after, List.foldl_cons, hstep]
                exact hsame
  | cons c cs ih =>
      have hc := hcs c List.mem_cons_self
      have hplace : Place.bare.next dialect c = .bare := by
        have hquote : Word.isQuote c = false := Word.not_contains_of_class rfl hc
        rw [Place.next, if_neg (by simp [hquote])]
      have hlead := Leads.step dialect (.name collected) .bare rfl c (cs ++ rest)
      rw [step, if_pos hc, hplace] at hlead
      have hrec := ih (fun d hd => hcs d (List.mem_cons_of_mem c hd)) (c :: collected)
      rw [List.reverse_cons, List.append_assoc] at hrec
      exact hlead.trans hrec

lemma reads_placeholder {name : String} (h : Bindings.Plain name) :
    Reads dialect (":" ++ name).toList [name] := by
  obtain ⟨c, cs, hname, hstart, hcs⟩ := h
  have hquote : Word.isQuote c = false := Word.not_contains_of_class rfl hstart
  have hcolon : c ≠ ':' := by
    rintro rfl
    exact Bool.noConfusion hstart
  have hplace : Place.bare.next dialect c = .bare := by
    rw [Place.next, if_neg (by simp [hquote])]
  intro rest hrest
  have hmark := Leads.step dialect .plain .bare rfl ':' (c :: (cs ++ rest))
  have hfirst := Leads.step dialect .colon .bare rfl c (cs ++ rest)
  rw [step, if_neg hcolon, if_pos hstart, hplace] at hfirst
  have hlead := hmark.trans (hfirst.trans (leads_of_name hcs [c] hrest))
  rw [String.toList_append, hname]
  have hcollected : String.ofList ([c].reverse ++ cs) = name := by
    rw [List.reverse_singleton, List.singleton_append, ← hname, String.ofList_toList]
  rw [hcollected] at hlead
  exact hlead

end Stretches

end Piece

end RelQuery
