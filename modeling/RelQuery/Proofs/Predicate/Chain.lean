import Mathlib
import RelQuery.Condition.Operator

/-!
# The truth of a chain

A chain is a list of links, each with the connector that joins it to what stands before it, and a
truth value in place of its term.  `AND` binds tighter than `OR`, so a chain is a sequence of
alternatives, and it holds when all links of one alternative do.

* `Tally` is what a reader knows halfway: whether an earlier alternative holds, and whether the
  present one does so far.
* `Chain.holds` reads a chain from left to right; the empty chain holds.
* **`holds_eq_forall_iff`** — two chains of connectors read the same under every assignment exactly
  when they negate the same links and break into alternatives at the same places (`SameReading`).
* **`holds_append_forall_iff`** — when a chain put after another one means their conjunction
  (`Narrows`).
-/

namespace RelQuery

/-! ## Reading from left to right -/

/-- The state of a reader inside a chain. -/
structure Tally where
  /-- An alternative before the present one holds. -/
  earlier : Bool
  /-- The present alternative holds as far as it has been read. -/
  present : Bool

namespace Tally

/-- What the chain is worth if it ends here. -/
def value (t : Tally) : Bool := t.earlier || t.present

/-- The state after the first link.  Of its connector only the negation counts. -/
def first (c : Connector) (b : Bool) : Tally := ⟨false, b ^^ c.negates⟩

/-- The state after a further link: `OR` begins a new alternative, anything else stays in the
present one. -/
def join (t : Tally) (c : Connector) (b : Bool) : Tally :=
  if c.isOr then ⟨t.value, b ^^ c.negates⟩ else ⟨t.earlier, t.present && (b ^^ c.negates)⟩

/-- The state after further links. -/
def joinAll (t : Tally) (links : List (Connector × Bool)) : Tally :=
  links.foldl (fun t link => t.join link.1 link.2) t

@[simp] lemma joinAll_nil (t : Tally) : t.joinAll [] = t := rfl

@[simp] lemma joinAll_cons (t : Tally) (c : Connector) (b : Bool)
    (links : List (Connector × Bool)) :
    t.joinAll ((c, b) :: links) = (t.join c b).joinAll links := rfl

lemma joinAll_append (t : Tally) (as bs : List (Connector × Bool)) :
    t.joinAll (as ++ bs) = (t.joinAll as).joinAll bs := by
  simp [joinAll]

lemma first_xor_negates (c : Connector) (b : Bool) : first c (b ^^ c.negates) = ⟨false, b⟩ := by
  rw [first, Bool.xor_assoc, Bool.xor_self, Bool.xor_false]

lemma join_xor_negates (t : Tally) (c : Connector) (b : Bool) :
    t.join c (b ^^ c.negates)
      = if c.isOr then ⟨t.value, b⟩ else ⟨t.earlier, t.present && b⟩ := by
  rw [join, Bool.xor_assoc, Bool.xor_self, Bool.xor_false]

/-- The state before a link that makes it as good as the first one. -/
lemma join_eq_first (c : Connector) (b : Bool) :
    (mk false (!c.isOr)).join c b = first c b := by
  cases hc : c.isOr <;> simp [join, first, value, hc]

/-- An alternative that holds is never taken back. -/
lemma value_joinAll_of_earlier (links : List (Connector × Bool)) (present : Bool) :
    ((Tally.mk true present).joinAll links).value = true := by
  induction links generalizing present with
  | nil => simp [value]
  | cons link links ih =>
      obtain ⟨c, b⟩ := link
      rw [joinAll_cons, join]
      split
      · exact ih _
      · exact ih _

/-- A present alternative that fails is no better than one that holds. -/
lemma value_joinAll_mono (links : List (Connector × Bool)) (earlier : Bool)
    (h : ((Tally.mk earlier false).joinAll links).value = true) :
    ((Tally.mk earlier true).joinAll links).value = true := by
  cases links with
  | nil => simp [value]
  | cons link links =>
      obtain ⟨c, b⟩ := link
      rw [joinAll_cons, join] at h ⊢
      cases hc : c.isOr
      · cases hb : (b ^^ c.negates)
        · simpa [hc, hb] using h
        · simp only [hc, hb, Bool.false_eq_true, if_false, Bool.and_true] at h ⊢
          exact value_joinAll_mono links earlier h
      · simp only [if_true, value, Bool.or_true]
        exact value_joinAll_of_earlier links _

end Tally

namespace Chain

/-- Whether a chain holds.  The empty chain restricts nothing. -/
def holds : List (Connector × Bool) → Bool
  | [] => true
  | (c, b) :: links => ((Tally.first c b).joinAll links).value

/-! ## Truth values that decide every link at once -/

/-- The truth values under which every link is worth `b`. -/
def all (b : Bool) (cs : List Connector) : List Bool := cs.map fun c => b ^^ c.negates

/-- The truth values under which the links before the first `OR` hold and no others. -/
def upToOr : List Connector → List Bool
  | [] => []
  | c :: cs => if c.isOr then all false (c :: cs) else (true ^^ c.negates) :: upToOr cs

@[simp] lemma length_all (b : Bool) (cs : List Connector) : (all b cs).length = cs.length := by
  simp [all]

@[simp] lemma length_upToOr (cs : List Connector) : (upToOr cs).length = cs.length := by
  induction cs with
  | nil => rfl
  | cons c cs ih =>
      rw [upToOr]
      split
      · simp
      · simp [ih]

@[simp] lemma zip_all_cons (b : Bool) (c : Connector) (cs : List Connector) :
    (c :: cs).zip (all b (c :: cs)) = (c, b ^^ c.negates) :: cs.zip (all b cs) := rfl

/-- Where every link fails, only earlier alternatives are left. -/
lemma joinAll_all_false (cs : List Connector) (earlier : Bool) :
    (Tally.mk earlier false).joinAll (cs.zip (all false cs)) = ⟨earlier, false⟩ := by
  induction cs with
  | nil => rfl
  | cons c cs ih =>
      rw [zip_all_cons, Tally.joinAll_cons, Tally.join]
      cases c.isOr <;> simpa [Tally.value] using ih

/-- Where every link holds, the present alternative does, and each `OR` leaves one behind. -/
lemma joinAll_all_true (cs : List Connector) (earlier : Bool) :
    (Tally.mk earlier true).joinAll (cs.zip (all true cs))
      = ⟨earlier || cs.any Connector.isOr, true⟩ := by
  induction cs generalizing earlier with
  | nil => simp
  | cons c cs ih =>
      rw [zip_all_cons, Tally.joinAll_cons, Tally.join]
      cases hc : c.isOr
      · simpa [hc] using ih earlier
      · simpa [hc, Tally.value] using ih true

/-- After a failed alternative links that hold are of use only behind an `OR`. -/
lemma value_joinAll_all_true (cs : List Connector) :
    ((Tally.mk false false).joinAll (cs.zip (all true cs))).value = cs.any Connector.isOr := by
  induction cs with
  | nil => rfl
  | cons c cs ih =>
      rw [zip_all_cons, Tally.joinAll_cons, Tally.join]
      cases hc : c.isOr
      · simpa [hc] using ih
      · simp [hc, Tally.value, joinAll_all_true]

/-- Up to the first `OR` nothing changes, and behind it nothing holds. -/
lemma value_joinAll_upToOr (cs : List Connector) (present : Bool) :
    ((Tally.mk false present).joinAll (cs.zip (upToOr cs))).value = present := by
  induction cs with
  | nil => simp [Tally.value]
  | cons c cs ih =>
      cases hc : c.isOr
      · simpa [upToOr, hc, Tally.join] using ih
      · simp [upToOr, hc, Tally.join, Tally.value, joinAll_all_false]

lemma holds_all_append (c : Connector) (cs : List Connector) (b : Bool)
    (links : List (Connector × Bool)) :
    holds ((c :: cs).zip (all b (c :: cs)) ++ links)
      = (((Tally.mk false b).joinAll (cs.zip (all b cs))).joinAll links).value := by
  rw [zip_all_cons, List.cons_append, holds, Tally.first_xor_negates, Tally.joinAll_append]

/-- A chain of links that are all worth `b` is worth `b`. -/
lemma holds_all {cs : List Connector} (hne : cs ≠ []) (b : Bool) :
    holds (cs.zip (all b cs)) = b := by
  cases cs with
  | nil => exact absurd rfl hne
  | cons c cs =>
      rw [zip_all_cons, holds, Tally.first_xor_negates]
      cases b
      · rw [joinAll_all_false]
        rfl
      · rw [joinAll_all_true]
        simp [Tally.value]

/-! ## When two chains read the same -/

/-- The links are negated alike, and alternatives begin at the same places. -/
def SameReading (cs cs' : List Connector) : Prop :=
  cs.map Connector.negates = cs'.map Connector.negates
    ∧ cs.tail.map Connector.isOr = cs'.tail.map Connector.isOr

/-- Links that are joined alike lead to the same state. -/
lemma joinAll_congr {cs cs' : List Connector}
    (hneg : cs.map Connector.negates = cs'.map Connector.negates)
    (hor : cs.map Connector.isOr = cs'.map Connector.isOr) (t : Tally) (bs : List Bool) :
    t.joinAll (cs.zip bs) = t.joinAll (cs'.zip bs) := by
  induction cs generalizing cs' t bs with
  | nil =>
      rw [List.map_nil, eq_comm, List.map_eq_nil_iff] at hneg
      rw [hneg]
  | cons c cs ih =>
      cases cs' with
      | nil => simp at hneg
      | cons c' cs' =>
          simp only [List.map_cons, List.cons.injEq] at hneg hor
          cases bs with
          | nil => rfl
          | cons b bs =>
              have hjoin : t.join c b = t.join c' b := by
                rw [Tally.join, Tally.join, hneg.1, hor.1]
              rw [List.zip_cons_cons, List.zip_cons_cons, Tally.joinAll_cons, Tally.joinAll_cons,
                hjoin]
              exact ih hneg.2 hor.2 _ _

lemma holds_congr {cs cs' : List Connector} (h : SameReading cs cs') (bs : List Bool) :
    holds (cs.zip bs) = holds (cs'.zip bs) := by
  obtain ⟨hneg, hor⟩ := h
  cases cs with
  | nil =>
      rw [List.map_nil, eq_comm, List.map_eq_nil_iff] at hneg
      rw [hneg]
  | cons c cs =>
      cases cs' with
      | nil => simp at hneg
      | cons c' cs' =>
          simp only [List.map_cons, List.cons.injEq] at hneg
          cases bs with
          | nil => rfl
          | cons b bs =>
              simp only [List.zip_cons_cons, holds, Tally.first, hneg.1]
              rw [joinAll_congr hneg.2 hor]

/-- The first link of a chain negates alike if the chains agree under every assignment.  Otherwise
the second one would get worse as its first link gets better. -/
lemma negates_eq_of_forall {c c' : Connector} {cs cs' : List Connector}
    (h : ∀ b bs, bs.length = cs.length →
      ((Tally.first c b).joinAll (cs.zip bs)).value
        = ((Tally.first c' b).joinAll (cs'.zip bs)).value) :
    c.negates = c'.negates := by
  by_contra hne
  have hflip : ∀ b, Tally.first c' (b ^^ c.negates) = ⟨false, !b⟩ := by
    intro b
    cases hc : c.negates <;> cases hc' : c'.negates <;> simp_all [Tally.first]
  have hkeep : ∀ b, ((Tally.mk false (!b)).joinAll (cs'.zip (upToOr cs))).value = b := by
    intro b
    have hb := h (b ^^ c.negates) (upToOr cs) (length_upToOr cs)
    rw [Tally.first_xor_negates, hflip, value_joinAll_upToOr] at hb
    exact hb.symm
  have hworse := Tally.value_joinAll_mono _ _ (hkeep true)
  rw [show true = !false from rfl, hkeep false] at hworse
  exact Bool.noConfusion hworse

/-- Where the first links negate alike, the chains agree from every state behind them. -/
lemma value_joinAll_eq_of_forall {c c' : Connector} {cs cs' : List Connector}
    (hneg : c.negates = c'.negates)
    (h : ∀ b bs, bs.length = cs.length →
      ((Tally.first c b).joinAll (cs.zip bs)).value
        = ((Tally.first c' b).joinAll (cs'.zip bs)).value)
    (present : Bool) (bs : List Bool) (hbs : bs.length = cs.length) :
    ((Tally.mk false present).joinAll (cs.zip bs)).value
      = ((Tally.mk false present).joinAll (cs'.zip bs)).value := by
  have hb := h (present ^^ c.negates) bs hbs
  rwa [Tally.first_xor_negates, hneg, Tally.first_xor_negates] at hb

/-- A link joined by `OR` shows: what stands before it is enough. -/
lemma isOr_of_forall {d d' : Connector} {ds ds' : List Connector}
    (h : ∀ bs, bs.length = (d :: ds).length →
      ((Tally.mk false true).joinAll ((d :: ds).zip bs)).value
        = ((Tally.mk false true).joinAll ((d' :: ds').zip bs)).value)
    (hd : d'.isOr = true) : d.isOr = true := by
  by_contra hne
  have hall := h (all false (d :: ds)) (length_all _ _)
  have hleft : ((Tally.mk false true).joinAll ((d :: ds).zip (all false (d :: ds)))).value
      = false := by
    rw [zip_all_cons, Tally.joinAll_cons, Tally.join_xor_negates, if_neg hne, Bool.and_false,
      joinAll_all_false]
    rfl
  have hright : ((Tally.mk false true).joinAll ((d' :: ds').zip (all false (d :: ds)))).value
      = true := by
    rw [all, List.map_cons, List.zip_cons_cons, Tally.joinAll_cons, Tally.join, if_pos hd]
    exact Tally.value_joinAll_of_earlier _ _
  rw [hleft, hright] at hall
  exact Bool.noConfusion hall

/-- Links that agree from every state are joined alike. -/
lemma map_eq_of_forall {cs cs' : List Connector} (hlen : cs.length = cs'.length)
    (h : ∀ present bs, bs.length = cs.length →
      ((Tally.mk false present).joinAll (cs.zip bs)).value
        = ((Tally.mk false present).joinAll (cs'.zip bs)).value) :
    cs.map Connector.negates = cs'.map Connector.negates
      ∧ cs.map Connector.isOr = cs'.map Connector.isOr := by
  induction cs generalizing cs' with
  | nil =>
      rw [List.length_nil, eq_comm, List.length_eq_zero_iff] at hlen
      rw [hlen]
      exact ⟨rfl, rfl⟩
  | cons d ds ih =>
      obtain ⟨d', ds', rfl⟩ := List.exists_cons_of_length_eq_add_one hlen.symm
      have hor : d.isOr = d'.isOr := by
        apply Bool.eq_iff_iff.mpr
        constructor
        · exact isOr_of_forall fun bs hbs => (h true bs (by rw [hbs, hlen])).symm
        · exact isOr_of_forall fun bs hbs => h true bs hbs
      -- from the right state the link is a first one
      have hfirst : ∀ b bs, bs.length = ds.length →
          ((Tally.first d b).joinAll (ds.zip bs)).value
            = ((Tally.first d' b).joinAll (ds'.zip bs)).value := by
        intro b bs hbs
        have hb := h (!d.isOr) (b :: bs) (by simpa using hbs)
        rwa [List.zip_cons_cons, List.zip_cons_cons, Tally.joinAll_cons, Tally.joinAll_cons,
          Tally.join_eq_first, hor, Tally.join_eq_first] at hb
      have hneg := negates_eq_of_forall hfirst
      obtain ⟨hnegs, hors⟩ := ih (by simpa using hlen) (value_joinAll_eq_of_forall hneg hfirst)
      exact ⟨congrArg₂ List.cons hneg hnegs, congrArg₂ List.cons hor hors⟩

/-- Chains of the same length that agree under every assignment read the same. -/
lemma sameReading_of_forall {cs cs' : List Connector} (hlen : cs.length = cs'.length)
    (h : ∀ bs, bs.length = cs.length → holds (cs.zip bs) = holds (cs'.zip bs)) :
    SameReading cs cs' := by
  cases cs with
  | nil =>
      rw [List.length_nil, eq_comm, List.length_eq_zero_iff] at hlen
      rw [hlen]
      exact ⟨rfl, rfl⟩
  | cons c cs =>
      obtain ⟨c', cs', rfl⟩ := List.exists_cons_of_length_eq_add_one hlen.symm
      have hfirst : ∀ b bs, bs.length = cs.length →
          ((Tally.first c b).joinAll (cs.zip bs)).value
            = ((Tally.first c' b).joinAll (cs'.zip bs)).value :=
        fun b bs hbs => h (b :: bs) (by simpa using hbs)
      have hneg := negates_eq_of_forall hfirst
      obtain ⟨hnegs, hors⟩ := map_eq_of_forall (by simpa using hlen)
        (value_joinAll_eq_of_forall hneg hfirst)
      exact ⟨congrArg₂ List.cons hneg hnegs, hors⟩

/-- **Chains with the same terms agree under every assignment exactly when they read the same.** -/
theorem holds_eq_forall_iff {cs cs' : List Connector} (hlen : cs.length = cs'.length) :
    (∀ bs, bs.length = cs.length → holds (cs.zip bs) = holds (cs'.zip bs)) ↔ SameReading cs cs' :=
  ⟨sameReading_of_forall hlen, fun h bs _ => holds_congr h bs⟩

/-! ## When a chain put after another means both -/

/-- The links of `after` put behind those of `own` mean both: there is no further alternative on
either side for the other one to escape through.  The links read `alone` where they stand by
themselves, and have to read the same behind the others. -/
def Narrows (own alone after : List Connector) : Prop :=
  after = [] ∨ SameReading alone after ∧
    (own = [] ∨ own.tail.any Connector.isOr = false ∧ after.any Connector.isOr = false)

instance (cs cs' : List Connector) : Decidable (SameReading cs cs') :=
  inferInstanceAs (Decidable (_ ∧ _))

instance (own alone after : List Connector) : Decidable (Narrows own alone after) :=
  inferInstanceAs (Decidable (_ ∨ _))

/-- What a link is worth. -/
def literal (link : Connector × Bool) : Bool := link.2 ^^ link.1.negates

/-- Without a further `OR` the present alternative is the only one. -/
lemma value_joinAll_of_no_or {links : List (Connector × Bool)}
    (h : ∀ link ∈ links, link.1.isOr = false) (present : Bool) :
    ((Tally.mk false present).joinAll links).value = (present && links.all literal) := by
  induction links generalizing present with
  | nil => simp [Tally.value]
  | cons link links ih =>
      obtain ⟨c, b⟩ := link
      have hc : c.isOr = false := h (c, b) List.mem_cons_self
      rw [Tally.joinAll_cons, Tally.join, if_neg (by simp [hc]),
        ih fun link hlink => h link (List.mem_cons_of_mem _ hlink), List.all_cons, literal,
        Bool.and_assoc]

/-- A chain of one alternative is the conjunction of its links. -/
lemma holds_of_no_or {links : List (Connector × Bool)}
    (h : ∀ link ∈ links.tail, link.1.isOr = false) : holds links = links.all literal := by
  cases links with
  | nil => rfl
  | cons link links =>
      obtain ⟨c, b⟩ := link
      rw [List.tail_cons] at h
      rw [holds, Tally.first, value_joinAll_of_no_or h, List.all_cons, literal]

lemma isOr_of_mem_zip {cs : List Connector} {bs : List Bool} {link : Connector × Bool}
    (h : cs.any Connector.isOr = false) (hlink : link ∈ cs.zip bs) : link.1.isOr = false := by
  rw [List.any_eq_false] at h
  simpa using h link.1 (List.of_mem_zip hlink).1

/-- The sufficient half: chains of one alternative each are conjunctions. -/
lemma holds_append_of_narrows {own alone after : List Connector} (h : Narrows own alone after)
    (hlen : alone.length = after.length) (as bs : List Bool) :
    holds (own.zip as ++ after.zip bs) = (holds (own.zip as) && holds (alone.zip bs)) := by
  rcases h with rfl | ⟨hread, rfl | ⟨hown, hafter⟩⟩
  · rw [List.length_nil, List.length_eq_zero_iff] at hlen
    simp [hlen, holds]
  · rw [holds_congr hread]
    simp [holds]
  · have hown' : ∀ link ∈ (own.zip as).tail, link.1.isOr = false := by
      intro link hlink
      rw [List.zip, List.tail_zipWith] at hlink
      exact isOr_of_mem_zip hown hlink
    have hafter' : ∀ link ∈ after.zip bs, link.1.isOr = false :=
      fun link hlink => isOr_of_mem_zip hafter hlink
    have hboth : ∀ link ∈ (own.zip as ++ after.zip bs).tail, link.1.isOr = false := by
      intro link hlink
      cases hzip : own.zip as with
      | nil =>
          rw [hzip] at hlink
          exact hafter' link (List.mem_of_mem_tail hlink)
      | cons first rest =>
          rw [hzip, List.cons_append, List.tail_cons, List.mem_append] at hlink
          rw [hzip] at hown'
          exact hlink.elim (hown' link) (hafter' link)
    rw [holds_congr hread, holds_of_no_or hboth, holds_of_no_or hown',
      holds_of_no_or fun link hlink => hafter' link (List.mem_of_mem_tail hlink), List.all_append]

/-- Behind an alternative that holds, a chain without `OR` reads as it does alone. -/
lemma value_joinAll_eq_holds {links : List (Connector × Bool)}
    (h : ∀ link ∈ links, link.1.isOr = false) :
    ((Tally.mk false true).joinAll links).value = holds links := by
  rw [value_joinAll_of_no_or h, Bool.true_and,
    holds_of_no_or fun link hlink => h link (List.mem_of_mem_tail hlink)]

/-- The necessary half.  Three assignments decide: a first chain that holds and a second one that
fails, a first one that fails and a second one that holds, and then any for the second. -/
lemma narrows_of_forall {own alone after : List Connector} (hlen : alone.length = after.length)
    (h : ∀ as bs : List Bool, as.length = own.length → bs.length = after.length →
      holds (own.zip as ++ after.zip bs) = (holds (own.zip as) && holds (alone.zip bs))) :
    Narrows own alone after := by
  by_cases hafter : after = []
  · exact Or.inl hafter
  · refine Or.inr ?_
    have halone : alone ≠ [] := by
      rintro rfl
      exact hafter (List.length_eq_zero_iff.mp hlen.symm)
    cases own with
    | nil =>
        refine ⟨(holds_eq_forall_iff hlen).mp fun bs hbs => ?_, Or.inl rfl⟩
        have hb := h [] bs rfl (hbs.trans hlen)
        simpa [holds] using hb.symm
    | cons c cs =>
        have hown : ∀ b, holds ((c :: cs).zip (all b (c :: cs))) = b :=
          holds_all (List.cons_ne_nil c cs)
        have hfails : ∀ bs, bs.length = after.length →
            ((Tally.mk false false).joinAll (after.zip bs)).value = false := by
          intro bs hbs
          have hb := h (all false (c :: cs)) bs (length_all _ _) hbs
          rwa [holds_all_append, joinAll_all_false, hown, Bool.false_and] at hb
        have hholds : ∀ bs, bs.length = after.length →
            ((Tally.mk (cs.any Connector.isOr) true).joinAll (after.zip bs)).value
              = holds (alone.zip bs) := by
          intro bs hbs
          have hb := h (all true (c :: cs)) bs (length_all _ _) hbs
          rwa [holds_all_append, joinAll_all_true, Bool.false_or, hown, Bool.true_and] at hb
        have hno : after.any Connector.isOr = false := by
          rw [← value_joinAll_all_true]
          exact hfails _ (length_all _ _)
        have hcs : cs.any Connector.isOr = false := by
          by_contra hne
          rw [Bool.not_eq_false] at hne
          have hb := hholds (all false alone) (by rw [length_all, hlen])
          rw [hne, Tally.value_joinAll_of_earlier, holds_all halone] at hb
          exact Bool.noConfusion hb
        refine ⟨(holds_eq_forall_iff hlen).mp fun bs hbs => ?_, Or.inr ⟨hcs, hno⟩⟩
        have hb := hholds bs (hbs.trans hlen)
        rw [hcs, value_joinAll_eq_holds fun link hlink => isOr_of_mem_zip hno hlink] at hb
        exact hb.symm

/-- **A chain put behind another means both under every assignment exactly when it narrows.** -/
theorem holds_append_forall_iff {own alone after : List Connector}
    (hlen : alone.length = after.length) :
    (∀ as bs : List Bool, as.length = own.length → bs.length = after.length →
      holds (own.zip as ++ after.zip bs) = (holds (own.zip as) && holds (alone.zip bs)))
      ↔ Narrows own alone after :=
  ⟨narrows_of_forall hlen, fun h as bs _ _ => holds_append_of_narrows h hlen as bs⟩

end Chain

end RelQuery
