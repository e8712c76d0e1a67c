import RelQuery.Proofs.Condition.Vacuous

/-!
# Further restrictions

A condition is restricted further by putting the entries of another one behind its own.  What this
means depends on the connectors that the links end up with: nothing holds the two parts together
but the precedence of `AND` over `OR`.

* `Scope.connectors` are the connectors of the links that entries compile to.
* `Conditions.handover` is the connector under which the further entries begin.
* **`compile_extend_iff`** — the text means both conditions under every assignment exactly when
  those connectors narrow.
-/

namespace RelQuery

namespace Scope

variable {scope : Scope}

/-! ## Connectors -/

/-- The connectors of the links of entries, `current` being the one that was given last. -/
def connectors (scope : Scope) (current : Option Connector) : List Entry → List Connector
  | [] => []
  | .connector c :: entries => scope.connectors (some c) entries
  | .clause key op operand :: entries =>
    let rest := scope.connectors current entries
    if scope.vacuousOperand key op operand then rest else current.getD scope.connector :: rest
  | .group inner :: entries =>
    let rest := scope.connectors current entries
    if scope.grouped.vacuous inner then rest else current.getD scope.connector :: rest

lemma map_fst_attach {ρ : Type} (c : Connector) {term : Option (Term ρ)}
    (links : List (Connector × Term ρ)) {empty : Bool} (h : term = none ↔ empty = true) :
    (attach c term links).map Prod.fst
      = if empty then links.map Prod.fst else c :: links.map Prod.fst := by
  cases term with
  | none => rw [if_pos (h.mp rfl), attach_none]
  | some term => rw [if_neg (mt h.mpr (Option.some_ne_none term)), attach_some, List.map_cons]

/-- Entries compile to links with these connectors. -/
lemma map_fst_links : (entries : List Entry) → (current : Option Connector) →
    (links : List (Connector × Term Slot)) → scope.links current entries = .ok links →
    links.map Prod.fst = scope.connectors current entries
  | [], _, links, h => by
      cases h
      rfl
  | .connector c :: entries, _, links, h => map_fst_links entries (some c) links h
  | .clause key op operand :: entries, current, links, h => by
      obtain ⟨term, hterm, rest, hrest, rfl⟩ := links_clause_eq_ok.mp h
      rw [connectors,
        map_fst_attach _ _ (clause_eq_none_iff operand scope key op term hterm),
        map_fst_links entries current rest hrest]
  | .group inner :: entries, current, links, h => by
      obtain ⟨own, hown, rest, hrest, rfl⟩ := links_group_eq_ok.mp h
      rw [connectors,
        map_fst_attach _ _ (chainOf_eq_none_iff.trans (links_eq_nil_iff inner _ _ own hown)),
        map_fst_links entries current rest hrest]

lemma map_snd_attach {ρ : Type} (c c' : Connector) (term : Option (Term ρ))
    {links links' : List (Connector × Term ρ)} (h : links.map Prod.snd = links'.map Prod.snd) :
    (attach c term links).map Prod.snd = (attach c' term links').map Prod.snd := by
  cases term with
  | none => exact h
  | some term => rw [attach_some, attach_some, List.map_cons, List.map_cons, h]

/-- The connector that was given last has no part in the terms. -/
lemma exists_links_of_links (other : Option Connector) : (entries : List Entry) →
    (current : Option Connector) → (links : List (Connector × Term Slot)) →
    scope.links current entries = .ok links →
    ∃ links', scope.links other entries = .ok links'
      ∧ links'.map Prod.snd = links.map Prod.snd
  | [], _, links, h => ⟨[], rfl, by cases h; rfl⟩
  | .connector c :: entries, _, links, h => ⟨links, h, rfl⟩
  | .clause key op operand :: entries, current, links, h => by
      obtain ⟨term, hterm, rest, hrest, rfl⟩ := links_clause_eq_ok.mp h
      obtain ⟨rest', hrest', hsame⟩ := exists_links_of_links other entries current rest hrest
      exact ⟨attach (other.getD scope.connector) term rest',
        links_clause_eq_ok.mpr ⟨term, hterm, rest', hrest', rfl⟩, map_snd_attach _ _ term hsame⟩
  | .group inner :: entries, current, links, h => by
      obtain ⟨own, hown, rest, hrest, rfl⟩ := links_group_eq_ok.mp h
      obtain ⟨rest', hrest', hsame⟩ := exists_links_of_links other entries current rest hrest
      exact ⟨attach (other.getD scope.connector) (chainOf own) rest',
        links_group_eq_ok.mpr ⟨own, hown, rest', hrest', rfl⟩,
        map_snd_attach _ _ (chainOf own) hsame⟩

end Scope

/-! ## Extending -/

/-- Further links are named after the first, in the bindings that those leave. -/
lemma Predicate.mapM_bind_append (pa : Predicate Slot) {pb : Predicate Slot}
    {after : List (Connector × Term Slot)} (hterms : after.map Prod.snd = pb.links.map Prod.snd)
    (dialect : Dialect) (start : Bindings) :
    (comparisons ⟨pa.links ++ after⟩).mapM Comparison.bind start
      = ((pa.comparisons.mapM Comparison.bind start).1
          ++ (pb.comparisons.mapM Comparison.bind (pa.write dialect start).2).1,
        (pb.comparisons.mapM Comparison.bind (pa.write dialect start).2).2) := by
  have hcomparisons : comparisons ⟨pa.links ++ after⟩ = pa.comparisons ++ pb.comparisons := by
    rw [comparisons, Term.linkComparisons_append, Term.linkComparisons_congr hterms]
    rfl
  rw [hcomparisons, List.mapM_append, bindings_write]
  rfl

namespace Conditions

variable {a b : Conditions} {scope : Scope} {dialect : Dialect}

/-- The connector under which further entries begin: the explicit `AND`, unless only connectors
stand before them. -/
def handover (c : Conditions) : Option Connector :=
  if c.isEmpty then Scope.lastConnector none c.entries else some .and

lemma links_extend (a b : Conditions) (scope : Scope) :
    scope.links none (a.extend b).entries = (do
      let own ← scope.links none a.entries
      let rest ← scope.links a.handover b.entries
      return own ++ rest) := by
  cases hb : b.isEmpty with
  | true =>
      rw [extend, if_pos hb, Scope.links_of_all_isConnector a.handover hb]
      cases scope.links none a.entries with
      | error e => rfl
      | ok own => simp [bind, Except.bind, pure, Except.pure]
  | false =>
      rw [extend, if_neg (by simp [hb]), handover]
      cases ha : a.isEmpty with
      | true =>
          rw [if_pos rfl, if_pos rfl]
          exact Scope.links_append none a.entries b.entries
      | false =>
          rw [if_neg (by simp), if_neg (by simp)]
          exact Scope.links_append none a.entries (.connector .and :: b.entries)

/-- An extended condition compiles to the terms of both. -/
lemma exists_predicate_extend {pa pb : Predicate Slot} (ha : a.predicate scope = .ok pa)
    (hb : b.predicate scope = .ok pb) :
    ∃ after, (a.extend b).predicate scope = .ok ⟨pa.links ++ after⟩
      ∧ scope.links a.handover b.entries = .ok after
      ∧ after.map Prod.snd = pb.links.map Prod.snd := by
  obtain ⟨after, hafter, hterms⟩ :=
    Scope.exists_links_of_links a.handover b.entries none pb.links (predicate_eq_ok.mp hb)
  refine ⟨after, ?_, hafter, hterms⟩
  rw [predicate_eq_ok, links_extend, predicate_eq_ok.mp ha, hafter]
  rfl

/-- **A further restriction means both conditions exactly when the connectors narrow**: the first
condition has no alternative behind its first clause, the further one has none at all, and its
clauses are negated as they are where it stands alone.  The text has the comparisons of both, in
order and under the same names. -/
theorem compile_extend_iff {start boundA boundB : Bindings} {sqlA sqlB : String}
    (ha : a.compile dialect scope start = .ok (sqlA, boundA))
    (hb : b.compile dialect scope boundA = .ok (sqlB, boundB)) :
    ∃ sql, (a.extend b).compile dialect scope start = .ok (sql, boundB)
      ∧ Word.comparisonsIn dialect sql
        = Word.comparisonsIn dialect sqlA ++ Word.comparisonsIn dialect sqlB
      ∧ ((∀ as bs : List Bool, as.length = (Word.comparisonsIn dialect sqlA).length →
          bs.length = (Word.comparisonsIn dialect sqlB).length →
          (Word.holds? dialect sql (as ++ bs) = some true
            ↔ Word.holds? dialect sqlA as = some true ∧ Word.holds? dialect sqlB bs = some true))
        ↔ Chain.Narrows (scope.connectors none a.entries) (scope.connectors none b.entries)
          (scope.connectors a.handover b.entries)) := by
  obtain ⟨pa, hpa, hwritea⟩ := compile_eq_ok.mp ha
  obtain ⟨pb, hpb, hwriteb⟩ := compile_eq_ok.mp hb
  obtain ⟨after, hp, hafter, hterms⟩ := exists_predicate_extend hpa hpb
  have hsounda := sound_of_predicate hpa
  have hsoundb := sound_of_predicate hpb
  have hsound := sound_of_predicate hp
  have hsplit := pa.mapM_bind_append hterms dialect start
  rw [hwritea] at hsplit
  refine ⟨(Predicate.write dialect start ⟨pa.links ++ after⟩).1,
    compile_eq_ok.mpr ⟨_, hp, ?_⟩, ?_, ?_⟩
  · refine Prod.ext rfl ?_
    rw [Predicate.bindings_write, hsplit, ← Predicate.bindings_write pb dialect, hwriteb]
  · rw [Predicate.comparisonsIn_write hsound, hsplit, List.map_append,
      ← Predicate.comparisonsIn_write hsounda, ← Predicate.comparisonsIn_write hsoundb, hwritea,
      hwriteb]
  · have hlena := Predicate.length_comparisonsIn_write hsounda dialect start
    have hlenb := Predicate.length_comparisonsIn_write hsoundb dialect boundA
    have hholdsa := Predicate.holds?_write hsounda dialect start
    have hholdsb := Predicate.holds?_write hsoundb dialect boundA
    rw [hwritea] at hlena hholdsa
    rw [hwriteb] at hlenb hholdsb
    rw [← Scope.map_fst_links a.entries none pa.links (predicate_eq_ok.mp hpa),
      ← Scope.map_fst_links b.entries none pb.links (predicate_eq_ok.mp hpb),
      ← Scope.map_fst_links b.entries a.handover after hafter,
      ← Term.linksHold_append_forall_iff hsounda.1
        (Scope.sound_of_links b.entries scope a.handover after hafter).1 hterms, hlena, hlenb]
    refine forall₄_congr fun as bs _ _ => ?_
    rw [Predicate.holds?_write hsound, hholdsa, hholdsb, Option.some_inj, Option.some_inj,
      Option.some_inj, ← Bool.and_eq_true, ← Bool.eq_iff_iff]
    rfl

/-- Behind alternatives a further restriction only reaches the last of them. -/
theorem holds?_extend_of_alternatives :
    let a := ((empty.eq "a" (.scalar (.ofNat 1))).connector .or).eq "b" (.scalar (.ofNat 2))
    let b := empty.eq "c" (.scalar (.ofNat 3))
    let sqlA := "\x60a\x60 = :cnd_a OR \x60b\x60 = :cnd_b"
    let sqlB := "\x60c\x60 = :cnd_c"
    ∃ boundA boundB, a.compile .mysql {} .empty = .ok (sqlA, boundA)
      ∧ b.compile .mysql {} boundA = .ok (sqlB, boundB)
      ∧ (a.extend b).compile .mysql {} .empty = .ok (sqlA ++ " AND " ++ sqlB, boundB)
      ∧ ¬ ∀ as bs : List Bool, as.length = 2 → bs.length = 1 →
        (Word.holds? .mysql (sqlA ++ " AND " ++ sqlB) (as ++ bs) = some true
          ↔ Word.holds? .mysql sqlA as = some true ∧ Word.holds? .mysql sqlB bs = some true) := by
  intro a b sqlA sqlB
  have ha : a.compile .mysql {} .empty
      = .ok (sqlA, ⟨[("cnd_a", .ofNat 1), ("cnd_b", .ofNat 2)]⟩) := rfl
  have hb : b.compile .mysql {} ⟨[("cnd_a", .ofNat 1), ("cnd_b", .ofNat 2)]⟩
      = .ok (sqlB, ⟨[("cnd_a", .ofNat 1), ("cnd_b", .ofNat 2), ("cnd_c", .ofNat 3)]⟩) := rfl
  have hboth : (a.extend b).compile .mysql {} .empty = .ok (sqlA ++ " AND " ++ sqlB,
      ⟨[("cnd_a", .ofNat 1), ("cnd_b", .ofNat 2), ("cnd_c", .ofNat 3)]⟩) := rfl
  obtain ⟨sql, hsql, -, hiff⟩ := compile_extend_iff ha hb
  obtain ⟨rfl, -⟩ := Prod.mk.inj (Except.ok.inj (hboth.symm.trans hsql))
  have hescapes : ¬ Chain.Narrows (Scope.connectors {} none a.entries)
      (Scope.connectors {} none b.entries) (Scope.connectors {} a.handover b.entries) := by decide
  rw [show (Word.comparisonsIn .mysql sqlA).length = 2 by decide +kernel,
    show (Word.comparisonsIn .mysql sqlB).length = 1 by decide +kernel] at hiff
  exact ⟨_, _, ha, hb, hboth, mt hiff.mp hescapes⟩

end Conditions

end RelQuery
