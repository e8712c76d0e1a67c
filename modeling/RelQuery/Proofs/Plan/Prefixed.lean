import RelQuery.Proofs.Plan.Expansion

/-!
# Names of joined columns

The columns of joined relations are told apart by a name made of alias and column.  The mark between
the two is made of characters that may stand in both of them, so the name does not always say where
one ends and the other begins.

* `Plan.RunsOver` is the one way in which two columns get the same name.
* **`prefixed_eq_iff`** — there is no other way.
* **`makes_outputName_eq_iff`** — this is what the fields of a plan can have in common.
-/

namespace RelQuery.Plan

variable {σ : Type} {a c a' c' : String}

/-- A longer alias that takes in the mark behind a shorter one, and what the column begins with. -/
def RunsOver (a c a' c' : String) : Prop :=
  (∃ between, a' = a ++ "__" ++ between ∧ c = between ++ "__" ++ c')
    ∨ (a' = a ++ "_" ∧ c = "_" ++ c')

lemma prefixed_eq_of_runsOver (h : RunsOver a c a' c') : prefixed a c = prefixed a' c' := by
  rcases h with ⟨between, rfl, rfl⟩ | ⟨rfl, rfl⟩
  · simp only [prefixed, String.append_assoc]
  · simp only [prefixed, String.append_assoc]
    rfl

/-- The mark is found again behind a longer alias. -/
lemma runsOver_of_append {longer : List Char} (h : a'.toList = a.toList ++ longer)
    (hrest : '_' :: '_' :: c.toList = longer ++ '_' :: '_' :: c'.toList) :
    a = a' ∧ c = c' ∨ RunsOver a c a' c' := by
  match longer, h, hrest with
  | [], h, hrest =>
      rw [List.append_nil] at h
      rw [List.nil_append, List.cons.injEq, List.cons.injEq] at hrest
      exact .inl ⟨(String.toList_inj.mp h).symm, String.toList_inj.mp hrest.2.2⟩
  | [x], h, hrest =>
      rw [List.singleton_append, List.cons.injEq, List.cons.injEq] at hrest
      obtain ⟨rfl, -, hc⟩ := hrest
      refine .inr (.inr ⟨String.toList_inj.mp ?_, String.toList_inj.mp ?_⟩)
      · rw [h, String.toList_append]
        rfl
      · rw [hc, String.toList_append]
        rfl
  | x :: y :: between, h, hrest =>
      rw [List.cons_append, List.cons_append, List.cons.injEq, List.cons.injEq] at hrest
      obtain ⟨rfl, rfl, hc⟩ := hrest
      refine .inr (.inl ⟨String.ofList between, String.toList_inj.mp ?_,
        String.toList_inj.mp ?_⟩)
      · rw [h]
        simp only [String.toList_append, String.toList_ofList, List.append_assoc]
        rfl
      · rw [hc]
        simp only [String.toList_append, String.toList_ofList, List.append_assoc]
        rfl

/-- **Two columns get the same name exactly if they are the same**, or one alias runs over the
other. -/
theorem prefixed_eq_iff :
    prefixed a c = prefixed a' c'
      ↔ (a = a' ∧ c = c') ∨ RunsOver a c a' c' ∨ RunsOver a' c' a c := by
  constructor
  · intro h
    have hlist : a.toList ++ '_' :: '_' :: c.toList = a'.toList ++ '_' :: '_' :: c'.toList := by
      have hmark : ∀ s t : String, (prefixed s t).toList
          = "__contain_".toList ++ (s.toList ++ '_' :: '_' :: t.toList) := by
        intro s t
        simp only [prefixed, String.toList_append, List.append_assoc]
        rfl
      have htext := congrArg String.toList h
      rw [hmark, hmark] at htext
      exact List.append_cancel_left htext
    rcases List.append_eq_append_iff.mp hlist with ⟨longer, hlonger, hrest⟩
      | ⟨longer, hlonger, hrest⟩
    · rcases runsOver_of_append hlonger hrest with hsame | hover
      · exact .inl hsame
      · exact .inr (.inl hover)
    · rcases runsOver_of_append hlonger hrest with ⟨rfl, rfl⟩ | hover
      · exact .inl ⟨rfl, rfl⟩
      · exact .inr (.inr hover)
  · rintro (⟨rfl, rfl⟩ | hover | hover)
    · rfl
    · exact prefixed_eq_of_runsOver hover
    · exact (prefixed_eq_of_runsOver hover).symm

/-! ## Fields of a plan -/

/-- An alias that goes on behind another one with the mark, or with half of it. -/
def GoesOn (a a' : String) : Prop := (∃ rest, a' = a ++ "__" ++ rest) ∨ a' = a ++ "_"

lemma goesOn_of_runsOver (h : RunsOver a c a' c') : GoesOn a a' := by
  rcases h with ⟨between, h, -⟩ | ⟨h, -⟩
  · exact .inl ⟨between, h⟩
  · exact .inr h

/-- **When fields of a plan have the same name.**  Each is a column of one of the relations.  Two of
them share the name exactly if they are the same column, or one alias runs over the other.  So they
do not as long as no alias of the statement goes on behind another one with the mark. -/
theorem makes_outputName_eq_iff (ctx : Context σ) (withFields : Bool) (relations : List Relation)
    (main : TableRef) :
    Session.Makes (Plan.ofRelations ctx withFields relations main) fun plan =>
      ∀ field ∈ plan.fields, ∀ field' ∈ plan.fields,
        ∃ a ∈ Relation.aliasesOfAll relations, ∃ a' ∈ Relation.aliasesOfAll relations, ∃ c c',
          field = fieldOf a c ∧ field' = fieldOf a' c'
          ∧ (field.outputName? = field'.outputName?
            ↔ (a = a' ∧ c = c') ∨ RunsOver a c a' c' ∨ RunsOver a' c' a c)
          ∧ (field.outputName? = field'.outputName? → ¬ GoesOn a a' → ¬ GoesOn a' a →
            a = a' ∧ c = c') := by
  intro s plan t hplan field hfield field' hfield'
  have hall := makes_fields_ofRelations ctx withFields relations main s plan t hplan
  obtain ⟨a, ha, c, rfl⟩ := hall field hfield
  obtain ⟨a', ha', c', rfl⟩ := hall field' hfield'
  have hiff : (fieldOf a c).outputName? = (fieldOf a' c').outputName?
      ↔ (a = a' ∧ c = c') ∨ RunsOver a c a' c' ∨ RunsOver a' c' a c := by
    rw [← prefixed_eq_iff]
    exact Option.some_inj
  refine ⟨a, ha, a', ha', c, c', rfl, rfl, hiff, fun hname hnot hnot' => ?_⟩
  rcases hiff.mp hname with hsame | hover | hover
  · exact hsame
  · exact absurd (goesOn_of_runsOver hover) hnot
  · exact absurd (goesOn_of_runsOver hover) hnot'

/-- Two relations whose aliases differ, and whose columns get one name. -/
theorem outputName_of_runsOver :
    let driver : Driver Unit := ⟨.mysql, fun _ _ s => (.ok [], s), fun _ _ s => (.ok ⟨0, none⟩, s),
      fun _ s => (.ok [], s)⟩
    let short : Relation :=
      ⟨{ mode := .belongsTo, aliasName := "a", table := "users", fields := ["b__c"] }, []⟩
    let long : Relation :=
      ⟨{ mode := .belongsTo, aliasName := "a__b", table := "users", fields := ["c"] }, []⟩
    short.check = .ok () ∧ long.check = .ok ()
      ∧ ∃ plan session, Plan.ofRelations (.ofConfig driver {}) true [short, long]
          ⟨"posts", none⟩ { connection := () } = (.ok plan, session)
        ∧ plan.fields = [fieldOf "a" "b__c", fieldOf "a__b" "c"]
        ∧ (fieldOf "a" "b__c").outputName? = (fieldOf "a__b" "c").outputName? := by
  intro driver short long
  obtain ⟨plan, session, hplan, hfields⟩ : ∃ plan session,
      Plan.ofRelations (.ofConfig driver {}) true [short, long] ⟨"posts", none⟩ { connection := () }
        = (.ok plan, session)
      ∧ plan.fields = [fieldOf "a" "b__c", fieldOf "a__b" "c"] := ⟨_, _, rfl, rfl⟩
  obtain ⟨a, -, a', -, c, c', hfield, hfield', hiff, -⟩ :=
    makes_outputName_eq_iff _ _ _ _ _ plan session hplan
      (fieldOf "a" "b__c") (by simp [hfields]) (fieldOf "a__b" "c") (by simp [hfields])
  have hover : RunsOver a c a' c' := by
    cases hfield
    cases hfield'
    exact .inl ⟨"b", rfl, rfl⟩
  exact ⟨rfl, rfl, plan, session, hplan, hfields, hiff.mpr (.inr (.inl hover))⟩

end RelQuery.Plan
