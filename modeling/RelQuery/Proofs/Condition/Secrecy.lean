import RelQuery.Proofs.Condition.Compile
import RelQuery.Proofs.Predicate.Map

/-!
# Values stay out of the text

Where values become parameters, the text of a condition must not depend on them.  Two things about a
value do count: whether it is null, because null is written into the text, and whether it stands in
the list of an `IN`, because such a list is too.

* `Scope.blank` replaces every value that does not count by one and the same.
* `Scope.secrets` are the values that it replaces, in order.
* **`links_blank`** — a blanked condition compiles as the condition does, up to bound values.
* **`compile_of_blank_eq`** — conditions that are alike once blanked compile to the same text and
  the same names, or fail with the same error; what is bound are the values of each.
-/

namespace RelQuery

/-! ## Blanking -/

/-- The value that stands for any that is not null. -/
def Value.blankScalar : Value → Value
  | .null => .null
  | _ => .bool false

mutual

/-- An alternative without its value.  Lists of alternatives keep their shape. -/
def Value.blank : Value → Value
  | .arr items => .arr (blankItems items)
  | .null => Value.null.blankScalar
  | .bool b => (Value.bool b).blankScalar
  | .num n => (Value.num n).blankScalar
  | .str s => (Value.str s).blankScalar
  | .obj members => (Value.obj members).blankScalar

/-- Alternatives without their values. -/
def Value.blankItems : List Value → List Value
  | [] => []
  | v :: items => v.blank :: blankItems items

end

/-- The value of a scalar, unless it is null. -/
def Value.scalarSecrets : Value → List Value
  | .null => []
  | v => [v]

mutual

/-- The values in an alternative that are not null. -/
def Value.secrets : Value → List Value
  | .arr items => secretsOfItems items
  | .null => Value.null.scalarSecrets
  | .bool b => (Value.bool b).scalarSecrets
  | .num n => (Value.num n).scalarSecrets
  | .str s => (Value.str s).scalarSecrets
  | .obj members => (Value.obj members).scalarSecrets

/-- The values in alternatives that are not null. -/
def Value.secretsOfItems : List Value → List Value
  | [] => []
  | v :: items => v.secrets ++ secretsOfItems items

end

namespace Scope

mutual

/-- Entries without their values: those of scalars, and those in lists that are not the list of an
`IN`.  Null stays. -/
def blank (scope : Scope) : List Entry → List Entry
  | [] => []
  | .connector c :: entries => .connector c :: scope.blank entries
  | .clause key op operand :: entries =>
    .clause key op (scope.blankOperand key op operand) :: scope.blank entries
  | .group inner :: entries => .group (scope.grouped.blank inner) :: scope.blank entries

/-- A right-hand side without its values. -/
def blankOperand (scope : Scope) (key : String) (op : Option Operator) : Operand → Operand
  | .scalar v => .scalar v.blankScalar
  | .column other => .column other
  | .list items => .list (if scope.listsValues key op then items else Value.blankItems items)
  | .nested entries => .nested ((scope.inside key op).blank entries)

end

mutual

/-- The values in entries that are blanked, in order. -/
def secrets (scope : Scope) : List Entry → List Value
  | [] => []
  | .connector _ :: entries => scope.secrets entries
  | .clause key op operand :: entries => scope.secretsOf key op operand ++ scope.secrets entries
  | .group inner :: entries => scope.grouped.secrets inner ++ scope.secrets entries

/-- The values in a right-hand side that are blanked. -/
def secretsOf (scope : Scope) (key : String) (op : Option Operator) : Operand → List Value
  | .scalar v => v.scalarSecrets
  | .column _ => []
  | .list items => if scope.listsValues key op then [] else Value.secretsOfItems items
  | .nested entries => (scope.inside key op).secrets entries

end

end Scope

/-- A parameter without its value. -/
def Slot.blank (slot : Slot) : Slot := { slot with value := Value.ofBool false }

/-! ## Blanked conditions compile alike -/

lemma bind_map_except {α β γ : Type} (x : Except Error α) (f : α → β) (g : β → Except Error γ) :
    x.map f >>= g = x >>= fun a => g (f a) := by
  cases x <;> rfl

lemma map_bind_except {α β γ : Type} (x : Except Error α) (f : α → Except Error β) (g : β → γ) :
    (x >>= f).map g = x >>= fun a => (f a).map g := by
  cases x <;> rfl

/-- What agrees once it is mapped failed alike, or came to results that agree once they are. -/
lemma error_or_ok_of_map_eq {α β : Type} {x y : Except Error α} {f : α → β}
    (h : x.map f = y.map f) :
    (∃ e, x = .error e ∧ y = .error e) ∨ ∃ a b, x = .ok a ∧ y = .ok b ∧ f a = f b := by
  cases x with
  | error e =>
      cases y with
      | error e' => exact Or.inl ⟨e, rfl, congrArg Except.error (Except.error.inj h).symm⟩
      | ok b => cases h
  | ok a =>
      cases y with
      | error e' => cases h
      | ok b => exact Or.inr ⟨a, b, rfl, rfl, Except.ok.inj h⟩

namespace Scope

variable {scope : Scope}

lemma attach_map {ρ σ : Type} (f : ρ → σ) (c : Connector) (term : Option (Term ρ))
    (links : List (Connector × Term ρ)) :
    attach c (term.map (Term.map f)) (Term.mapLinks f links)
      = Term.mapLinks f (attach c term links) := by
  cases term <;> rfl

lemma chainOf_mapLinks {ρ σ : Type} (f : ρ → σ) (links : List (Connector × Term ρ)) :
    chainOf (Term.mapLinks f links) = (chainOf links).map (Term.map f) := by
  cases links <;> rfl

lemma compareValue_null (field : String) (op : Operator) :
    scope.compareValue field op .null = (scope.columnOf field).map fun column =>
      ⟨column, nullOperator op, .one (.literal .null)⟩ := by
  rw [compareValue]
  cases scope.columnOf field <;> rfl

lemma compareValue_of_ne_null (hscope : scope.parameterize = true) (field : String)
    (op : Operator) {v : Value} (hv : v ≠ .null) :
    scope.compareValue field op v = (scope.columnOf field).map fun column =>
      ⟨column, op, sideOf op (.param ⟨scope.parameterBase field, v.normalized⟩)⟩ := by
  have hatom : scope.atomOf field v = .ok (.param ⟨scope.parameterBase field, v.normalized⟩) := by
    unfold atomOf
    rw [if_pos hscope]
  have hnull : v.isNull = false := by
    cases v with
    | null => exact absurd rfl hv
    | bool | num | str | arr | obj => rfl
  rw [compareValue, hatom]
  cases scope.columnOf field with
  | error e => rfl
  | ok column => simp [hnull]; rfl

lemma compareValue_blank (hscope : scope.parameterize = true) (field : String) (op : Operator)
    (v : Value) :
    scope.compareValue field op v.blankScalar
      = (scope.compareValue field op v).map (Comparison.map Slot.blank) := by
  by_cases hv : v = .null
  · rw [hv, Value.blankScalar, compareValue_null]
    cases scope.columnOf field <;> rfl
  · have hblank : v.blankScalar = .bool false := by
      cases v with
      | null => exact absurd rfl hv
      | bool | num | str | arr | obj => rfl
    rw [hblank, compareValue_of_ne_null hscope field op hv,
      compareValue_of_ne_null hscope field op (by simp)]
    cases scope.columnOf field with
    | error e => rfl
    | ok column =>
        refine congrArg (fun side => Except.ok (Comparison.mk column op side)) ?_
        unfold sideOf
        split <;> rfl

/-- The parameters of a comparison with a value are its secrets. -/
lemma slots_of_compareValue (hscope : scope.parameterize = true) {field : String} {op : Operator}
    {v : Value} {c : Comparison Slot} (h : scope.compareValue field op v = .ok c) :
    c.slots.map Slot.value = v.scalarSecrets.map Value.normalized := by
  by_cases hv : v = .null
  · rw [hv, compareValue_null] at h
    obtain ⟨column, -, rfl⟩ := map_eq_ok.mp h
    rw [hv]
    rfl
  · have hsecrets : v.scalarSecrets = [v] := by
      cases v with
      | null => exact absurd rfl hv
      | bool | num | str | arr | obj => rfl
    rw [compareValue_of_ne_null hscope field op hv] at h
    obtain ⟨column, -, rfl⟩ := map_eq_ok.mp h
    rw [hsecrets]
    show (sideOf op (.param ⟨scope.parameterBase field, v.normalized⟩)).slots.map Slot.value = _
    unfold sideOf
    split <;> rfl

lemma map_literals {ρ σ : Type} (f : ρ → σ) (items : List Value) :
    ((items.map fun v => Atom.literal v.normalized).map (Atom.map f))
      = items.map fun v => Atom.literal v.normalized := by
  rw [List.map_map]
  rfl

lemma compareColumn_map (f : Slot → Slot) (field : String) (op : Operator) (other : String) :
    (scope.compareColumn field op other).map (Comparison.map f)
      = scope.compareColumn field op other := by
  rw [compareColumn]
  cases scope.columnOf field with
  | error e => rfl
  | ok column => cases Identifier.parse other <;> rfl

lemma slots_of_compareColumn {field : String} {op : Operator} {other : String}
    {c : Comparison Slot} (h : scope.compareColumn field op other = .ok c) : c.slots = [] := by
  obtain ⟨column, identifier, -, -, rfl⟩ := compareColumn_cases h
  rfl

lemma compareList_map (f : Slot → Slot) (field : String) (items : List Value) :
    (scope.compareList field items).map (Comparison.map f) = scope.compareList field items := by
  rw [compareList]
  cases scope.columnOf field with
  | error e => rfl
  | ok column =>
      cases items with
      | nil => rfl
      | cons v items =>
          exact congrArg (fun atoms => Except.ok (Comparison.mk column .within (.many atoms)))
            (map_literals f (v :: items))

lemma slots_of_compareList {field : String} {items : List Value} {c : Comparison Slot}
    (h : scope.compareList field items = .ok c) : c.slots = [] := by
  obtain ⟨column, values, -, -, rfl⟩ := compareList_cases h
  show List.flatMap Atom.slots (values.map .literal) = []
  rw [List.flatMap_map, List.flatMap_eq_nil_iff]
  exact fun _ _ => rfl

/-! ## Entries -/

@[simp] lemma parameterize_inside (key : String) (op : Option Operator) :
    (scope.inside key op).parameterize = scope.parameterize := by
  rw [inside]
  split <;> rfl

/-- A comparison that does not change makes a clause that does not. -/
lemma return_test_map {f : Slot → Slot} {x : Except Error (Comparison Slot)}
    (h : x.map (Comparison.map f) = x) :
    (do return some (Term.test (← x)) : Except Error (Option (Term Slot))).map
      (Option.map (Term.map f)) = (do return some (Term.test (← x))) := by
  cases x with
  | error e => rfl
  | ok c =>
      have hc : c.map f = c := Except.ok.inj h
      show Except.ok (some (Term.test (c.map f))) = .ok (some (.test c))
      rw [hc]

lemma alternative_blank_single (hscope : scope.parameterize = true) {v : Value}
    (hv : ∀ items, v ≠ .arr items) (op : Operator) (key : String) :
    scope.alternative op key v.blankScalar
      = (scope.alternative op key v).map (Option.map (Term.map Slot.blank)) := by
  have hblank : ∀ items, v.blankScalar ≠ .arr items := by
    intro items
    cases v <;> simp [Value.blankScalar]
  rw [alternative_single hv, alternative_single hblank, compareValue_blank hscope, bind_map_except,
    map_bind_except]
  rfl

mutual

/-- A blanked alternative compiles as the alternative does. -/
lemma alternative_blank (hscope : scope.parameterize = true) : (v : Value) →
    ∀ (op : Operator) (key : String), scope.alternative op key v.blank
      = (scope.alternative op key v).map (Option.map (Term.map Slot.blank))
  | .arr items => by
      intro op key
      rw [Value.blank, alternative_list, alternative_list, alternatives_blank hscope items,
        bind_map_except, map_bind_except]
      simp only [chainOf_mapLinks]
      rfl
  | .null => by
      intro op key
      rw [Value.blank, alternative_blank_single hscope (by simp)]
  | .bool _ => by
      intro op key
      rw [Value.blank, alternative_blank_single hscope (by simp)]
  | .num _ => by
      intro op key
      rw [Value.blank, alternative_blank_single hscope (by simp)]
  | .str _ => by
      intro op key
      rw [Value.blank, alternative_blank_single hscope (by simp)]
  | .obj _ => by
      intro op key
      rw [Value.blank, alternative_blank_single hscope (by simp)]

lemma alternatives_blank (hscope : scope.parameterize = true) : (items : List Value) →
    (op : Operator) → (key : String) → scope.alternatives op key (Value.blankItems items)
      = (scope.alternatives op key items).map (Term.mapLinks Slot.blank)
  | [], _, _ => rfl
  | v :: items, op, key => by
      rw [Value.blankItems, alternatives_cons, alternatives_cons, alternative_blank hscope v,
        alternatives_blank hscope items, bind_map_except, map_bind_except]
      simp only [bind_map_except, map_bind_except, attach_map]
      rfl

end

mutual

lemma clause_blank : (operand : Operand) → (scope : Scope) → scope.parameterize = true →
    (key : String) → (op : Option Operator) →
    scope.clause key op (scope.blankOperand key op operand)
      = (scope.clause key op operand).map (Option.map (Term.map Slot.blank))
  | .scalar v, scope, hscope, key, op => by
      rw [blankOperand, clause_scalar, clause_scalar, compareValue_blank hscope, bind_map_except,
        map_bind_except]
      rfl
  | .column other, scope, _, key, op => by
      rw [blankOperand, clause_column, return_test_map (compareColumn_map _ _ _ _)]
  | .list items, scope, hscope, key, op => by
      rw [blankOperand, clause_list, clause_list]
      split
      · rw [return_test_map (compareList_map _ _ _)]
      · have hgrouped : scope.grouped.parameterize = true := hscope
        rw [alternatives_blank hgrouped, bind_map_except, map_bind_except]
        simp only [chainOf_mapLinks]
        rfl
  | .nested entries, scope, hscope, key, op => by
      have hinside : (scope.inside key op).parameterize = true := by
        rw [parameterize_inside, hscope]
      rw [blankOperand, clause_nested, clause_nested, links_blank entries _ hinside]
      simp only [bind_map_except, map_bind_except, chainOf_mapLinks]
      rfl

/-- **A blanked condition compiles as the condition does**, up to the values of parameters. -/
theorem links_blank : (entries : List Entry) → (scope : Scope) → scope.parameterize = true →
    (current : Option Connector) →
    scope.links current (scope.blank entries)
      = (scope.links current entries).map (Term.mapLinks Slot.blank)
  | [], _, _, _ => rfl
  | .connector c :: entries, scope, hscope, _ => links_blank entries scope hscope (some c)
  | .clause key op operand :: entries, scope, hscope, current => by
      rw [blank, links_clause, links_clause, clause_blank operand scope hscope,
        links_blank entries scope hscope]
      simp only [bind_map_except, map_bind_except, attach_map]
      rfl
  | .group inner :: entries, scope, hscope, current => by
      rw [blank, links_group, links_group, links_blank inner scope.grouped hscope,
        links_blank entries scope hscope]
      simp only [bind_map_except, map_bind_except, chainOf_mapLinks, attach_map]
      rfl

end

/-! ## What is bound -/

/-- The parameters of links, in order. -/
def slots (links : List (Connector × Term Slot)) : List Slot :=
  (Term.linkComparisons links).flatMap Comparison.slots

/-- The parameters of a term that may be missing. -/
def slotsOf (term : Option (Term Slot)) : List Slot :=
  match term with
  | none => []
  | some term => term.comparisons.flatMap Comparison.slots

lemma slots_attach (c : Connector) (term : Option (Term Slot))
    (links : List (Connector × Term Slot)) :
    slots (attach c term links) = slotsOf term ++ slots links := by
  cases term with
  | none => rfl
  | some term => rw [attach_some, slots, Term.linkComparisons, List.flatMap_append]; rfl

lemma slotsOf_chainOf (links : List (Connector × Term Slot)) :
    slotsOf (chainOf links) = slots links := by
  cases links <;> rfl

lemma slotsOf_test (c : Comparison Slot) : slotsOf (some (.test c)) = c.slots := by
  rw [slotsOf, Term.comparisons, List.flatMap_singleton]

lemma alternative_secrets_single (hscope : scope.parameterize = true) {v : Value}
    (hv : ∀ items, v ≠ .arr items) {op : Operator} {key : String} {term : Option (Term Slot)}
    (h : scope.alternative op key v = .ok term) :
    (slotsOf term).map Slot.value = v.scalarSecrets.map Value.normalized := by
  obtain ⟨c, hc, rfl⟩ := (alternative_single_eq_ok hv).mp h
  rw [slotsOf_test, slots_of_compareValue hscope hc]

mutual

/-- The parameters of an alternative are its secrets. -/
lemma alternative_secrets (hscope : scope.parameterize = true) : (v : Value) →
    ∀ (op : Operator) (key : String) (term : Option (Term Slot)),
    scope.alternative op key v = .ok term →
    (slotsOf term).map Slot.value = v.secrets.map Value.normalized
  | .arr items => by
      intro op key term h
      obtain ⟨links, hlinks, rfl⟩ := alternative_list_eq_ok.mp h
      rw [slotsOf_chainOf, Value.secrets]
      exact alternatives_secrets hscope items op _ links hlinks
  | .null => fun _ _ _ h => alternative_secrets_single hscope (by simp) h
  | .bool _ => fun _ _ _ h => alternative_secrets_single hscope (by simp) h
  | .num _ => fun _ _ _ h => alternative_secrets_single hscope (by simp) h
  | .str _ => fun _ _ _ h => alternative_secrets_single hscope (by simp) h
  | .obj _ => fun _ _ _ h => alternative_secrets_single hscope (by simp) h

lemma alternatives_secrets (hscope : scope.parameterize = true) : (items : List Value) →
    (op : Operator) → (key : String) → (links : List (Connector × Term Slot)) →
    scope.alternatives op key items = .ok links →
    (slots links).map Slot.value = (Value.secretsOfItems items).map Value.normalized
  | [], _, _, links, h => by
      cases h
      rfl
  | v :: items, op, key, links, h => by
      obtain ⟨term, hterm, rest, hrest, rfl⟩ := alternatives_cons_eq_ok.mp h
      rw [slots_attach, Value.secretsOfItems, List.map_append,
        List.map_append, alternative_secrets hscope v op key term hterm,
        alternatives_secrets hscope items op key rest hrest]

end

mutual

lemma clause_secrets : (operand : Operand) → (scope : Scope) → scope.parameterize = true →
    (key : String) → (op : Option Operator) → (term : Option (Term Slot)) →
    scope.clause key op operand = .ok term →
    (slotsOf term).map Slot.value = (scope.secretsOf key op operand).map Value.normalized
  | .scalar v, scope, hscope, key, op, term, h => by
      obtain ⟨c, hc, rfl⟩ := clause_scalar_eq_ok.mp h
      rw [slotsOf_test, slots_of_compareValue hscope hc, secretsOf]
  | .column other, scope, _, key, op, term, h => by
      obtain ⟨c, hc, rfl⟩ := clause_column_eq_ok.mp h
      rw [slotsOf_test, slots_of_compareColumn hc, secretsOf]
      rfl
  | .list items, scope, hscope, key, op, term, h => by
      rw [secretsOf]
      rcases clause_list_eq_ok.mp h with ⟨hin, c, hc, rfl⟩ | ⟨hin, links, hlinks, rfl⟩
      · rw [slotsOf_test, slots_of_compareList hc, if_pos hin]
        rfl
      · have hgrouped : scope.grouped.parameterize = true := hscope
        rw [slotsOf_chainOf, if_neg (by simp [hin])]
        exact alternatives_secrets hgrouped items _ _ links hlinks
  | .nested entries, scope, hscope, key, op, term, h => by
      have hinside : (scope.inside key op).parameterize = true := by
        rw [parameterize_inside, hscope]
      obtain ⟨-, -, links, hlinks, rfl⟩ := clause_nested_eq_ok.mp h
      rw [slotsOf_chainOf, secretsOf]
      exact links_secrets entries _ hinside none links hlinks

/-- **The parameters of a condition are its secrets**, in order. -/
theorem links_secrets : (entries : List Entry) → (scope : Scope) → scope.parameterize = true →
    (current : Option Connector) → (links : List (Connector × Term Slot)) →
    scope.links current entries = .ok links →
    (slots links).map Slot.value = (scope.secrets entries).map Value.normalized
  | [], _, _, _, links, h => by
      cases h
      rfl
  | .connector c :: entries, scope, hscope, _, links, h =>
      links_secrets entries scope hscope (some c) links h
  | .clause key op operand :: entries, scope, hscope, current, links, h => by
      obtain ⟨term, hterm, rest, hrest, rfl⟩ := links_clause_eq_ok.mp h
      rw [slots_attach, secrets, List.map_append, List.map_append,
        clause_secrets operand scope hscope key op term hterm,
        links_secrets entries scope hscope current rest hrest]
  | .group inner :: entries, scope, hscope, current, links, h => by
      obtain ⟨own, hown, rest, hrest, rfl⟩ := links_group_eq_ok.mp h
      rw [slots_attach, slotsOf_chainOf, secrets, List.map_append,
        List.map_append, links_secrets inner scope.grouped hscope none own hown,
        links_secrets entries scope hscope current rest hrest]

end

end Scope

/-! ## Two runs -/

namespace Conditions

variable {c : Conditions} {dialect : Dialect} {scope : Scope} {start : Bindings}

/-- A condition and itself blanked are written alike. -/
lemma predicate_blank (hscope : scope.parameterize = true) :
    Conditions.predicate ⟨scope.blank c.entries⟩ scope
      = (c.predicate scope).map (Predicate.map Slot.blank) := by
  rw [predicate, predicate, Scope.links_blank c.entries scope hscope none]
  cases scope.links none c.entries <;> rfl

/-- **Values do not reach the text.**  Two conditions that are alike once they are blanked fail with
the same error, or compile to the same text with the same names; bound are the values of each, with
`1` and `0` for the truth values. -/
theorem compile_of_blank_eq {a b : Conditions} (hscope : scope.parameterize = true)
    (hsame : scope.blank a.entries = scope.blank b.entries) (dialect : Dialect)
    (start : Bindings) :
    (∃ e, a.compile dialect scope start = .error e ∧ b.compile dialect scope start = .error e)
    ∨ ∃ sql boundA boundB, a.compile dialect scope start = .ok (sql, boundA)
      ∧ b.compile dialect scope start = .ok (sql, boundB)
      ∧ boundA.names = boundB.names
      ∧ boundA.values = start.values ++ (scope.secrets a.entries).map Value.normalized
      ∧ boundB.values = start.values ++ (scope.secrets b.entries).map Value.normalized := by
  have hblank : (a.predicate scope).map (Predicate.map Slot.blank)
      = (b.predicate scope).map (Predicate.map Slot.blank) := by
    rw [← predicate_blank hscope, hsame, predicate_blank hscope]
  have hvalues : ∀ {c : Conditions} {p : Predicate Slot}, c.predicate scope = .ok p →
      (p.bind start).2.values
        = start.values ++ (scope.secrets c.entries).map Value.normalized := by
    intro c p hp
    rw [p.values_bind start, ← Scope.links_secrets c.entries scope hscope none p.links
      (predicate_eq_ok.mp hp)]
    rfl
  rcases error_or_ok_of_map_eq hblank with ⟨e, ha, hb⟩ | ⟨p, q, ha, hb, hmap⟩
  · refine Or.inl ⟨e, ?_, ?_⟩
    · rw [compile, ha]
      rfl
    · rw [compile, hb]
      rfl
  · -- names depend on bases only, and those are left by blanking
    have hbase : ∀ slot : Slot, slot.blank.base = slot.base := fun _ => rfl
    have hstart : start.names = start.names := rfl
    obtain ⟨htextp, hnamesp⟩ := p.bind_map hbase hstart
    obtain ⟨htextq, hnamesq⟩ := q.bind_map hbase hstart
    rw [hmap] at htextp hnamesp
    have htext : q.write dialect start = ((p.bind start).1.text dialect, (q.bind start).2) := by
      rw [Predicate.write, ← htextp, htextq]
    exact Or.inr ⟨(p.bind start).1.text dialect, (p.bind start).2, (q.bind start).2,
      compile_eq_ok.mpr ⟨p, ha, rfl⟩, compile_eq_ok.mpr ⟨q, hb, htext⟩, hnamesp.symm.trans hnamesq,
      hvalues ha, hvalues hb⟩

/-- A name with a quote in it and a number are bound to the same text, and so are alternatives. -/
theorem compile_of_blank_eq_alternatives :
    let a := (empty.eq "name" (.scalar (.str "x\x27 OR 1"))).compare "tag" .like
      (.list [.str "a", .null, .arr [.bool true]])
    let b := (empty.eq "name" (.scalar (.ofNat 7))).compare "tag" .like
      (.list [.ofNat 8, .null, .arr [.str "b"]])
    ∃ sql boundA boundB, a.compile .mysql {} .empty = .ok (sql, boundA)
      ∧ b.compile .mysql {} .empty = .ok (sql, boundB)
      ∧ boundA.names = boundB.names
      ∧ boundA.values = [.str "x\x27 OR 1", .str "a", .ofNat 1]
      ∧ boundB.values = [.ofNat 7, .ofNat 8, .str "b"] := by
  intro a b
  have hsame : Scope.blank {} a.entries = Scope.blank {} b.entries := rfl
  rcases compile_of_blank_eq rfl hsame .mysql .empty with ⟨e, ha, -⟩ | h
  · cases ha
  · exact h

end Conditions

end RelQuery
