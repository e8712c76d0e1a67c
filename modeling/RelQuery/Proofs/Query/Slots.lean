import RelQuery.Proofs.Bindings.Fresh
import RelQuery.Proofs.Predicate.Parts
import RelQuery.Query.Basic

/-!
# The parameters of a query

A query is named slot by slot, and written part by part.  Both go through it in the same order:
joins come before the filter, and the values of an update before its condition.

* `Query.slots` are the parameters of a query in the order of the text.
* `Names` says that an action gives out names in the order in which its result has them.
* **`Query.names_bind`** — the names given out are the parameters of the named query, in order.
-/

namespace RelQuery

variable {ρ : Type}

/-! ## Parameters in order -/

/-- The parameters in the condition of a join. -/
def JoinItem.slots (join : JoinItem ρ) : List ρ := join.on.slots

/-- The parameters of a source, joins first. -/
def Source.slots (source : Source ρ) : List ρ :=
  source.joins.flatMap JoinItem.slots ++ source.filter.slots

/-- The parameters of a query, in the order of the text. -/
def Query.slots : Query ρ → List ρ
  | select _ source _ _ => source.slots
  | count source => source.slots
  | insert _ values => values.map Prod.snd
  | update _ values filter => values.map Prod.snd ++ filter.slots
  | delete _ filter => filter.slots

/-! ## Actions that give out names -/

/-- An action whose result has the names `slots`, which are the ones that it gives out. -/
structure Names {α : Type} (f : StateM Bindings α) (slots : α → List String) : Prop where
  names_eq : ∀ start, (f start).2.names = start.names ++ slots (f start).1
  plain : ∀ start, ∀ name ∈ slots (f start).1, Bindings.Plain name
  nodup : ∀ start, start.names.Nodup → (f start).2.names.Nodup

namespace Names

variable {α β γ : Type} {f : StateM Bindings α} {slots : α → List String}

lemma none (a : α) (h : slots a = []) : Names (return a) slots where
  names_eq start := by
    show start.names = start.names ++ slots a
    rw [h, List.append_nil]
  plain start name hname := by
    change name ∈ slots a at hname
    rw [h] at hname
    exact absurd hname List.not_mem_nil
  nodup _ h := h

/-- A result that is put into something with no names besides. -/
lemma map (hf : Names f slots) (g : α → β) {slots' : β → List String}
    (h : ∀ a, slots' (g a) = slots a) : Names (return g (← f)) slots' where
  names_eq start := by
    show (f start).2.names = start.names ++ slots' (g (f start).1)
    rw [h]
    exact hf.names_eq start
  plain start name hname := by
    change name ∈ slots' (g (f start).1) at hname
    rw [h] at hname
    exact hf.plain start name hname
  nodup start hstart := hf.nodup start hstart

/-- One action after the other. -/
lemma both (hf : Names f slots) {f' : StateM Bindings β} {slots' : β → List String}
    (hf' : Names f' slots') (g : α → β → γ) {both : γ → List String}
    (h : ∀ a b, both (g a b) = slots a ++ slots' b) :
    Names (do let a ← f; let b ← f'; return g a b) both where
  names_eq start := by
    show (f' (f start).2).2.names = start.names ++ both (g (f start).1 (f' (f start).2).1)
    rw [h, hf'.names_eq, hf.names_eq, List.append_assoc]
  plain start name hname := by
    change name ∈ both (g (f start).1 (f' (f start).2).1) at hname
    rw [h, List.mem_append] at hname
    exact hname.elim (hf.plain start name) (hf'.plain _ name)
  nodup start hstart := hf'.nodup _ (hf.nodup start hstart)

/-- An action for every item of a list. -/
lemma mapM {f : α → StateM Bindings β} {slots : β → List String} (hf : ∀ a, Names (f a) slots)
    (items : List α) : Names (items.mapM f) (List.flatMap slots) := by
  induction items with
  | nil => exact none [] rfl
  | cons a items ih =>
      rw [List.mapM_cons]
      exact (hf a).both ih List.cons fun b bs => List.flatMap_cons

end Names

/-! ## Naming -/

lemma Slot.names_bind (slot : Slot) : Names slot.bind fun name => [name] where
  names_eq start := Bindings.names_bind start slot.base slot.value
  plain start name hname := by
    rw [List.mem_singleton.mp hname]
    exact Bindings.plain_freshName start slot.base
  nodup _ h := Bindings.nodup_names_bind h slot.base slot.value

lemma Atom.names_bind (a : Atom Slot) : Names a.bind slots := by
  cases a with
  | column c => exact .none _ rfl
  | literal v => exact .none _ rfl
  | param slot => exact slot.names_bind.map Atom.param fun _ => rfl

lemma Side.names_bind (side : Side Slot) : Names side.bind slots := by
  cases side with
  | one a => exact a.names_bind.map Side.one fun _ => rfl
  | many items => exact (Names.mapM Atom.names_bind items).map Side.many fun _ => rfl

lemma Comparison.names_bind (c : Comparison Slot) : Names c.bind slots :=
  c.side.names_bind.map (Comparison.mk c.column c.op) fun _ => rfl

lemma Predicate.names_bind (p : Predicate Slot) : Names p.bind slots := by
  have hall := Names.mapM Comparison.names_bind p.comparisons
  -- the comparisons are named one after the other, wherever they stand in the tree
  have hslots : ∀ start, (p.bind start).1.slots
      = (p.comparisons.mapM Comparison.bind start).1.flatMap Comparison.slots := by
    intro start
    rw [slots, ← congrArg Prod.fst (p.comparisons_bind start)]
  have hafter : ∀ start, (p.bind start).2 = (p.comparisons.mapM Comparison.bind start).2 :=
    fun start => congrArg Prod.snd (p.comparisons_bind start)
  constructor
  · intro start
    rw [hslots, hafter]
    exact hall.names_eq start
  · intro start
    rw [hslots]
    exact hall.plain start
  · intro start hstart
    rw [hafter]
    exact hall.nodup start hstart

lemma JoinItem.names_bind (join : JoinItem Slot) : Names join.bind slots :=
  join.on.names_bind.map (JoinItem.mk join.kind join.table join.aliasName) fun _ => rfl

lemma Source.names_bind (source : Source Slot) : Names source.bind slots :=
  (Names.mapM JoinItem.names_bind source.joins).both source.filter.names_bind
    (Source.mk source.table source.aliasName) fun _ _ => rfl

lemma Query.names_bindValues (values : List (Identifier × Slot)) :
    Names (bindValues values) (List.map Prod.snd) := by
  have hone : ∀ value : Identifier × Slot,
      Names (do return (value.1, ← value.2.bind)) fun value : Identifier × String => [value.2] :=
    fun value => value.2.names_bind.map (Prod.mk value.1) fun _ => rfl
  have hslots : (List.map Prod.snd : List (Identifier × String) → List String)
      = List.flatMap fun value => [value.2] :=
    funext fun values => List.map_eq_flatMap
  rw [hslots]
  exact Names.mapM hone values

/-- **Naming a query gives out its parameters in the order of the text**, all of them different. -/
theorem Query.names_bind (query : Query Slot) : Names query.bind slots := by
  cases query with
  | select items source order limit =>
      exact source.names_bind.map (fun source => Query.select items source order limit) fun _ => rfl
  | count source => exact source.names_bind.map Query.count fun _ => rfl
  | insert table values => exact (names_bindValues values).map (Query.insert table) fun _ => rfl
  | update table values filter =>
      exact (names_bindValues values).both filter.names_bind (Query.update table) fun _ _ => rfl
  | delete table filter => exact filter.names_bind.map (Query.delete table) fun _ => rfl

end RelQuery
