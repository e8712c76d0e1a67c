import RelQuery.Proofs.Session.Failures
import RelQuery.Query.Select

/-!
# Why a select cannot be written

A select that has been put together is read once more before it is written: its names, the keys of
its conditions, and whether it has a table at all.

* `Error.InSelect` are the causes for which this fails.
* **`Conditions.failsOnly_predicate`** — a condition has no others.
* **`Statement.failsOnly_selectQuery`** — nor has a select.
-/

namespace RelQuery

/-- A cause for which a select cannot be written. -/
inductive Error.InSelect : Error → Prop
  | noTable (activity : Activity) : InSelect (.configuration (.noTable activity))
  | emptyIdentifier : InSelect (.configuration .emptyIdentifier)
  | identifier (fault : PartFault) (name : String) :
      InSelect (.configuration (.identifier fault name))
  | nestedOperator (field : String) : InSelect (.configuration (.nestedOperator field))
  | joinWithoutCondition (aliasName : String) :
      InSelect (.configuration (.joinWithoutCondition aliasName))

/-! ## Names -/

lemma Identifier.failsOnly_parse (s : String) : FailsOnly Error.InSelect (parse s) := by
  rw [parse]
  split
  · exact .error .emptyIdentifier
  · dsimp only
    split
    · exact .error (.identifier _ _)
    · exact .ok _

lemma Identifier.failsOnly_column (table : Option String) (name : String) :
    FailsOnly Error.InSelect (column table name) := by
  cases table with
  | none => exact failsOnly_parse name
  | some table => exact failsOnly_parse (table ++ "." ++ name)

/-- An optional name is read like any other. -/
lemma Identifier.failsOnly_mapM_parse (name : Option String) :
    FailsOnly Error.InSelect (name.mapM parse) := by
  cases name with
  | none => exact .ok none
  | some name =>
      rw [Option.mapM_some]
      exact (failsOnly_parse name).map some

/-! ## Conditions -/

namespace Scope

variable (scope : Scope)

lemma failsOnly_columnOf (field : String) : FailsOnly Error.InSelect (scope.columnOf field) := by
  rw [columnOf]
  split
  · exact Identifier.failsOnly_parse field
  · exact Identifier.failsOnly_column _ _

lemma failsOnly_atomOf (field : String) (v : Value) :
    FailsOnly Error.InSelect (scope.atomOf field v) := by
  unfold atomOf
  split
  · exact .ok _
  · split
    · exact (Identifier.failsOnly_parse _).map _
    · exact .ok _

lemma failsOnly_compareValue (field : String) (op : Operator) (v : Value) :
    FailsOnly Error.InSelect (scope.compareValue field op v) := by
  refine (scope.failsOnly_columnOf field).bind fun column => ?_
  split
  · exact .ok _
  · exact (scope.failsOnly_atomOf field v).bind fun atom => .ok _

lemma failsOnly_compareColumn (field : String) (op : Operator) (other : String) :
    FailsOnly Error.InSelect (scope.compareColumn field op other) :=
  (scope.failsOnly_columnOf field).bind fun _ =>
    (Identifier.failsOnly_parse other).bind fun _ => .ok _

lemma failsOnly_compareList (field : String) (items : List Value) :
    FailsOnly Error.InSelect (scope.compareList field items) :=
  (scope.failsOnly_columnOf field).bind fun _ => .ok _

lemma failsOnly_checkNested (key : String) (op : Option Operator) :
    FailsOnly Error.InSelect (scope.checkNested key op) := by
  rw [checkNested]
  split
  · exact .error (.nestedOperator _)
  · exact .ok ()

variable {scope}

lemma failsOnly_alternative_single {v : Value} (h : ∀ items, v ≠ .arr items) (op : Operator)
    (key : String) : FailsOnly Error.InSelect (scope.alternative op key v) := by
  rw [alternative_single h]
  exact (scope.failsOnly_compareValue _ _ _).bind fun _ => .ok _

mutual

lemma failsOnly_alternative : (v : Value) → (op : Operator) → (key : String) →
    FailsOnly Error.InSelect (scope.alternative op key v)
  | .arr items, op, key => (failsOnly_alternatives items op _).bind fun _ => .ok _
  | .null, _, _ => failsOnly_alternative_single (by simp) _ _
  | .bool _, _, _ => failsOnly_alternative_single (by simp) _ _
  | .num _, _, _ => failsOnly_alternative_single (by simp) _ _
  | .str _, _, _ => failsOnly_alternative_single (by simp) _ _
  | .obj _, _, _ => failsOnly_alternative_single (by simp) _ _

lemma failsOnly_alternatives : (items : List Value) → (op : Operator) → (key : String) →
    FailsOnly Error.InSelect (scope.alternatives op key items)
  | [], _, _ => .ok []
  | v :: items, op, key => by
      rw [alternatives_cons]
      exact (failsOnly_alternative v op key).bind fun _ =>
        (failsOnly_alternatives items op key).bind fun _ => .ok _

end

mutual

lemma failsOnly_clause : (operand : Operand) → (scope : Scope) → (key : String) →
    (op : Option Operator) → FailsOnly Error.InSelect (scope.clause key op operand)
  | .scalar v, scope, key, op => by
      rw [clause_scalar]
      exact (scope.failsOnly_compareValue _ _ _).bind fun _ => .ok _
  | .column other, scope, key, op => by
      rw [clause_column]
      exact (scope.failsOnly_compareColumn _ _ _).bind fun _ => .ok _
  | .list items, scope, key, op => by
      rw [clause_list]
      split
      · exact (scope.failsOnly_compareList _ _).bind fun _ => .ok _
      · exact (failsOnly_alternatives items _ _).bind fun _ => .ok _
  | .nested entries, scope, key, op => by
      rw [clause_nested]
      exact (scope.failsOnly_checkNested key op).bind fun _ =>
        (failsOnly_links entries _ none).bind fun _ => .ok _

lemma failsOnly_links : (entries : List Entry) → (scope : Scope) →
    (current : Option Connector) → FailsOnly Error.InSelect (scope.links current entries)
  | [], _, _ => .ok []
  | .connector c :: entries, scope, _ => failsOnly_links entries scope (some c)
  | .clause key op operand :: entries, scope, current => by
      rw [links_clause]
      exact (failsOnly_clause operand scope key op).bind fun _ =>
        (failsOnly_links entries scope current).bind fun _ => .ok _
  | .group inner :: entries, scope, current => by
      rw [links_group]
      exact (failsOnly_links inner scope.grouped none).bind fun _ =>
        (failsOnly_links entries scope current).bind fun _ => .ok _

end

end Scope

/-- **A condition cannot be read for a name or for the key of a nested condition**, and for nothing
else. -/
theorem Conditions.failsOnly_predicate (c : Conditions) (scope : Scope) :
    FailsOnly Error.InSelect (c.predicate scope) :=
  (Scope.failsOnly_links c.entries scope none).map _

/-! ## Selects -/

lemma Join.failsOnly_item (joined : List String) (join : Join) :
    FailsOnly Error.InSelect (join.item joined) := by
  rw [item]
  split
  · exact .error (.joinWithoutCondition _)
  · refine (join.on.failsOnly_predicate _).bind fun on =>
      (Identifier.failsOnly_parse join.table).bind fun table => ?_
    split
    · exact .ok _
    · exact (Identifier.failsOnly_parse join.aliasName).bind fun aliasName => .ok _

lemma Field.failsOnly_item (frame : Frame) (field : Field) :
    FailsOnly Error.InSelect (field.item frame) := by
  have halias (selected : Selected) : FailsOnly Error.InSelect
      (do return SelectItem.mk selected (← field.aliasName.mapM Identifier.parse)) :=
    (Identifier.failsOnly_mapM_parse field.aliasName).bind fun aliasName => .ok _
  rw [item]
  split
  · exact halias _
  · exact ((Identifier.failsOnly_parse _).map Selected.column).bind halias
  · exact ((Identifier.failsOnly_column _ _).map Selected.column).bind halias

namespace Statement

variable (statement : Statement)

lemma failsOnly_mainTable : FailsOnly Error.InSelect statement.mainTable := by
  rw [mainTable]
  split
  · exact .ok _
  · exact .error (.noTable _)

lemma failsOnly_source (frame : Frame) : FailsOnly Error.InSelect (statement.source frame) :=
  statement.failsOnly_mainTable.bind fun table =>
    (Identifier.failsOnly_parse table.name).bind fun _ =>
      (Identifier.failsOnly_mapM_parse table.aliasName).bind fun _ =>
        (FailsOnly.mapM fun join _ => join.failsOnly_item frame.joined).bind fun _ =>
          (statement.conditions.failsOnly_predicate _).bind fun _ => .ok _

lemma failsOnly_orderItem (frame : Frame) (fields : List Field) (term : OrderTerm) :
    FailsOnly Error.InSelect (orderItem frame fields term) := by
  rw [orderItem]
  split
  · exact (Identifier.failsOnly_parse _).bind fun column => .ok _
  · exact (Identifier.failsOnly_column _ _).bind fun column => .ok _

/-- **A select cannot be written for one of these causes**, and for nothing else. -/
theorem failsOnly_selectQuery (plan : Plan) :
    FailsOnly Error.InSelect (statement.selectQuery plan) := by
  have hframe : FailsOnly Error.InSelect (statement.frame plan) :=
    statement.failsOnly_mainTable.bind fun _ => .ok _
  refine hframe.bind fun frame => (FailsOnly.mapM fun field _ => field.failsOnly_item frame).bind
    fun items => (statement.failsOnly_source frame).bind fun source => ?_
  exact (FailsOnly.mapM fun term _ => failsOnly_orderItem frame _ term).bind fun order => .ok _

end Statement

end RelQuery
