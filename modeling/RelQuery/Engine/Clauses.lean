import RelQuery.Engine.Basic

/-!
# Building statements

The calls that open a statement, and the calls that add to it.  Opening cannot fail; a clause fails
on a statement that it is not for, and on clauses that contradict the ones that are there.
-/

namespace RelQuery.Engine

variable {σ : Type}

/-! ## Opening -/

def find (table : TableRef) : Run σ Unit := begin (.ofTable .select table)

/-- Open a select of some fields; its table follows. -/
def select (fields : List Field) : Run σ Unit := begin { activity := .select, fields }

/-- Give the select under construction its table, or open one if there is none that lacks it. -/
def fromTable (table : TableRef) : Run σ Unit := do
  match (← get).statements.active with
  | some statement =>
    if statement.activity = .select ∧ statement.table = none then
      restack (·.replace { statement with table := some table })
    else find table
  | none => find table

def insert (table : TableRef) : Run σ Unit := begin (.ofTable .insert table)

def update (table : TableRef) : Run σ Unit := begin (.ofTable .update table)

def delete (table : TableRef) : Run σ Unit := begin (.ofTable .delete table)

/-! ## Clauses -/

/-- Add fields.  On a write they restrict which values are written. -/
def fields (fields : List Field) : Run σ Unit :=
  clause .fields fun statement => .ok { statement with fields := statement.fields ++ fields }

def filter (conditions : Conditions) : Run σ Unit :=
  clause .filter fun statement => .ok (statement.restrict conditions)

def order (spec : String) : Run σ Unit :=
  clause .order fun statement => (OrderTerm.parseList spec).map statement.addOrder

def orderTerm (term : OrderTerm) : Run σ Unit :=
  clause .order fun statement => .ok (statement.addOrder [term])

def limit (limit : Limit) : Run σ Unit :=
  clause .limit fun statement => .ok { statement with limit := some limit }

def join (joins : List Join) : Run σ Unit :=
  clause .join fun statement => statement.addJoins joins

def contain (relation : Relation) : Run σ Unit :=
  clause .contain fun statement => statement.addRelation relation

def set (data : Value) : Run σ Unit :=
  clause .set fun statement => statement.addValues "set" data

def values (data : Value) : Run σ Unit :=
  clause .values fun statement => statement.addValues "values" data

/-- Choose the shape that the rows are wanted in. -/
def shape (shaping : Shaping) : Run σ Unit :=
  clause .shape fun statement => .ok { statement with shaping := some shaping }

end RelQuery.Engine
