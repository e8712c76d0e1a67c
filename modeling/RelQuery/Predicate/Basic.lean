import RelQuery.Bindings.Basic
import RelQuery.Condition.Operator
import RelQuery.Identifier

/-!
# Predicates

A predicate is a condition whose columns have been found: what stands after `WHERE` or `ON`, before
it is text.  Its parameters are of a type of their own, because a predicate is built with values
still in it and written with names in their place.

* `Comparison` is one test, `Term` a test or a parenthesized chain, `Predicate` a chain.
* `Slot` is a parameter without a name yet; `Predicate.bind` names the slots of a predicate from
  left to right.
* `Mark` is a word of the written form.  `Predicate.marks` lists them and `Predicate.text` puts them
  together: a chain is in parentheses exactly where it has more than one link and is not outermost.
-/

namespace RelQuery

/-! ## The type -/

/-- Something that a column is compared with. -/
inductive Atom (ρ : Type) where
  | column (c : Identifier)
  | literal (v : Value)
  | param (slot : ρ)

/-- The right-hand side of a comparison: one atom, or a list in parentheses. -/
inductive Side (ρ : Type) where
  | one (a : Atom ρ)
  | many (items : List (Atom ρ))

/-- A comparison of a column. -/
structure Comparison (ρ : Type) where
  column : Identifier
  op : Operator
  side : Side ρ

/-- A comparison, or a chain of terms that counts as one. -/
inductive Term (ρ : Type) where
  | test (c : Comparison ρ)
  | chain (links : List (Connector × Term ρ))

/-- A chain of terms, each with the connector that joins it to what stands before it.  Of the
first connector only the negation counts. -/
structure Predicate (ρ : Type) where
  links : List (Connector × Term ρ)

/-- A parameter that has no name yet: its value, and the base of the name it will get. -/
structure Slot where
  base : String
  value : Value

/-- Whether a predicate restricts nothing. -/
def Predicate.isEmpty {ρ : Type} (p : Predicate ρ) : Bool := p.links.isEmpty

/-! ## Naming the parameters -/

def Slot.bind (slot : Slot) : StateM Bindings String := fun bindings =>
  bindings.bind slot.base slot.value

def Atom.bind : Atom Slot → StateM Bindings (Atom String)
  | column c => return column c
  | literal v => return literal v
  | param slot => return param (← slot.bind)

/-- Name the slots of a right-hand side. -/
def Side.bind : Side Slot → StateM Bindings (Side String)
  | one a => return one (← a.bind)
  | many items => return many (← items.mapM Atom.bind)

def Comparison.bind (c : Comparison Slot) : StateM Bindings (Comparison String) :=
  return ⟨c.column, c.op, ← c.side.bind⟩

mutual

def Term.bind : Term Slot → StateM Bindings (Term String)
  | .test c => return .test (← c.bind)
  | .chain links => return .chain (← bindLinks links)

/-- Name the slots of the links of a chain, in order. -/
def Term.bindLinks : List (Connector × Term Slot) → StateM Bindings (List (Connector × Term String))
  | [] => return []
  | (connector, term) :: links => do
    let term ← term.bind
    return (connector, term) :: (← bindLinks links)

end

def Predicate.bind (p : Predicate Slot) : StateM Bindings (Predicate String) :=
  return ⟨← Term.bindLinks p.links⟩

/-! ## Writing -/

/-- A word of the written form. -/
inductive Mark where
  | opening
  | closing
  | and
  | or
  | not
  | test (c : Comparison String)

/-- The words that join a term to what stands before it. -/
def Connector.marks (connector : Connector) (first : Bool) : List Mark :=
  (if first then [] else if connector.isOr then [.or] else [.and]) ++
    (if connector.negates then [.not] else [])

mutual

def Term.marks : Term String → List Mark
  | .test c => [.test c]
  | .chain links =>
    if links.length > 1 then .opening :: (linkMarks true links ++ [.closing])
    else linkMarks true links

/-- The words of the links of a chain; `first` says that nothing stands before them. -/
def Term.linkMarks (first : Bool) : List (Connector × Term String) → List Mark
  | [] => []
  | (connector, term) :: links =>
    connector.marks first ++ term.marks ++ linkMarks false links

end

def Predicate.marks (p : Predicate String) : List Mark := Term.linkMarks true p.links

def Atom.text (dialect : Dialect) : Atom String → String
  | column c => c.text dialect
  | literal v => dialect.literal v
  | param name => ":" ++ name

def Side.text (dialect : Dialect) : Side String → String
  | one a => a.text dialect
  | many items => "(" ++ ", ".intercalate (items.map (Atom.text dialect)) ++ ")"

def Comparison.text (dialect : Dialect) (c : Comparison String) : String :=
  c.column.text dialect ++ " " ++ c.op.sql ++ " " ++ c.side.text dialect

def Mark.text (dialect : Dialect) : Mark → String
  | opening => "("
  | closing => ")"
  | and => "AND"
  | or => "OR"
  | not => "NOT"
  | test c => c.text dialect

/-- What stands between two words: a space, except inside of a parenthesis. -/
def Mark.gap : Mark → Mark → String
  | opening, _ => ""
  | _, closing => ""
  | _, _ => " "

def Mark.spell (dialect : Dialect) : List Mark → String
  | [] => ""
  | [mark] => mark.text dialect
  | mark :: next :: rest => mark.text dialect ++ gap mark next ++ spell dialect (next :: rest)

def Predicate.text (dialect : Dialect) (p : Predicate String) : String :=
  Mark.spell dialect p.marks

end RelQuery
