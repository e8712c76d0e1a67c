import RelQuery.Value.Basic

/-!
# Named parameters

The values of a statement do not stand in its text.  Each is bound to a name, the text refers to it
as `:name`, and the driver gets both.

* `Bindings` is the list of bound values, in the order of binding.
* `Bindings.bind` chooses a name: the sanitized base, or the base with the first free number.
-/

namespace RelQuery

/-- The parameters of a statement, in the order of binding. -/
structure Bindings where
  params : List (String × Value)
  deriving Inhabited

namespace Bindings

def empty : Bindings := ⟨[]⟩

/-- The names in use, in the order of binding. -/
def names (bindings : Bindings) : List String := bindings.params.map Prod.fst

/-- The bound values, in the order of binding. -/
def values (bindings : Bindings) : List Value := bindings.params.map Prod.snd

def contains (bindings : Bindings) (name : String) : Bool := bindings.names.contains name

def get? (bindings : Bindings) (name : String) : Option Value := bindings.params.lookup name

def size (bindings : Bindings) : Nat := bindings.params.length

/-! ## Names -/

/-- Whether a character may stand in the name of a parameter. -/
def isNameChar (c : Char) : Bool := c.isAlphanum || c = '_'

/-- Whether a character may begin the name of a parameter. -/
def isNameStart (c : Char) : Bool := c.isAlpha || c = '_'

/-- A base as a name: other characters become underscores, and a `p` goes before a digit in front
and stands for an empty base. -/
def sanitize (base : String) : String :=
  let cs := base.toList.map fun c => if isNameChar c then c else '_'
  match cs with
  | [] => "p"
  | c :: _ => if c.isDigit then String.ofList ('p' :: cs) else String.ofList cs

/-- The `n`-th name tried for a base: the base itself, then the base with a number from two on. -/
def candidate (base : String) (n : Nat) : String :=
  if n ≤ 1 then base else base ++ "_" ++ toString n

/-- The first candidate from the `n`-th on that is not taken, looking at no more than `tries`
taken ones.  With as many tries as there are names taken, one of the candidates is free. -/
def firstFree (taken : List String) (base : String) (n : Nat) : Nat → String
  | 0 => candidate base n
  | tries + 1 =>
    if taken.contains (candidate base n) then firstFree taken base (n + 1) tries
    else candidate base n

/-- The name that a value with this base gets. -/
def freshName (bindings : Bindings) (base : String) : String :=
  firstFree bindings.names (sanitize base) 1 bindings.size

/-- Bind a value under a name made from `base`; the name and the new bindings. -/
def bind (bindings : Bindings) (base : String) (value : Value) : String × Bindings :=
  let name := bindings.freshName base
  (name, ⟨bindings.params ++ [(name, value)]⟩)

/-! ## Small facts -/

@[simp] theorem params_bind (bindings : Bindings) (base : String) (value : Value) :
    (bindings.bind base value).2.params =
      bindings.params ++ [((bindings.bind base value).1, value)] := rfl

@[simp] theorem values_bind (bindings : Bindings) (base : String) (value : Value) :
    (bindings.bind base value).2.values = bindings.values ++ [value] := by
  simp [values]

end Bindings

end RelQuery
