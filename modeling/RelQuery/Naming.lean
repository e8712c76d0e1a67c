import RelQuery.Text.Camel

/-!
# Naming conventions

A relation that does not spell out its keys gets them from the names of the tables.  What the names
make of each other is a convention, and a relation may bring its own.

* `Naming` is a convention: how words become stems, and which keys and junction tables are inferred.
* `Naming.english` takes plurals apart by the usual endings; `Naming.verbatim` leaves words alone.
-/

namespace RelQuery

/-- The usual name of the table that links two tables: both names, the smaller one first. -/
def Naming.junctionTable (a b : String) : String :=
  if a ≤ b then a ++ "_" ++ b else b ++ "_" ++ a

/-- How the name of a table becomes the stem of a key, and what is inferred from the names of tables.
A convention may infer other names than the usual ones. -/
structure Naming where
  singularize : String → String
  camelize : String → String
  /-- What a key has after its stem. -/
  suffix : String
  /-- The key that references a table: usually the singular in camel case, then the suffix. -/
  foreignKey : String → String := fun table => camelize (singularize table) ++ suffix
  /-- The table that links two tables. -/
  junction : String → String → String := Naming.junctionTable

namespace Naming

/-! ## English plurals -/

/-- Plurals that the endings get wrong. -/
def irregular : List (String × String) :=
  [("movies", "movie"), ("cookies", "cookie"), ("series", "series"), ("people", "person"),
   ("children", "child")]

/-- Whether a word ends in `ending`, in any case of its ASCII letters. -/
def endsWith (word ending : String) : Bool :=
  ending.toList.isSuffixOf (word.toList.map Char.toLower)

/-- A word without its last `n` characters. -/
def dropEnd (word : String) (n : Nat) : String :=
  String.ofList (word.toList.take (word.length - n))

/-- The singular of an English plural.  Irregular words keep what stands before them; then the
endings are tried from the most to the least specific. -/
def singular (word : String) : String :=
  match irregular.find? fun (plural, _) => endsWith word plural with
  | some (plural, singular) => dropEnd word plural.length ++ singular
  | none =>
    if endsWith word "ies" && word.utf8ByteSize > 3 then dropEnd word 3 ++ "y"
    else if ["sses", "shes", "ches", "xes", "zes"].any (endsWith word) then dropEnd word 2
    else if ["ss", "us", "is"].any (endsWith word) then word
    else if endsWith word "s" && word.utf8ByteSize > 1 then dropEnd word 1
    else word

/-- English plurals and camel case, with a suffix. -/
def english (suffix : String) : Naming where
  singularize := singular
  camelize := Text.lowerCamel
  suffix

/-- Words as they are, with a suffix. -/
def verbatim (suffix : String) : Naming where
  singularize := id
  camelize := id
  suffix

/-- The suffix that keys have unless another one is chosen. -/
def defaultSuffix : String := "_id"

end Naming

end RelQuery
