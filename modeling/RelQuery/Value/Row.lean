import RelQuery.Value.Basic

/-!
# Rows

A row holds one value per column, in the order in which the columns were selected.  Embedding a
relation puts an object or a list into the row under the relation's alias, so rows are also changed:
a new column goes to the end, a column that is there keeps its place, and removing one keeps the
order of the others.

* `Row` is the type; `Row.get?`, `Row.insert` and `Row.erase` are its operations.
* `Row.take?` removes a column and returns what it held.
-/

namespace RelQuery

/-- The columns of a row with their values, in order. -/
structure Row where
  entries : List (String × Value)
  deriving Inhabited

namespace Row

/-! ## Operations on entries -/

/-- The entries with `value` under `name`: in place when the name is there, else at the end. -/
def insertEntry (name : String) (value : Value) : List (String × Value) → List (String × Value)
  | [] => [(name, value)]
  | (n, v) :: rest => if n = name then (n, value) :: rest else (n, v) :: insertEntry name value rest

/-- The entries without the first one of a name. -/
def eraseEntry (name : String) : List (String × Value) → List (String × Value)
  | [] => []
  | (n, v) :: rest => if n = name then rest else (n, v) :: eraseEntry name rest

/-! ## Operations on rows -/

def empty : Row := ⟨[]⟩

/-- The value of a column, if the row has it. -/
def get? (row : Row) (name : String) : Option Value := row.entries.lookup name

/-- The row with `value` in the column `name`. -/
def insert (row : Row) (name : String) (value : Value) : Row :=
  ⟨insertEntry name value row.entries⟩

/-- The row without the column `name`. -/
def erase (row : Row) (name : String) : Row := ⟨eraseEntry name row.entries⟩

/-- The value of a column and the row without it. -/
def take? (row : Row) (name : String) : Option Value × Row := (row.get? name, row.erase name)

/-- The row with the columns of another one inserted in their order. -/
def merge (row other : Row) : Row :=
  other.entries.foldl (fun row (name, value) => row.insert name value) row

def toValue (row : Row) : Value := .obj row.entries

def text (row : Row) : String := row.toValue.text

/-- The text in a column, if it holds one. -/
def str? (row : Row) (name : String) : Option String := (row.get? name).bind Value.str?

/-! ## The view by name -/

theorem lookup_insertEntry (name other : String) (value : Value) (entries : List (String × Value)) :
    (insertEntry name value entries).lookup other =
      if other = name then some value else entries.lookup other := by
  induction entries with
  | nil =>
    by_cases h : other = name
    · simp [insertEntry, h]
    · have hb : (other == name) = false := by simpa using h
      simp [insertEntry, List.lookup_cons, hb, h]
  | cons e rest ih =>
    obtain ⟨n, v⟩ := e
    by_cases hn : n = name
    · subst hn
      by_cases h : other = n
      · simp [insertEntry, h]
      · have hb : (other == n) = false := by simpa using h
        simp [insertEntry, List.lookup_cons, hb, h]
    · by_cases h : other = n
      · subst h; simp [insertEntry, hn]
      · have hb : (other == n) = false := by simpa using h
        simp [insertEntry, hn, List.lookup_cons, hb, ih]

@[simp] theorem get?_insert (row : Row) (name other : String) (value : Value) :
    (row.insert name value).get? other = if other = name then some value else row.get? other :=
  lookup_insertEntry name other value row.entries

theorem lookup_eraseEntry_of_ne {name other : String} (h : other ≠ name)
    (entries : List (String × Value)) :
    (eraseEntry name entries).lookup other = entries.lookup other := by
  induction entries with
  | nil => rfl
  | cons e rest ih =>
    obtain ⟨n, v⟩ := e
    by_cases hn : n = name
    · subst hn
      have hb : (other == n) = false := by simpa using h
      simp [eraseEntry, List.lookup_cons, hb]
    · by_cases ho : other = n
      · subst ho; simp [eraseEntry, hn]
      · have hb : (other == n) = false := by simpa using ho
        simp [eraseEntry, hn, List.lookup_cons, hb, ih]

theorem get?_erase_of_ne {name other : String} (h : other ≠ name) (row : Row) :
    (row.erase name).get? other = row.get? other :=
  lookup_eraseEntry_of_ne h row.entries

end Row

end RelQuery
