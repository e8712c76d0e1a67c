import RelQuery.Plan.Loading

/-!
# Reading result sets

Every look at the rows of a result set goes through `ResultSet.look`: it fetches the rows unless
they are there, keeps them if that succeeds, and only then lets the look happen.  A look that fails
leaves the rows where they are; a fetch that fails leaves the result set as it was.
-/

namespace RelQuery.ResultSet

variable {σ α : Type}

/-- What a look changes: the session, and the result set that is looked at. -/
abbrev Look (σ α : Type) := Session σ → (Except Error α × ResultSet) × Session σ

def look (ctx : Context σ) (result : ResultSet) (view : List Row → Except Error α) : Look σ α :=
  fun session =>
    match result.rows with
    | some rows => ((view rows, result), session)
    | none =>
      match (result.materialize ctx).run session with
      | (.ok rows, session) => ((view rows, result.setRows rows), session)
      | (.error e, session) => ((.error e, result), session)

/-! ## Looks -/

def allRows (ctx : Context σ) (result : ResultSet) : Look σ (List Row) :=
  result.look ctx .ok

def get (ctx : Context σ) (result : ResultSet) (index : Nat) : Look σ (Option Row) :=
  result.look ctx fun rows => .ok rows[index]?

def firstRow (ctx : Context σ) (result : ResultSet) : Look σ (Option Row) :=
  result.get ctx 0

def size (ctx : Context σ) (result : ResultSet) : Look σ Nat :=
  result.look ctx fun rows => .ok rows.length

def isEmpty (ctx : Context σ) (result : ResultSet) : Look σ Bool :=
  result.look ctx fun rows => .ok rows.isEmpty

def column (ctx : Context σ) (result : ResultSet) (field : String) : Look σ (List Value) :=
  result.look ctx fun rows => .ok (Rows.column rows field)

/-- An object from keys to the joined texts of some columns. -/
def combine (ctx : Context σ) (result : ResultSet) (values : List String) (key glue : String) :
    Look σ Row :=
  result.look ctx fun rows => Rows.combine rows values key glue result.aliasName

def keyedBy (ctx : Context σ) (result : ResultSet) (field : String) : Look σ Row :=
  result.look ctx fun rows => Rows.keyedBy rows field result.aliasName

/-- An object from keys to lists of rows. -/
def groupedBy (ctx : Context σ) (result : ResultSet) (field : String) : Look σ Row :=
  result.look ctx fun rows => Rows.groupedBy rows field result.aliasName

/-- The rows in the shape that the statement asked for, or as a list. -/
def shaped (ctx : Context σ) (result : ResultSet) : Look σ Value :=
  result.look ctx fun rows => match result.shaping with
    | some shaping => shaping.apply rows result.aliasName
    | none => .ok (Rows.toValue rows)

/-! ## Result sets that are read once -/

/-- Look at a result set that is not needed any more. -/
def once (run : Look σ α) : Session.Run σ α := fun session =>
  let ((answer, _), session) := run session
  (answer, session)

end RelQuery.ResultSet
