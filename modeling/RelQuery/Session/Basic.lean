import RelQuery.Session.Log
import RelQuery.Value.Row

/-!
# Sessions

A session is the part of the world that running statements changes: the state of the connection, the
log, and the events that were emitted.  It outlives every error.

* `Driver` is a database connection, as functions on a state of its own choice.
* `Context` is what stays the same for a session: the driver, the naming convention, the settings.
* `Session.Run` is a computation in a session that can fail.
* `Context.fetch`, `Context.execute` and `Context.columns` call the driver; a refusal is announced
  and becomes an error that names the statement.
-/

namespace RelQuery

/-- The outcome of a write. -/
structure Execution where
  affected : Nat
  /-- The generated key, if the driver reports one. -/
  lastInsertId : Option Int := none
  deriving DecidableEq, Repr, Inhabited

/-- A database connection with states `σ`. -/
structure Driver (σ : Type) where
  dialect : Dialect
  fetch : String → Bindings → σ → Except DriverFailure (List Row) × σ
  execute : String → Bindings → σ → Except DriverFailure Execution × σ
  /-- The columns of a table, in order. -/
  columns : String → σ → Except DriverFailure (List String) × σ

/-- What stays the same for a session. -/
structure Context (σ : Type) where
  driver : Driver σ
  naming : Naming
  config : Config

/-- What running statements changes. -/
structure Session (σ : Type) where
  connection : σ
  log : Log := .empty
  /-- The events so far, newest first. -/
  events : List Event := []

abbrev Session.Run (σ α : Type) := ExceptT Error (StateM (Session σ)) α

variable {σ α : Type}

def Session.emit (event : Event) : Session.Run σ Unit :=
  modify fun session => { session with events := event :: session.events }

def Session.ofExcept (result : Except Error α) : Session.Run σ α :=
  match result with
  | .ok a => pure a
  | .error e => throw e

namespace Context

/-- The settings and the naming convention that a driver gets with a configuration. -/
def ofConfig (driver : Driver σ) (config : Config) : Context σ :=
  ⟨driver, .english config.referenceSuffix, config⟩

/-- The dialect that statements are written in. -/
def dialect (ctx : Context σ) : Dialect := ctx.config.dialect.getD ctx.driver.dialect

/-- Call the driver.  A refusal is announced and becomes an error about `sql`. -/
def call (sql : String) (bindings : Bindings) (request : σ → Except DriverFailure α × σ) :
    Session.Run σ α := do
  let session ← get
  let (reply, connection) := request session.connection
  set { session with connection }
  match reply with
  | .ok a => return a
  | .error failure =>
    Session.emit (.driverFailure failure sql)
    throw (.driver failure sql bindings)

def fetch (ctx : Context σ) (prepared : Prepared) : Session.Run σ (List Row) :=
  call prepared.sql prepared.bindings (ctx.driver.fetch prepared.sql prepared.bindings)

def execute (ctx : Context σ) (prepared : Prepared) : Session.Run σ Execution :=
  call prepared.sql prepared.bindings (ctx.driver.execute prepared.sql prepared.bindings)

def columns (ctx : Context σ) (table : String) : Session.Run σ (List String) :=
  call ("-- columns of " ++ table) .empty (ctx.driver.columns table)

def record (ctx : Context σ) (prepared : Prepared) : Session.Run σ Unit := do
  Session.emit (Log.announcement ctx.config prepared)
  modify fun session => { session with log := session.log.record ctx.config prepared }

end Context

end RelQuery
