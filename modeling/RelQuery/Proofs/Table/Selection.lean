import RelQuery.Proofs.Engine.Changes
import RelQuery.Table.Fetching

/-!
# The select of a fetch

A fetch opens a select, gives it the clauses of its options and finishes it in the way of its mode.
Put together, the calls write one statement from the table, the mode and the options, and what most
modes return is made from the rows of that statement.

* `Table.selection` is the statement, `FetchMode.project` what a mode makes of its rows.
* **`Table.fetch_of_selection`** — a fetch in such a mode runs this statement and projects its rows,
  on top of whatever is under construction.
* **`Table.fetch_of_error`** — and if the statement cannot be put together, nothing is written.
-/

namespace RelQuery

open Session

variable {σ : Type}

/-! ## Finishing a select -/

namespace Engine

/-- Two steps in a session are two steps on the engine. -/
lemma inSession_bind {α β : Type} (run : Session.Run σ α) (f : α → Session.Run σ β) :
    Engine.inSession (run >>= f) = Engine.inSession run >>= fun a => Engine.inSession (f a) := by
  funext engine
  have hrun : Engine.inSession run engine
      = ((run engine.session).1, { engine with session := (run engine.session).2 }) := rfl
  rw [run_bind, hrun]
  show (((run >>= f) engine.session).1,
    { engine with session := ((run >>= f) engine.session).2 }) = _
  rw [run_bind]
  rcases run engine.session with ⟨_ | _, session⟩ <;> rfl

variable {statement : Statement}

/-- A select is finished in the session, and what is below it stays. -/
lemma all_bind {α : Type} (ctx : Context σ) (h : statement.activity = .select)
    (f : ResultSet → Engine.Run σ α) (rest : List Statement) (session : Session σ) :
    (Engine.all ctx >>= f) ⟨statement :: rest, session⟩
      = (Engine.inSession (statement.resultSet ctx) >>= f) ⟨rest, session⟩ := by
  rw [Engine.all, bind_assoc, run_bind, Traces.finish_cons, if_pos (by rw [h]; rfl)]
  rfl

/-- So is one that is finished for its first row, with a limit of one. -/
lemma first_bind {α : Type} (ctx : Context σ) (h : statement.activity = .select)
    (f : Option Row → Engine.Run σ α) (rest : List Statement) (session : Session σ) :
    (Engine.first ctx >>= f) ⟨statement :: rest, session⟩
      = (Engine.inSession (do
          let result ← Statement.resultSet ctx
            { statement with limit := some (Limit.single statement.limit) }
          return (← ResultSet.once (result.allRows ctx)).head?) >>= f) ⟨rest, session⟩ := by
  rw [Engine.first, bind_assoc, run_bind, Traces.finish_cons, if_pos (by rw [h]; rfl)]
  rfl

end Engine

/-! ## Modes -/

namespace FetchMode

/-- The columns of the main table that a mode reads from the rows. -/
def reads : FetchMode → List String
  | all | first | count => []
  | id => ["id"]
  | column field | columnUnique field | unique field => [field]
  | combine values key => values ++ [key]

/-- A mode that gives the rows another shape. -/
def Projects : FetchMode → Prop
  | all | first | count => False
  | _ => True

/-- The select as a mode finishes it: one row is enough for a single value. -/
def limited (mode : FetchMode) (statement : Statement) : Statement :=
  match mode with
  | unique _ => { statement with limit := some (Limit.single statement.limit) }
  | _ => statement

/-- What a mode makes of the rows of a select.  A mode without a shape of its own leaves them as they
are. -/
def project (ctx : Context σ) (mode : FetchMode) (result : ResultSet) : Session.Run σ Fetched :=
  match mode with
  | all | first | count => return .rows result
  | id => return .keyed (← ResultSet.once (result.keyedBy ctx "id"))
  | column field => return .values (← ResultSet.once (result.column ctx field))
  | columnUnique field =>
    return .values (Value.distinct (← ResultSet.once (result.column ctx field)))
  | unique field => do
    let row := (← ResultSet.once (result.allRows ctx)).head?
    return .value ((row.bind (·.get? field)).getD .null)
  | combine values key =>
    return .keyed (← ResultSet.once (result.combine ctx values key Shaping.defaultGlue))

end FetchMode

namespace Table

variable {mode : FetchMode} {statement : Statement}

/-- A mode with a shape of its own finishes the select and projects its rows. -/
lemma finishFetch_cons (ctx : Context σ) (hmode : mode.Projects)
    (hselect : statement.activity = .select) (rest : List Statement) (session : Session σ) :
    finishFetch ctx mode ⟨statement :: rest, session⟩
      = Engine.inSession ((mode.limited statement).resultSet ctx >>= mode.project ctx)
        ⟨rest, session⟩ := by
  rw [Engine.inSession_bind]
  cases mode
  case all | first | count => exact hmode.elim
  case unique field =>
    rw [finishFetch, Engine.first_bind ctx hselect]
    simp only [FetchMode.project, Engine.inSession_bind, bind_assoc]
    rfl
  all_goals
    rw [finishFetch, Engine.all_bind ctx hselect]
    simp only [FetchMode.project, Engine.inSession_bind]
    rfl

/-! ## Putting the select together -/

/-- What the clauses of a fetch do to a select. -/
def clausesOf (fields : List Field) (contained : List Relation) (options : FetchOptions)
    (statement : Statement) : Except Error Statement := do
  let joined ← Statement.addJoins
    { statement with fields := statement.fields ++ fields } options.joins
  let filtered := (options.conditions.elim joined joined.restrict).addOrder options.order
  contained.foldlM Statement.addRelation { filtered with limit := options.limit <|> filtered.limit }

/-- The select of a fetch as a whole. -/
def selection (table : Table) (mode : FetchMode) (options : FetchOptions) :
    Except Error Statement := do
  let contained ← options.contain.mapM table.association
  let fields ← table.fetchFields mode options
  return mode.limited (← clausesOf fields contained options (.ofTable .select table.reference))

/-- The clauses of a fetch one after the other, each of them left out if there is nothing in it. -/
lemma applyOptions_eq (fields : List Field) (contained : List Relation) (options : FetchOptions) :
    (applyOptions fields contained options : Engine.Run σ Unit) = (do
      (if !fields.isEmpty then Engine.fields fields else pure ())
      (if !options.joins.isEmpty then Engine.join options.joins else pure ())
      options.conditions.forM Engine.filter
      options.order.forM Engine.orderTerm
      options.limit.forM Engine.limit
      contained.forM Engine.contain) := by
  rw [applyOptions]
  split <;> split <;> rfl

lemma performs_applyOptions (fields : List Field) (contained : List Relation)
    (options : FetchOptions) :
    Engine.Performs (clausesOf fields contained options)
      (applyOptions fields contained options : Engine.Run σ Unit) := by
  have hjoins : Engine.Performs (·.addJoins options.joins)
      (if !options.joins.isEmpty then Engine.join options.joins
        else pure () : Engine.Run σ Unit) := by
    split
    · exact .join _
    · next hnone =>
        have hempty : options.joins = [] := by simpa using hnone
        rw [hempty]
        exact .pure
  have hfilter : Engine.Performs
      (fun statement => .ok (options.conditions.elim statement statement.restrict))
      (options.conditions.forM Engine.filter : Engine.Run σ Unit) := by
    cases options.conditions with
    | none => exact .pure
    | some conditions => exact .filter conditions
  have hlimit : Engine.Performs
      (fun statement => .ok { statement with limit := options.limit <|> statement.limit })
      (options.limit.forM Engine.limit : Engine.Run σ Unit) := by
    cases options.limit with
    | none => exact .pure
    | some limit => exact .clause_ok rfl fun _ => rfl
  rw [applyOptions_eq]
  exact (Engine.Performs.fields _).bind (hjoins.bind (hfilter.bind ((Engine.Performs.order _).bind
    (hlimit.bind (.contain _)))))

/-! ## Fetching -/

section

variable {options : FetchOptions} (ctx : Context σ) (table : Table) (engine : Engine σ)

/-- A fetch puts its select together and finishes it, on top of what is under construction. -/
lemma fetch_eq {contained : List Relation} {fields : List Field}
    (hcontained : options.contain.mapM table.association = .ok contained)
    (hfields : table.fetchFields mode options = .ok fields) :
    table.fetch ctx mode options engine
      = match Engine.changed engine.stack engine.session
          (clausesOf fields contained options (.ofTable .select table.reference)) with
        | (.ok _, changed) => (do
            Engine.inSession (Session.emit (.tableFetch table.name))
            finishFetch ctx mode) changed
        | (.error e, changed) => (.error e, changed) := by
  have hperforms := Engine.find_of_performs (σ := σ)
    (performs_applyOptions fields contained options) table.reference engine
  rw [fetch, hcontained, hfields]
  show ((do Engine.find table.reference; applyOptions fields contained options) >>= fun _ => do
      Engine.inSession (Session.emit (.tableFetch table.name))
      finishFetch ctx mode) engine = _
  rw [run_bind, hperforms]
  cases clausesOf fields contained options (.ofTable .select table.reference) <;> rfl

/-- **A fetch whose select cannot be put together** fails with what is wrong with it.  Nothing is
planned or written, and what was under construction before is so again. -/
theorem fetch_of_error {e : Error} (h : table.selection mode options = .error e) :
    ∃ session, table.fetch ctx mode options engine = (.error e, { engine with session })
      ∧ session.connection = engine.session.connection ∧ session.log = engine.session.log := by
  rcases bind_eq_error.mp h with hcontained | ⟨contained, hcontained, h⟩
  · rw [fetch, hcontained]
    exact ⟨engine.session, rfl, rfl, rfl⟩
  rcases bind_eq_error.mp h with hfields | ⟨fields, hfields, h⟩
  · rw [fetch, hcontained, hfields]
    exact ⟨engine.session, rfl, rfl, rfl⟩
  rcases bind_eq_error.mp h with hclauses | ⟨statement, -, h⟩
  · rw [fetch_eq ctx table engine hcontained hfields, hclauses, Engine.changed, engine.ofList_stack]
    exact ⟨_, rfl, rfl, rfl⟩
  · cases h

/-- **A fetch runs the select that its options describe**, and projects the rows. -/
theorem fetch_of_selection (hmode : mode.Projects)
    (h : table.selection mode options = .ok statement) :
    table.fetch ctx mode options engine
      = Engine.inSession (do
          Session.emit (.tableFetch table.name)
          mode.project ctx (← statement.resultSet ctx)) engine := by
  obtain ⟨contained, hcontained, h⟩ := bind_eq_ok.mp h
  obtain ⟨fields, hfields, h⟩ := bind_eq_ok.mp h
  obtain ⟨complete, hcomplete, h⟩ := bind_eq_ok.mp h
  obtain rfl := return_eq_ok.mp h
  have hselect : complete.activity = .select :=
    (performs_applyOptions (σ := σ) fields contained options
      (.ofTable .select table.reference) [] engine.session rfl).2 complete hcomplete
  rw [fetch_eq ctx table engine hcontained hfields, hcomplete]
  show (finishFetch ctx mode) ⟨complete :: engine.stack,
    { engine.session with events := .tableFetch table.name :: engine.session.events }⟩ = _
  rw [finishFetch_cons ctx hmode hselect, engine.ofList_stack]
  rfl

end

end Table

end RelQuery
