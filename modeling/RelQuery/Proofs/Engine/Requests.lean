import RelQuery.Engine.Running
import RelQuery.Proofs.Condition.Steps
import RelQuery.Proofs.Session.Steps

/-!
# What calls do to the stack

An engine is used by one call after the other.  Whatever a call is for, few things can happen to the
statements under construction.

* `Request` is a call on an engine with its arguments, `Engine.after` where a row of calls leads.
* `Move` is one of the things that leave the names in use as they are, or take a free one.
* **`Request.moves`** — a call makes such moves only, except that one call gives a select its table,
  and one call adds a relation.
-/

namespace RelQuery

variable {σ α β : Type}

/-! ## Calls -/

/-- A call on an engine, with its arguments. -/
inductive Request where
  | find (table : TableRef)
  | select (fields : List Field)
  | fromTable (table : TableRef)
  | insert (table : TableRef)
  | update (table : TableRef)
  | delete (table : TableRef)
  | fields (fields : List Field)
  | filter (conditions : Conditions)
  | order (spec : String)
  | orderTerm (term : OrderTerm)
  | limit (limit : Limit)
  | join (joins : List Join)
  | contain (relation : Relation)
  | set (data : Value)
  | values (data : Value)
  | shape (shaping : Shaping)
  | execute
  | all
  | first
  | last
  | byId (id : Value)
  | count
  | matchesAny
  | display (what : Engine.Display)
  | clearLog

/-- The call itself.  What it returns does not matter to the stack. -/
def Request.run (ctx : Context σ) : Request → Engine.Run σ Unit
  | .find table => Engine.find table
  | .select names => Engine.select names
  | .fromTable table => Engine.fromTable table
  | .insert table => Engine.insert table
  | .update table => Engine.update table
  | .delete table => Engine.delete table
  | .fields names => Engine.fields names
  | .filter conditions => Engine.filter conditions
  | .order spec => Engine.order spec
  | .orderTerm term => Engine.orderTerm term
  | .limit bounds => Engine.limit bounds
  | .join joins => Engine.join joins
  | .contain relation => Engine.contain relation
  | .set data => Engine.set data
  | .values data => Engine.values data
  | .shape shaping => Engine.shape shaping
  | .execute => do let _ ← Engine.execute ctx
  | .all => do let _ ← Engine.all ctx
  | .first => do let _ ← Engine.first ctx
  | .last => do let _ ← Engine.last ctx
  | .byId id => do let _ ← Engine.byId ctx id
  | .count => do let _ ← Engine.count ctx
  | .matchesAny => do let _ ← Engine.matchesAny ctx
  | .display what => do let _ ← Engine.display ctx what
  | .clearLog => Engine.clearLog

/-- The engine after a call, whether it succeeded or not. -/
def Request.after (ctx : Context σ) (request : Request) (engine : Engine σ) : Engine σ :=
  (request.run ctx engine).2

/-- The engine after a row of calls. -/
def Engine.after (ctx : Context σ) (engine : Engine σ) : List Request → Engine σ
  | [] => engine
  | request :: requests => Engine.after ctx (request.after ctx engine) requests

/-! ## Moves -/

/-- A statement with the table, the joins and the relations of another one. -/
structure Statement.SameNames (statement other : Statement) : Prop where
  table : other.table = statement.table
  joins : other.joins = statement.joins
  relations : other.relations = statement.relations

/-- One thing that happens to the stack. -/
inductive Move : List Statement → List Statement → Prop
  | opens {statement : Statement} (hjoins : statement.joins = [])
      (hrelations : statement.relations = []) (rest : List Statement) :
      Move rest (statement :: rest)
  | drops (statement : Statement) (rest : List Statement) : Move (statement :: rest) rest
  | changes {statement changed : Statement} (h : statement.SameNames changed)
      (rest : List Statement) : Move (statement :: rest) (changed :: rest)
  | joins {statement changed : Statement} {join : Join} (h : statement.addJoin join = .ok changed)
      (rest : List Statement) : Move (statement :: rest) (changed :: rest)

/-- Moves in a row. -/
abbrev Moves : List Statement → List Statement → Prop := Relation.ReflTransGen Move

/-- A computation that makes moves only. -/
def Engine.Traces (run : Engine.Run σ α) : Prop :=
  ∀ engine, Moves engine.stack (run engine).2.stack

namespace Engine.Traces

lemma pure (a : α) : Traces (Pure.pure a : Engine.Run σ α) := fun _ => .refl

lemma bind {x : Engine.Run σ α} {f : α → Engine.Run σ β} (hx : Traces x)
    (hf : ∀ a, Traces (f a)) : Traces (x >>= f) := by
  intro engine
  have hfirst := hx engine
  rw [run_bind]
  cases h : x engine with
  | mk result next =>
      rw [h] at hfirst
      cases result with
      | error e => exact hfirst
      | ok a => exact hfirst.trans (hf a next)

lemma inSession (run : Session.Run σ α) : Traces (Engine.inSession run) := fun _ => .refl

lemma begin {statement : Statement} (hjoins : statement.joins = [])
    (hrelations : statement.relations = []) :
    Traces (Engine.begin statement : Engine.Run σ Unit) := by
  intro engine
  show Moves engine.stack (engine.statements.begin statement).toList
  rw [StatementStack.toList_begin]
  exact .single (.opens hjoins hrelations engine.stack)

/-- Finishing takes the statement on top away, whether the call is for it or not. -/
lemma finish_cons (call : Call) (statement : Statement) (rest : List Statement)
    (session : Session σ) :
    Engine.finish call ⟨statement :: rest, session⟩
      = (if call.allowed.contains statement.activity then return statement
          else throw (.activityMismatch call statement.activity) : Engine.Run σ Statement)
        ⟨rest, session⟩ := rfl

/-- Finishing goes back to the statement that was suspended last, whatever it returns. -/
lemma finish_snd (call : Call) (engine : Engine σ) :
    (Engine.finish call engine).2 = { engine with statements := engine.statements.pop } := by
  obtain ⟨stack, session⟩ := engine
  cases stack with
  | nil => rfl
  | cons statement rest =>
      rw [finish_cons]
      split <;> rfl

lemma stack_finish (call : Call) (engine : Engine σ) :
    (Engine.finish call engine).2.stack = engine.stack.tail := by
  rw [finish_snd]
  exact engine.statements.toList_pop

lemma finish (call : Call) : Traces (Engine.finish call : Engine.Run σ Statement) := by
  intro engine
  rw [stack_finish]
  cases engine.stack with
  | nil => exact .refl
  | cons statement rest => exact .single (.drops statement rest)

/-- A clause on a statement keeps what the change has made of it, or gives the statement up. -/
lemma clause_cons (call : Call) (change : Statement → Except Error Statement)
    (statement : Statement) (rest : List Statement) (session : Session σ) :
    Engine.clause call change ⟨statement :: rest, session⟩
      = (match if call.allowed.contains statement.activity then change statement
          else .error (.activityMismatch call statement.activity) with
        | .ok changed => Engine.restack (·.replace changed)
        | .error e => do
          Engine.abandon
          throw e : Engine.Run σ Unit) ⟨statement :: rest, session⟩ := rfl

/-- A clause puts the changed statement in place of the one on top, or takes that one away. -/
lemma stack_clause (call : Call) (change : Statement → Except Error Statement)
    (statement : Statement) (rest : List Statement) (session : Session σ) :
    (Engine.clause call change ⟨statement :: rest, session⟩).2.stack
      = match if call.allowed.contains statement.activity then change statement
          else .error (.activityMismatch call statement.activity) with
        | .ok changed => changed :: rest
        | .error _ => rest := by
  rw [clause_cons]
  generalize (if call.allowed.contains statement.activity then change statement
    else .error (.activityMismatch call statement.activity)) = changed
  cases changed with
  | ok changed => exact StatementStack.toList_replace (statement :: rest) changed
  | error e => exact StatementStack.toList_pop (statement :: rest)

/-- A clause moves the stack as its change moves the statement on top. -/
lemma clause {call : Call} {change : Statement → Except Error Statement}
    (h : ∀ statement changed rest, change statement = .ok changed →
      Moves (statement :: rest) (changed :: rest)) :
    Traces (Engine.clause call change : Engine.Run σ Unit) := by
  rintro ⟨stack, session⟩
  cases stack with
  | nil => exact .refl
  | cons statement rest =>
      rw [stack_clause]
      split
      · next changed hchanged =>
          split at hchanged
          · exact h statement changed rest hchanged
          · cases hchanged
      · exact .single (.drops statement rest)

/-- A clause that leaves the names alone. -/
lemma clause_of_sameNames {call : Call} {change : Statement → Except Error Statement}
    (h : ∀ statement changed, change statement = .ok changed → statement.SameNames changed) :
    Traces (Engine.clause call change : Engine.Run σ Unit) :=
  clause fun statement changed rest hchange =>
    .single (.changes (h statement changed hchange) rest)

/-- A clause that cannot fail on a statement it is for. -/
lemma clause_ok {call : Call} {change : Statement → Statement}
    (h : ∀ statement, Statement.SameNames statement (change statement)) :
    Traces (Engine.clause call fun statement => .ok (change statement) : Engine.Run σ Unit) := by
  refine clause_of_sameNames fun statement changed hchange => ?_
  cases hchange
  exact h statement

/-- A call whose result is dropped. -/
lemma dropped {run : Engine.Run σ α} (h : Traces run) :
    Traces (do let _ ← run : Engine.Run σ Unit) :=
  Traces.bind h fun _ => Traces.pure ()

end Engine.Traces

/-! ## Every call -/

lemma Statement.sameNames_addValues {statement changed : Statement} {what : String} {data : Value}
    (h : statement.addValues what data = .ok changed) : statement.SameNames changed := by
  obtain ⟨row, -, h⟩ := bind_eq_ok.mp h
  cases h
  exact ⟨rfl, rfl, rfl⟩

lemma Statement.sameNames_of_addOrder {statement changed : Statement} {terms : Except Error _}
    (h : terms.map statement.addOrder = .ok changed) : statement.SameNames changed := by
  obtain ⟨terms, -, rfl⟩ := map_eq_ok.mp h
  exact ⟨rfl, rfl, rfl⟩

/-- Joins that are added one after the other. -/
lemma Statement.moves_addJoins {joins : List Join} {statement changed : Statement}
    (h : statement.addJoins joins = .ok changed) (rest : List Statement) :
    Moves (statement :: rest) (changed :: rest) := by
  induction joins generalizing statement with
  | nil =>
      cases h
      exact .refl
  | cons join joins ih =>
      rw [addJoins] at h
      split at h
      · cases h
      · obtain ⟨next, hnext, h⟩ := bind_eq_ok.mp h
        exact .head (.joins hnext rest) (ih h)

namespace Engine.Traces

variable (ctx : Context σ)

/-- A call that finishes the statement on top, and goes on in the session. -/
lemma finish_inSession (call : Call) (run : Statement → Session.Run σ α) :
    Traces (Engine.finish call >>= fun statement => Engine.inSession (run statement)) :=
  Traces.bind (Traces.finish call) fun statement => Traces.inSession (run statement)

lemma first : Traces (Engine.first ctx) := finish_inSession _ _

lemma count : Traces (Engine.count ctx) := finish_inSession _ _

lemma last : Traces (Engine.last ctx) :=
  Traces.bind (clause_ok fun _ => ⟨rfl, rfl, rfl⟩) fun _ => first ctx

lemma byId (id : Value) : Traces (Engine.byId ctx id) :=
  Traces.bind (clause_ok fun _ => ⟨rfl, rfl, rfl⟩) fun _ => first ctx

lemma showActive : Traces (Engine.showActive ctx) := by
  rintro ⟨stack, session⟩
  cases stack with
  | nil => exact .refl
  | cons statement rest =>
      exact Traces.bind (Traces.inSession (statement.prepare ctx)) (fun _ => Traces.pure _) _

lemma display (what : Display) : Traces (Engine.display ctx what) := by
  have hget : ∀ active : List String, Traces (do
      let engine ← get
      let logged := if what = .active then [] else engine.session.log.entries.map Prepared.text
      return "\n\n".intercalate (active ++ logged) : Engine.Run σ String) :=
    fun _ _ => .refl
  rw [Engine.display]
  split
  · exact Traces.bind (Traces.pure []) hget
  · exact Traces.bind (Traces.bind (showActive ctx) fun _ => Traces.pure _) hget

end Engine.Traces

open Engine Engine.Traces in
/-- Most calls make moves only. -/
lemma Request.traces_run (ctx : Context σ) : (request : Request) →
    (∀ table, request ≠ .fromTable table) → (∀ relation, request ≠ .contain relation) →
    Engine.Traces (request.run ctx)
  | .find _, _, _ => Traces.begin rfl rfl
  | .select _, _, _ => Traces.begin rfl rfl
  | .insert _, _, _ => Traces.begin rfl rfl
  | .update _, _, _ => Traces.begin rfl rfl
  | .delete _, _, _ => Traces.begin rfl rfl
  | .fields _, _, _ => clause_ok fun _ => ⟨rfl, rfl, rfl⟩
  | .filter _, _, _ => clause_ok fun _ => ⟨rfl, rfl, rfl⟩
  | .orderTerm _, _, _ => clause_ok fun _ => ⟨rfl, rfl, rfl⟩
  | .limit _, _, _ => clause_ok fun _ => ⟨rfl, rfl, rfl⟩
  | .shape _, _, _ => clause_ok fun _ => ⟨rfl, rfl, rfl⟩
  | .order _, _, _ => clause_of_sameNames fun _ _ h => Statement.sameNames_of_addOrder h
  | .set _, _, _ => clause_of_sameNames fun _ _ h => Statement.sameNames_addValues h
  | .values _, _, _ => clause_of_sameNames fun _ _ h => Statement.sameNames_addValues h
  | .join _, _, _ => clause fun _ _ rest h => Statement.moves_addJoins h rest
  | .execute, _, _ => dropped (finish_inSession _ _)
  | .all, _, _ => dropped (finish_inSession _ _)
  | .first, _, _ => dropped (Traces.first ctx)
  | .last, _, _ => dropped (Traces.last ctx)
  | .byId id, _, _ => dropped (Traces.byId ctx id)
  | .count, _, _ => dropped (Traces.count ctx)
  | .matchesAny, _, _ => dropped (Traces.bind (Traces.count ctx) fun _ => Traces.pure _)
  | .display what, _, _ => dropped (Traces.display ctx what)
  | .clearLog, _, _ => fun _ => .refl
  | .fromTable table, hfrom, _ => absurd rfl (hfrom table)
  | .contain relation, _, hcontain => absurd rfl (hcontain relation)

/-- A select on top that lacks its table is given it, or else one is opened; neither can fail. -/
lemma Engine.fromTable_cons (table : TableRef) (statement : Statement) (rest : List Statement)
    (session : Session σ) : Engine.fromTable table ⟨statement :: rest, session⟩
      = (.ok (), ⟨(if statement.activity = .select ∧ statement.table = none
          then { statement with table := some table } :: rest
          else .ofTable .select table :: statement :: rest : List Statement), session⟩) := by
  show (ite _ _ _ : Engine.Run σ Unit) _ = _
  split <;> rfl

lemma Request.stack_fromTable (ctx : Context σ) (table : TableRef) (statement : Statement)
    (rest : List Statement) (session : Session σ) :
    (after ctx (.fromTable table) ⟨statement :: rest, session⟩).stack
      = if statement.activity = .select ∧ statement.table = none
        then { statement with table := some table } :: rest
        else .ofTable .select table :: statement :: rest := by
  rw [after, run, Engine.fromTable_cons, Engine.stack_mk]

lemma Request.stack_contain (ctx : Context σ) (relation : Relation) (statement : Statement)
    (rest : List Statement) (session : Session σ) :
    (after ctx (.contain relation) ⟨statement :: rest, session⟩).stack
      = match if statement.activity = .select then statement.addRelation relation
          else .error (.activityMismatch .contain statement.activity) with
        | .ok changed => changed :: rest
        | .error _ => rest := by
  have hstack := Engine.Traces.stack_clause .contain
    (fun statement => statement.addRelation relation) statement rest session
  have hallowed : Call.contain.allowed.contains statement.activity = true
      ↔ statement.activity = .select := by
    simp [Call.allowed]
  simp only [hallowed] at hstack
  exact hstack

/-- **What a call does to the stack.**  It makes moves only, unless it gives a select its table or
adds a relation to it. -/
theorem Request.moves (ctx : Context σ) (request : Request) (engine : Engine σ) :
    Moves engine.stack (request.after ctx engine).stack
      ∨ (∃ table statement rest, request = .fromTable table ∧ engine.stack = statement :: rest
        ∧ statement.activity = .select ∧ statement.table = none
        ∧ (request.after ctx engine).stack = { statement with table := some table } :: rest)
      ∨ ∃ relation statement changed rest, request = .contain relation
        ∧ engine.stack = statement :: rest ∧ statement.activity = .select
        ∧ statement.addRelation relation = .ok changed
        ∧ (request.after ctx engine).stack = changed :: rest := by
  by_cases hfrom : ∃ table, request = .fromTable table
  · obtain ⟨table, rfl⟩ := hfrom
    obtain ⟨stack, session⟩ := engine
    cases stack with
    | nil => exact .inl (Engine.Traces.begin rfl rfl ⟨[], session⟩)
    | cons statement rest =>
        have hstack := stack_fromTable ctx table statement rest session
        by_cases h : statement.activity = .select ∧ statement.table = none
        · rw [if_pos h] at hstack
          exact .inr (.inl ⟨table, statement, rest, rfl, rfl, h.1, h.2, hstack⟩)
        · rw [if_neg h] at hstack
          rw [hstack]
          exact .inl (.single (.opens rfl rfl _))
  by_cases hcontain : ∃ relation, request = .contain relation
  · obtain ⟨relation, rfl⟩ := hcontain
    obtain ⟨stack, session⟩ := engine
    cases stack with
    | nil => exact .inl .refl
    | cons statement rest =>
        have hstack := stack_contain ctx relation statement rest session
        split at hstack
        · next changed hchanged =>
            split at hchanged
            · next hselect =>
                exact .inr (.inr ⟨relation, statement, changed, rest, rfl, rfl, hselect, hchanged,
                  hstack⟩)
            · cases hchanged
        · rw [hstack]
          exact .inl (.single (.drops statement rest))
  · exact .inl (traces_run ctx request (fun table h => hfrom ⟨table, h⟩)
      (fun relation h => hcontain ⟨relation, h⟩) engine)

end RelQuery
