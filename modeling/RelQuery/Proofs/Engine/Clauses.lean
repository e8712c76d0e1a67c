import RelQuery.Proofs.Engine.Changes
import RelQuery.Proofs.Engine.Stack
import RelQuery.Proofs.Value.Row

/-!
# The clauses of a statement

What is collected for a statement fits what the statement does.  A query is written from the clauses
that it has a use for, so a clause that does not belong would be dropped without a word; but no such
clause gets there, since each call looks at what the statement does before it changes it.

* `Statement.Fitting` is a statement whose clauses belong to what it does.
* **`Request.fitting_of_edits`** — a clause keeps a statement fitting.
* **`Engine.fitting_after`** — so all statements of an engine are, after any calls.
* **`Engine.distinct_after`** — and each of them has one value for a column.
-/

namespace RelQuery

variable {σ : Type}

/-- A statement that has only clauses which belong to what it does, and a table unless it is a
select. -/
structure Statement.Fitting (statement : Statement) : Prop where
  joins : statement.joins ≠ [] → statement.activity = .select
  relations : statement.relations ≠ [] → statement.activity = .select
  order : statement.order ≠ [] → statement.activity = .select
  limit : statement.limit ≠ none → statement.activity = .select
  shaping : statement.shaping ≠ none → statement.activity = .select
  values : statement.values.entries ≠ [] →
    statement.activity = .insert ∨ statement.activity = .update
  conditions : statement.conditions.entries ≠ [] →
    statement.activity = .select ∨ statement.activity = .update ∨ statement.activity = .delete
  fields : statement.fields ≠ [] → statement.activity ≠ .delete
  table : statement.activity ≠ .select → statement.table ≠ none

namespace Statement

variable {statement changed : Statement}

lemma fitting_ofTable (activity : Activity) (table : TableRef) :
    (ofTable activity table).Fitting := by
  constructor <;> simp [ofTable, Row.empty, Conditions.empty]

lemma fitting_select (fields : List Field) :
    Fitting { activity := .select, fields } := by
  constructor <;> simp [Row.empty, Conditions.empty]

lemma exists_of_addValues {what : String} {data : Value}
    (h : statement.addValues what data = .ok changed) :
    ∃ values, changed = { statement with values } := by
  obtain ⟨row, -, h⟩ := bind_eq_ok.mp h
  exact ⟨_, (return_eq_ok.mp h).symm⟩

end Statement

/-! ## One call -/

lemma Engine.edited_eq_ok {call : Call} {change : Statement → Except Error Statement}
    {before : List Statement} {changed : Statement} :
    Engine.edited call change before = .ok changed ↔ ∃ top rest, before = top :: rest
      ∧ top.activity ∈ call.allowed ∧ change top = .ok changed := by
  cases before with
  | nil => simp [Engine.edited]
  | cons top rest =>
      rw [Engine.edited]
      split <;> simp_all

/-- One call keeps what opening a statement, giving it its table, and changing it keep. -/
lemma Request.forall_of_kept (ctx : Context σ) {engine : Engine σ} (request : Request)
    {p : Statement → Prop} (hopens : ∀ statement, request.role = .opens statement → p statement)
    (htable : ∀ table, p (.ofTable .select table))
    (hcompletes : ∀ statement table, p statement → p { statement with table := some table })
    (hedits : ∀ call change statement changed, request.role = .edits call change →
      statement.activity ∈ call.allowed → change statement = .ok changed → p statement → p changed)
    (hall : ∀ statement ∈ engine.stack, p statement) :
    ∀ statement ∈ (request.after ctx engine).stack, p statement := by
  have hobeyed := request.obeyed_role ctx engine
  have htail : ∀ statement ∈ engine.stack.tail, p statement :=
    fun statement h => hall statement (List.mem_of_mem_tail h)
  cases hrole : request.role with
  | opens statement =>
      rw [hrole] at hobeyed
      rw [hobeyed.2]
      exact List.forall_mem_cons.mpr ⟨hopens statement hrole, hall⟩
  | completes table =>
      rw [hrole] at hobeyed
      obtain ⟨-, ⟨top, rest, hstack, -, -, hafter⟩ | ⟨-, hafter⟩⟩ := hobeyed
      · rw [hstack] at hall
        obtain ⟨htop, hrest⟩ := List.forall_mem_cons.mp hall
        rw [hafter]
        exact List.forall_mem_cons.mpr ⟨hcompletes top table htop, hrest⟩
      · rw [hafter]
        exact List.forall_mem_cons.mpr ⟨htable table, hall⟩
  | edits call change =>
      rw [hrole, Role.Obeyed, Engine.Applies] at hobeyed
      split at hobeyed
      · next changed hchanged =>
          obtain ⟨top, rest, hstack, hallowed, hchange⟩ := Engine.edited_eq_ok.mp hchanged
          have htop := hall top (hstack ▸ List.mem_cons_self)
          rw [hobeyed.2]
          exact List.forall_mem_cons.mpr
            ⟨hedits call change top changed hrole hallowed hchange htop, htail⟩
      · rw [hobeyed.2]
        exact htail
  | ends =>
      rw [hrole] at hobeyed
      rw [show (request.after ctx engine).stack = engine.stack.tail from hobeyed]
      exact htail
  | shows =>
      rw [hrole] at hobeyed
      rw [show (request.after ctx engine).stack = engine.stack from hobeyed]
      exact hall

/-- What every call keeps of all statements holds of them after any calls on a new engine. -/
lemma Engine.forall_after (ctx : Context σ) {p : Statement → Prop}
    (hkept : ∀ (request : Request) (engine : Engine σ), (∀ statement ∈ engine.stack, p statement) →
      ∀ statement ∈ (request.after ctx engine).stack, p statement)
    (session : Session σ) (requests : List Request) :
    ∀ statement ∈ (Engine.after ctx ⟨[], session⟩ requests).stack, p statement := by
  have hrun (engine : Engine σ) (hall : ∀ statement ∈ engine.stack, p statement) :
      ∀ statement ∈ (Engine.after ctx engine requests).stack, p statement := by
    induction requests generalizing engine with
    | nil => exact hall
    | cons request requests ih => exact ih _ (hkept request engine hall)
  exact hrun ⟨[], session⟩ (by simp)

/-! ## Clauses that fit -/

namespace Request

variable {request : Request} {statement changed : Statement}

lemma fitting_of_opens (h : request.role = .opens statement) : statement.Fitting := by
  cases request with
  | find table => cases h; exact Statement.fitting_ofTable _ _
  | select names => cases h; exact Statement.fitting_select names
  | insert table => cases h; exact Statement.fitting_ofTable _ _
  | update table => cases h; exact Statement.fitting_ofTable _ _
  | delete table => cases h; exact Statement.fitting_ofTable _ _
  | _ => cases h

/-- **A clause keeps a statement fitting.**  It adds to one kind of clause, and is refused where
that kind does not belong. -/
theorem fitting_of_edits {call : Call} {change : Statement → Except Error Statement}
    (h : request.role = .edits call change) (hallowed : statement.activity ∈ call.allowed)
    (hchange : change statement = .ok changed) (hs : statement.Fitting) : changed.Fitting := by
  have honly {activity : Activity} (hcall : call.allowed = [activity]) :
      statement.activity = activity := by
    rw [hcall] at hallowed
    exact List.mem_singleton.mp hallowed
  cases request with
  | fields names =>
      cases h
      cases hchange
      have hdelete : statement.activity ≠ .delete := by
        intro hdelete
        simp [Call.allowed, hdelete] at hallowed
      exact { hs with fields := fun _ => hdelete }
  | filter conditions =>
      cases h
      cases hchange
      have hfiltered : statement.activity = .select ∨ statement.activity = .update
          ∨ statement.activity = .delete := by
        simpa [Call.allowed] using hallowed
      exact { hs with conditions := fun _ => hfiltered }
  | order spec =>
      cases h
      obtain ⟨terms, -, rfl⟩ := map_eq_ok.mp hchange
      exact { hs with order := fun _ => honly rfl }
  | orderTerm term =>
      cases h
      cases hchange
      exact { hs with order := fun _ => honly rfl }
  | limit bounds =>
      cases h
      cases hchange
      exact { hs with limit := fun _ => honly rfl }
  | join joins =>
      cases h
      obtain rfl := Statement.eq_of_addJoins hchange
      exact { hs with joins := fun _ => honly rfl }
  | contain relation =>
      cases h
      obtain ⟨-, rfl⟩ := Statement.addRelation_eq_ok.mp hchange
      exact { hs with relations := fun _ => honly rfl }
  | set data =>
      cases h
      obtain ⟨values, rfl⟩ := Statement.exists_of_addValues hchange
      exact { hs with values := fun _ => .inr (honly rfl) }
  | values data =>
      cases h
      obtain ⟨values, rfl⟩ := Statement.exists_of_addValues hchange
      exact { hs with values := fun _ => .inl (honly rfl) }
  | shape shaping =>
      cases h
      cases hchange
      exact { hs with shaping := fun _ => honly rfl }
  | _ => cases h

/-- One call keeps all statements fitting. -/
lemma forall_fitting (ctx : Context σ) (request : Request) (engine : Engine σ) :
    (∀ statement ∈ engine.stack, statement.Fitting) →
      ∀ statement ∈ (request.after ctx engine).stack, statement.Fitting :=
  request.forall_of_kept ctx (fun _ => fitting_of_opens) (Statement.fitting_ofTable _)
    (fun _ _ hs => { hs with table := fun _ => by simp })
    fun _ _ _ _ hrole hallowed hchange hs => fitting_of_edits hrole hallowed hchange hs

end Request

/-- **Clauses belong to what a statement does.**  After any calls on a new engine, whether they
succeeded or not, a statement under construction, active or suspended, has joins, relations, an
order, a limit and a shape only if it is a select, values only if it is an insert or an update,
conditions only if it is a select, an update or a delete, fields only if it is no delete, and it has
a table unless it is a select. -/
theorem Engine.fitting_after (ctx : Context σ) (session : Session σ) (requests : List Request) :
    ∀ statement ∈ (Engine.after ctx ⟨[], session⟩ requests).stack, statement.Fitting :=
  Engine.forall_after ctx (Request.forall_fitting ctx) session requests

/-- A delete with a condition, suspended by an insert of some of its values. -/
theorem Engine.fitting_of_suspended_delete :
    let driver : Driver Unit := ⟨.mysql, fun _ _ s => (.ok [], s), fun _ _ s => (.ok ⟨0, none⟩, s),
      fun _ s => (.ok [], s)⟩
    let engine := Engine.after (.ofConfig driver {}) ⟨[], { connection := () }⟩
      [.delete ⟨"posts", none⟩, .filter (Conditions.empty.eq "id" (.scalar (.str "1"))),
        .insert ⟨"users", none⟩, .fields [.parse "name"], .values (.obj [("name", .str "ann")])]
    ∃ active suspended, engine.stack = [active, suspended]
      ∧ active.values.entries ≠ [] ∧ active.fields ≠ [] ∧ suspended.conditions.entries ≠ []
      ∧ active.Fitting ∧ suspended.Fitting := by
  intro driver engine
  obtain ⟨active, suspended, hstack, hvalues, hfields, hconditions⟩ : ∃ active suspended,
      engine.stack = [active, suspended] ∧ active.values.entries ≠ [] ∧ active.fields ≠ []
        ∧ suspended.conditions.entries ≠ [] :=
    ⟨_, _, rfl, List.cons_ne_nil _ _, List.cons_ne_nil _ _, List.cons_ne_nil _ _⟩
  have hall : ∀ statement ∈ [active, suspended], statement.Fitting :=
    hstack ▸ fitting_after _ _ _
  exact ⟨active, suspended, hstack, hvalues, hfields, hconditions, hall active (by simp),
    hall suspended (by simp)⟩

/-! ## Values by column -/

namespace Request

variable {request : Request} {statement changed : Statement}

/-- A clause writes each column once: setting it again changes the value that is there. -/
lemma distinct_of_edits {call : Call} {change : Statement → Except Error Statement}
    (h : request.role = .edits call change) (hchange : change statement = .ok changed)
    (hs : statement.values.Distinct) : changed.values.Distinct := by
  have hadded {what : String} {data : Value} (hadd : statement.addValues what data = .ok changed) :
      changed.values.Distinct := by
    obtain ⟨row, -, hadd⟩ := bind_eq_ok.mp hadd
    obtain rfl := return_eq_ok.mp hadd
    exact hs.merge row
  cases request with
  | fields names => cases h; cases hchange; exact hs
  | filter conditions => cases h; cases hchange; exact hs
  | order spec =>
      cases h
      obtain ⟨terms, -, rfl⟩ := map_eq_ok.mp hchange
      exact hs
  | orderTerm term => cases h; cases hchange; exact hs
  | limit bounds => cases h; cases hchange; exact hs
  | join joins =>
      cases h
      obtain rfl := Statement.eq_of_addJoins hchange
      exact hs
  | contain relation =>
      cases h
      obtain ⟨-, rfl⟩ := Statement.addRelation_eq_ok.mp hchange
      exact hs
  | set data => cases h; exact hadded hchange
  | values data => cases h; exact hadded hchange
  | shape shaping => cases h; cases hchange; exact hs
  | _ => cases h

lemma distinct_of_opens (h : request.role = .opens statement) : statement.values.Distinct := by
  cases request <;> cases h <;> exact List.nodup_nil

end Request

/-- **A statement has one value for each column that is set**, after any calls on a new engine. -/
theorem Engine.distinct_after (ctx : Context σ) (session : Session σ) (requests : List Request) :
    ∀ statement ∈ (Engine.after ctx ⟨[], session⟩ requests).stack, statement.values.Distinct :=
  Engine.forall_after ctx (fun request _ => request.forall_of_kept ctx
    (fun _ => Request.distinct_of_opens) (fun _ => List.nodup_nil) (fun _ _ hs => hs)
    fun _ _ _ _ hrole _ hchange hs => Request.distinct_of_edits hrole hchange hs) session requests

end RelQuery
