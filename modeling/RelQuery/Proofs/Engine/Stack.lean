import RelQuery.Proofs.Engine.Requests

/-!
# The stack discipline

A statement that is opened suspends the one under construction, and comes off the stack when it is
finished or given up.  No call reaches below the top of the stack: whatever fails and wherever it
fails, one statement at most goes, and it is the one on top.

* `Engine.Ends`, `Engine.Edits` and `Engine.Neutral` are the three ways in which a computation can
  treat the stack, and they say how it is treated by computations in a row.
* `Request.role` says what a call is for, `Role.Obeyed` what it may then do to the stack.
* **`Engine.stack_discipline`** — every call does this and nothing else, so a suspended statement
  stays as it is until it is on top again.
-/

namespace RelQuery

variable {σ α β : Type}

/-! ## Ways to treat the stack -/

/-- How a computation relates the stack that it finds to the one that it leaves, by its outcome. -/
def Engine.Leaves (relation : Except Error α → List Statement → List Statement → Prop)
    (run : Engine.Run σ α) : Prop :=
  ∀ engine, relation (run engine).1 engine.stack (run engine).2.stack

/-- A computation that takes the statement on top off the stack, whether it succeeds or not. -/
abbrev Engine.Ends (run : Engine.Run σ α) : Prop :=
  Engine.Leaves (fun _ before after => after = before.tail) run

/-- A computation that changes nothing below the top, and takes the top away if it fails. -/
abbrev Engine.Edits (run : Engine.Run σ α) : Prop :=
  Engine.Leaves (fun result before after => match result with
    | .ok _ => after.tail = before.tail
    | .error _ => after = before.tail) run

/-- A computation that leaves the stack as it finds it. -/
abbrev Engine.Neutral (run : Engine.Run σ α) : Prop :=
  Engine.Leaves (fun _ before after => after = before) run

namespace Engine

/-- Two steps in a row, the second of which is not taken if the first one fails. -/
lemma Leaves.bind {relation : Except Error α → List Statement → List Statement → Prop}
    {next whole : Except Error β → List Statement → List Statement → Prop}
    {x : Engine.Run σ α} {f : α → Engine.Run σ β} (hx : Leaves relation x)
    (hf : ∀ a, Leaves next (f a))
    (hok : ∀ a result before mid after, relation (.ok a) before mid → next result mid after →
      whole result before after)
    (herror : ∀ e before after, relation (.error e) before after → whole (.error e) before after) :
    Leaves whole (x >>= f) := by
  intro engine
  have hfirst := hx engine
  rw [run_bind]
  cases h : x engine with
  | mk result mid =>
      rw [h] at hfirst
      cases result with
      | error e => exact herror e _ _ hfirst
      | ok a => exact hok a _ _ _ _ hfirst (hf a mid)

lemma Neutral.pure (a : α) : Neutral (Pure.pure a : Engine.Run σ α) := fun _ => rfl

lemma Neutral.inSession (run : Session.Run σ α) : Neutral (Engine.inSession run) := fun _ => rfl

lemma Neutral.bind {x : Engine.Run σ α} {f : α → Engine.Run σ β} (hx : Neutral x)
    (hf : ∀ a, Neutral (f a)) : Neutral (x >>= f) :=
  Leaves.bind hx hf (fun _ _ _ _ _ hmid hafter => hafter.trans hmid) fun _ _ _ h => h

/-- A statement that is opened and ended leaves the stack as it was. -/
lemma Ends.of_begin {run : Engine.Run σ α} (h : Ends run) (statement : Statement) :
    Neutral (do Engine.begin statement; run) := by
  intro engine
  rw [run_bind]
  exact h ⟨statement :: engine.stack, engine.session⟩

lemma Ends.bind {x : Engine.Run σ α} {f : α → Engine.Run σ β} (hx : Ends x)
    (hf : ∀ a, Neutral (f a)) : Ends (x >>= f) :=
  Leaves.bind hx hf (fun _ _ _ _ _ hmid hafter => hafter.trans hmid) fun _ _ _ h => h

lemma Edits.pure (a : α) : Edits (Pure.pure a : Engine.Run σ α) := fun _ => rfl

lemma Edits.bind {x : Engine.Run σ α} {f : α → Engine.Run σ β} (hx : Edits x)
    (hf : ∀ a, Edits (f a)) : Edits (x >>= f) := by
  refine Leaves.bind hx hf (fun a result before mid after hmid hafter => ?_) fun _ _ _ h => h
  cases result with
  | ok b => exact Eq.trans hafter hmid
  | error e => exact Eq.trans hafter hmid

/-- Changes that are followed by the end of the statement, which comes as well if one of them
fails. -/
lemma Edits.bind_ends {x : Engine.Run σ α} {f : α → Engine.Run σ β} (hx : Edits x)
    (hf : ∀ a, Ends (f a)) : Ends (x >>= f) :=
  Leaves.bind hx hf (fun _ _ _ _ _ hmid hafter => hafter.trans hmid) fun _ _ _ h => h

lemma Edits.forM {f : α → Engine.Run σ Unit} (h : ∀ a, Edits (f a)) (items : List α) :
    Edits (items.forM f) := by
  induction items with
  | nil => exact .pure ()
  | cons a items ih => exact (h a).bind fun _ => ih

lemma Edits.forM_option {f : α → Engine.Run σ Unit} (h : ∀ a, Edits (f a)) (item : Option α) :
    Edits (item.forM f) := by
  cases item with
  | none => exact .pure ()
  | some a => exact h a

/-! ## Clauses and ends -/

/-- What a clause makes of the statement on top. -/
def edited (call : Call) (change : Statement → Except Error Statement) :
    List Statement → Except Error Statement
  | [] => .error (.activityMismatch call none)
  | top :: _ =>
    if top.activity ∈ call.allowed then change top
    else .error (.activityMismatch call top.activity)

/-- The changed statement is put in place of the one on top, or else that one is taken away. -/
def Applies (call : Call) (change : Statement → Except Error Statement) (result : Except Error Unit)
    (before after : List Statement) : Prop :=
  match edited call change before with
  | .ok changed => result = .ok () ∧ after = changed :: before.tail
  | .error e => result = .error e ∧ after = before.tail

/-- **A clause is applied to the statement on top, or takes it away**: because there is none,
because the clause is not for it, or because the change fails. -/
theorem leaves_clause (call : Call) (change : Statement → Except Error Statement) :
    Leaves (Applies call change) (Engine.clause call change : Engine.Run σ Unit) := by
  rintro ⟨stack, session⟩
  cases stack with
  | nil => exact ⟨rfl, rfl⟩
  | cons top rest =>
      have hallowed : call.allowed.contains top.activity = true ↔ top.activity ∈ call.allowed :=
        List.contains_iff_mem
      rw [Applies, stack_mk, edited, Traces.clause_cons]
      simp only [hallowed]
      generalize (if top.activity ∈ call.allowed then change top
        else .error (.activityMismatch call top.activity)) = changed
      cases changed with
      | ok changed => exact ⟨rfl, StatementStack.toList_replace (top :: rest) changed⟩
      | error e => exact ⟨rfl, StatementStack.toList_pop (top :: rest)⟩

lemma Edits.clause (call : Call) (change : Statement → Except Error Statement) :
    Edits (Engine.clause call change : Engine.Run σ Unit) := by
  intro engine
  have happlies : Applies call change _ _ _ := leaves_clause call change engine
  rw [Applies] at happlies
  split at happlies
  · obtain ⟨hresult, hafter⟩ := happlies
    rw [hresult, hafter]
    rfl
  · obtain ⟨hresult, hafter⟩ := happlies
    rw [hresult]
    exact hafter

lemma Ends.finish (call : Call) : Ends (Engine.finish call : Engine.Run σ Statement) :=
  Traces.stack_finish call

section

variable (ctx : Context σ)

/-- A call that finishes the statement on top, and goes on in the session. -/
lemma Ends.finish_inSession (call : Call) (run : Statement → Session.Run σ α) :
    Ends (Engine.finish call >>= fun statement => Engine.inSession (run statement)) :=
  (Ends.finish call).bind fun statement => .inSession (run statement)

lemma Ends.execute : Ends (Engine.execute ctx) := .finish_inSession _ _

lemma Ends.all : Ends (Engine.all ctx) := .finish_inSession _ _

lemma Ends.first : Ends (Engine.first ctx) := .finish_inSession _ _

lemma Ends.count : Ends (Engine.count ctx) := .finish_inSession _ _

lemma Ends.last : Ends (Engine.last ctx) := (Edits.clause _ _).bind_ends fun _ => .first ctx

lemma Ends.byId (id : Value) : Ends (Engine.byId ctx id) :=
  (Edits.clause _ _).bind_ends fun _ => .first ctx

lemma Ends.matchesAny : Ends (Engine.matchesAny ctx) := (Ends.count ctx).bind fun _ => .pure _

lemma Neutral.showActive : Neutral (Engine.showActive ctx) := by
  rintro ⟨stack, session⟩
  cases stack with
  | nil => rfl
  | cons top rest => exact (Neutral.inSession (top.prepare ctx)).bind (fun _ => .pure _) _

lemma Neutral.display (what : Display) : Neutral (Engine.display ctx what) := by
  have hrest (active : List String) : Neutral (do
      let engine ← get
      let logged := if what = .active then [] else engine.session.log.entries.map Prepared.text
      return "\n\n".intercalate (active ++ logged) : Engine.Run σ String) :=
    fun _ => rfl
  rw [Engine.display]
  split
  · exact (Neutral.pure []).bind hrest
  · exact ((Neutral.showActive ctx).bind fun _ => .pure _).bind hrest

end

end Engine

/-! ## What calls are for -/

/-- What a call is for. -/
inductive Role where
  /-- It opens a statement. -/
  | opens (statement : Statement)
  /-- It gives the select under construction its table, or opens one. -/
  | completes (table : TableRef)
  /-- It is a clause. -/
  | edits (call : Call) (change : Statement → Except Error Statement)
  /-- It finishes the statement under construction. -/
  | ends
  /-- It looks at what was built and run, or forgets what was run. -/
  | shows

def Request.role : Request → Role
  | .find table => .opens (.ofTable .select table)
  | .select names => .opens { activity := .select, fields := names }
  | .fromTable table => .completes table
  | .insert table => .opens (.ofTable .insert table)
  | .update table => .opens (.ofTable .update table)
  | .delete table => .opens (.ofTable .delete table)
  | .fields names =>
    .edits .fields fun statement => .ok { statement with fields := statement.fields ++ names }
  | .filter conditions => .edits .filter fun statement => .ok (statement.restrict conditions)
  | .order spec =>
    .edits .order fun statement => (OrderTerm.parseList spec).map statement.addOrder
  | .orderTerm term => .edits .order fun statement => .ok (statement.addOrder [term])
  | .limit bounds => .edits .limit fun statement => .ok { statement with limit := some bounds }
  | .join joins => .edits .join fun statement => statement.addJoins joins
  | .contain relation => .edits .contain fun statement => statement.addRelation relation
  | .set data => .edits .set fun statement => statement.addValues "set" data
  | .values data => .edits .values fun statement => statement.addValues "values" data
  | .shape shaping => .edits .shape fun statement => .ok { statement with shaping := some shaping }
  | .execute | .all | .first | .last | .byId _ | .count | .matchesAny => .ends
  | .display _ | .clearLog => .shows

/-- How a call of a role may end and what it may do to the stack. -/
def Role.Obeyed : Role → Except Error Unit → List Statement → List Statement → Prop
  | .opens statement, result, before, after => result = .ok () ∧ after = statement :: before
  | .completes table, result, before, after => result = .ok () ∧
    ((∃ top rest, before = top :: rest ∧ top.activity = .select ∧ top.table = none
        ∧ after = { top with table := some table } :: rest)
      ∨ (∀ top rest, before = top :: rest → ¬ (top.activity = .select ∧ top.table = none))
        ∧ after = .ofTable .select table :: before)
  | .edits call change, result, before, after => Engine.Applies call change result before after
  | .ends, _, before, after => after = before.tail
  | .shows, _, before, after => after = before

/-- No call reaches below the top. -/
lemma Role.Obeyed.suffix {role : Role} {result : Except Error Unit} {before after : List Statement}
    (h : role.Obeyed result before after) : before.tail <:+ after := by
  have htail : before.tail <:+ before := List.tail_suffix before
  cases role with
  | opens statement =>
      obtain ⟨-, rfl⟩ := h
      exact htail.trans (List.suffix_cons _ _)
  | completes table =>
      obtain ⟨-, ⟨top, rest, rfl, -, -, rfl⟩ | ⟨-, rfl⟩⟩ := h
      · exact List.suffix_cons _ _
      · exact htail.trans (List.suffix_cons _ _)
  | edits call change =>
      rw [Obeyed, Engine.Applies] at h
      split at h
      · obtain ⟨-, rfl⟩ := h
        exact List.suffix_cons _ _
      · obtain ⟨-, rfl⟩ := h
        exact List.suffix_rfl
  | ends =>
      obtain rfl : after = before.tail := h
      exact List.suffix_rfl
  | shows =>
      obtain rfl : after = before := h
      exact htail

/-! ## Every call -/

namespace Request

variable (ctx : Context σ) {request : Request}

lemma run_of_opens {statement : Statement} (h : request.role = .opens statement) :
    request.run ctx = Engine.begin statement := by
  cases request <;> cases h <;> rfl

lemma run_of_completes {table : TableRef} (h : request.role = .completes table) :
    request.run ctx = Engine.fromTable table := by
  cases request <;> cases h
  rfl

lemma run_of_edits {call : Call} {change : Statement → Except Error Statement}
    (h : request.role = .edits call change) : request.run ctx = Engine.clause call change := by
  cases request <;> cases h <;> rfl

open Engine in
lemma ends_of_ends (h : request.role = .ends) : Ends (request.run ctx) := by
  cases request with
  | execute => exact (Ends.execute ctx).bind fun _ => .pure ()
  | all => exact (Ends.all ctx).bind fun _ => .pure ()
  | first => exact (Ends.first ctx).bind fun _ => .pure ()
  | last => exact (Ends.last ctx).bind fun _ => .pure ()
  | byId id => exact (Ends.byId ctx id).bind fun _ => .pure ()
  | count => exact (Ends.count ctx).bind fun _ => .pure ()
  | matchesAny => exact (Ends.matchesAny ctx).bind fun _ => .pure ()
  | _ => cases h

open Engine in
lemma neutral_of_shows (h : request.role = .shows) : Neutral (request.run ctx) := by
  cases request with
  | display what => exact (Neutral.display ctx what).bind fun _ => .pure ()
  | clearLog => exact fun _ => rfl
  | _ => cases h

/-- Giving the select on top its table, or opening a select. -/
lemma obeyed_fromTable (table : TableRef) (engine : Engine σ) :
    (Role.completes table).Obeyed (Engine.fromTable table engine).1 engine.stack
      (Engine.fromTable table engine).2.stack := by
  obtain ⟨stack, session⟩ := engine
  cases stack with
  | nil => exact ⟨rfl, .inr ⟨by simp, rfl⟩⟩
  | cons top rest =>
      rw [Engine.fromTable_cons]
      split
      · next h => exact ⟨rfl, .inl ⟨top, rest, rfl, h.1, h.2, rfl⟩⟩
      · next h =>
          refine ⟨rfl, .inr ⟨fun top' rest' hstack => ?_, rfl⟩⟩
          obtain ⟨rfl, -⟩ := List.cons.inj hstack
          exact h

/-- **A call does what it is for**, and nothing else. -/
theorem obeyed_role (request : Request) (engine : Engine σ) :
    request.role.Obeyed (request.run ctx engine).1 engine.stack
      (request.after ctx engine).stack := by
  rw [after]
  cases hrole : request.role with
  | opens statement =>
      rw [run_of_opens ctx hrole]
      exact ⟨rfl, rfl⟩
  | completes table =>
      rw [run_of_completes ctx hrole]
      exact obeyed_fromTable table engine
  | edits call change =>
      rw [run_of_edits ctx hrole]
      exact Engine.leaves_clause call change engine
  | ends => exact ends_of_ends ctx hrole engine
  | shows => exact neutral_of_shows ctx hrole engine

end Request

/-! ## Rows of calls -/

namespace Engine

/-- Statements at the bottom of the stack stay there as long as every call finds them suspended. -/
lemma suffix_after (ctx : Context σ) {engine : Engine σ} {below : List Statement}
    (requests : List Request) (hbelow : below <:+ engine.stack)
    (hsuspended : ∀ n < requests.length,
      below.length ≤ (Engine.after ctx engine (requests.take n)).suspended) :
    below <:+ (Engine.after ctx engine requests).stack := by
  induction requests generalizing engine with
  | nil => exact hbelow
  | cons request requests ih =>
      have hlength : below.length ≤ engine.stack.tail.length := by
        rw [stack, StatementStack.tail_toList]
        exact hsuspended 0 (Nat.succ_pos _)
      have htail : below <:+ engine.stack.tail :=
        List.suffix_of_suffix_length_le hbelow (List.tail_suffix _) hlength
      refine ih (htail.trans (request.obeyed_role ctx engine).suffix) fun n hn => ?_
      exact hsuspended (n + 1) (Nat.succ_lt_succ hn)

/-- **The statements of an engine are a stack.**  Every call, whether it succeeds or not, does to
the stack what its role says: opening pushes a statement, giving a table pushes one unless the top
is a select that lacks its table, a clause changes the top alone or takes it away, the calls that
finish a statement take the top away, and looking changes nothing.  So a row of calls leaves the
statements at the bottom as they are, for as long as each of the calls finds them suspended.  And
if no statement is under construction, none is suspended. -/
theorem stack_discipline (ctx : Context σ) (engine : Engine σ) :
    (∀ request : Request, request.role.Obeyed (request.run ctx engine).1 engine.stack
      (request.after ctx engine).stack)
    ∧ (∀ (requests : List Request) (below : List Statement), below <:+ engine.stack →
      (∀ n < requests.length,
        below.length ≤ (Engine.after ctx engine (requests.take n)).suspended) →
      below <:+ (Engine.after ctx engine requests).stack)
    ∧ (engine.activity = none → engine.suspended = 0) := by
  refine ⟨fun request => request.obeyed_role ctx engine, fun requests below => ?_, fun hnone => ?_⟩
  · exact suffix_after ctx requests
  · have hactive : engine.statements.active = none := Option.map_eq_none_iff.mp hnone
    rw [suspended, engine.statements.settled hactive, List.length_nil]

/-- An insert that is opened above a select and given a limit, which no insert has, is gone, and the
select is as it was. -/
theorem stack_of_failed_insert :
    let driver : Driver Unit := ⟨.mysql, fun _ _ s => (.ok [], s), fun _ _ s => (.ok ⟨0, none⟩, s),
      fun _ s => (.ok [], s)⟩
    let ctx : Context Unit := .ofConfig driver {}
    let users : Statement := { activity := .select, fields := [.parse "name"] }
    let engine : Engine Unit := ⟨[.ofTable .insert ⟨"posts", none⟩, users], { connection := () }⟩
    let requests : List Request := [.values (.obj [("title", .str "t")]), .limit ⟨none, some 1⟩]
    (Engine.after ctx engine requests).stack = [users]
      ∧ (∀ n < requests.length, 1 ≤ (Engine.after ctx engine (requests.take n)).suspended)
      ∧ [users] <:+ (Engine.after ctx engine requests).stack := by
  intro driver ctx users engine requests
  have hsuspended : ∀ n < requests.length,
      1 ≤ (Engine.after ctx engine (requests.take n)).suspended := by
    intro n hn
    have hcases : n = 0 ∨ n = 1 := by
      have hlength : requests.length = 2 := rfl
      omega
    rcases hcases with rfl | rfl <;> exact le_rfl
  refine ⟨rfl, hsuspended, ?_⟩
  exact (stack_discipline ctx engine).2.1 requests [users] (List.suffix_cons _ _) hsuspended

end Engine

end RelQuery
