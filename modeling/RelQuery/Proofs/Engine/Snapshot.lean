import RelQuery.Proofs.Engine.Chronicle

/-!
# Rows of one moment

A result set may be asked about its rows many times.  The first call that can loads them, with all
relations, and from then on every call is answered from these rows.  Loading can fail halfway: the
driver may refuse the statement, or that of a relation of any depth, and related rows may lack their
key.  Whatever was loaded by then is dropped, and the next call starts again.

* `Inquiry` is one call, `Inquiry.ask` makes it, and `Inquiry.view` is what it says about some rows.
* `ResultSet.askAll` makes one call after the other.
* `ResultSet.Attempts` says that loading is tried once, `ResultSet.Fails` that it fails some times
  in a row.
* **`ResultSet.askAll_loads_once`** — calls fail until the rows are loaded; all others are answered
  from the same rows, and do nothing.
-/

namespace RelQuery

variable {σ α β : Type}

/-! ## Calls -/

/-- What a result set answers. -/
inductive Answer where
  | rows (rows : List Row)
  | row (row : Option Row)
  | size (size : Nat)
  | truth (truth : Bool)
  | values (values : List Value)
  | object (object : Row)
  | value (value : Value)

/-- A call to a result set: a look at the rows, or the question whether there are any.  Going
through the rows one by one is looking at all of them. -/
inductive Inquiry where
  | read (reading : Reading)
  | isEmpty

namespace ResultSet

/-- What a call returns, and what it leaves behind. -/
abbrev Outcome (σ : Type) := (Except Error Answer × ResultSet) × Session σ

/-- A look with the answer in another form. -/
def Look.map (f : α → β) (look : Look σ α) : Look σ β := fun session =>
  (((look session).1.1.map f, (look session).1.2), (look session).2)

lemma map_look (ctx : Context σ) (result : ResultSet) (view : List Row → Except Error α)
    (f : α → β) :
    (result.look ctx view).map f = result.look ctx fun rows => (view rows).map f := by
  funext session
  rw [Look.map]
  cases hrows : result.rows with
  | some rows => rw [look_of_rows_eq_some ctx hrows, look_of_rows_eq_some ctx hrows]
  | none =>
      rw [look_of_rows_eq_none ctx hrows, look_of_rows_eq_none ctx hrows]
      cases result.materialize ctx session with
      | mk answer t => cases answer <;> rfl

end ResultSet

/-- Look at the rows of a result set. -/
def Reading.ask (ctx : Context σ) (result : ResultSet) : Reading → ResultSet.Look σ Answer
  | .rows => (result.allRows ctx).map .rows
  | .get index => (result.get ctx index).map .row
  | .firstRow => (result.firstRow ctx).map .row
  | .size => (result.size ctx).map .size
  | .column field => (result.column ctx field).map .values
  | .combine values key glue => (result.combine ctx values key glue).map .object
  | .keyedBy field => (result.keyedBy ctx field).map .object
  | .groupedBy field => (result.groupedBy ctx field).map .object
  | .shaped => (result.shaped ctx).map .value

/-- What is to be seen in some rows, under the name and in the shape that the result set gives
them. -/
def Reading.view (result : ResultSet) (rows : List Row) : Reading → Except Error Answer
  | .rows => .ok (.rows rows)
  | .get index => .ok (.row rows[index]?)
  | .firstRow => .ok (.row rows.head?)
  | .size => .ok (.size rows.length)
  | .column field => .ok (.values (Rows.column rows field))
  | .combine values key glue =>
    (Rows.combine rows values key glue result.aliasName).map .object
  | .keyedBy field => (Rows.keyedBy rows field result.aliasName).map .object
  | .groupedBy field => (Rows.groupedBy rows field result.aliasName).map .object
  | .shaped => match result.shaping with
    | some shaping => (shaping.apply rows result.aliasName).map .value
    | none => .ok (.value (Rows.toValue rows))

lemma Reading.ask_eq_look (ctx : Context σ) (result : ResultSet) (reading : Reading) :
    reading.ask ctx result = result.look ctx fun rows => reading.view result rows := by
  cases reading with
  | firstRow =>
      rw [ask, ResultSet.firstRow, ResultSet.get, ResultSet.map_look]
      congr 1
      funext rows
      rw [view, List.head?_eq_getElem?]
      rfl
  | shaped =>
      rw [ask, ResultSet.shaped, ResultSet.map_look]
      congr 1
      funext rows
      rw [view]
      cases result.shaping <;> rfl
  | _ => exact result.map_look ctx _ _

namespace Inquiry

variable {ctx : Context σ} {result : ResultSet}

/-- Ask a result set. -/
def ask (ctx : Context σ) (result : ResultSet) : Inquiry → ResultSet.Look σ Answer
  | read reading => reading.ask ctx result
  | isEmpty => (result.isEmpty ctx).map .truth

/-- What a call says about some rows. -/
def view (result : ResultSet) (rows : List Row) : Inquiry → Except Error Answer
  | read reading => reading.view result rows
  | isEmpty => .ok (.truth rows.isEmpty)

/-- The answer about rows that are there; the call has left everything as it was. -/
def answered (result : ResultSet) (rows : List Row) (session : Session σ) (inquiry : Inquiry) :
    ResultSet.Outcome σ :=
  ((inquiry.view result rows, result.setRows rows), session)

lemma ask_eq_look (ctx : Context σ) (result : ResultSet) (inquiry : Inquiry) :
    inquiry.ask ctx result = result.look ctx fun rows => inquiry.view result rows := by
  cases inquiry with
  | read reading => exact reading.ask_eq_look ctx result
  | isEmpty => exact result.map_look ctx _ _

/-- What is said about rows depends on them and not on those that were there before. -/
lemma view_setRows (rows others : List Row) (inquiry : Inquiry) :
    inquiry.view (result.setRows others) rows = inquiry.view result rows := by
  cases inquiry with
  | read reading => cases reading <;> rfl
  | isEmpty => rfl

/-! ## One call -/

variable {s t : Session σ} {rows : List Row}

/-- **Rows that are there are seen as they are**, and nothing is done. -/
lemma ask_setRows (inquiry : Inquiry) (s : Session σ) :
    inquiry.ask ctx (result.setRows rows) s = inquiry.answered result rows s := by
  rw [ask_eq_look, ResultSet.look_of_rows_eq_some ctx rfl, view_setRows, answered]

/-- A call that fails to load leaves the result set without rows. -/
lemma ask_of_error (hrows : result.rows = none) {e : Error}
    (h : result.materialize ctx s = (.error e, t)) (inquiry : Inquiry) :
    inquiry.ask ctx result s = ((.error e, result), t) := by
  rw [ask_eq_look, ResultSet.look_of_rows_eq_none ctx hrows, h]

/-- A call that loads the rows leaves them there, even if it can make nothing of them. -/
lemma ask_of_ok (hrows : result.rows = none) (h : result.materialize ctx s = (.ok rows, t))
    (inquiry : Inquiry) : inquiry.ask ctx result s = inquiry.answered result rows t := by
  rw [ask_eq_look, ResultSet.look_of_rows_eq_none ctx hrows, h, answered]

end Inquiry

/-! ## Calls in a row -/

namespace ResultSet

/-- Ask one after the other, and each time what the call before has left. -/
def askAll (ctx : Context σ) : List Inquiry → ResultSet → Session σ → List (Outcome σ)
  | [], _, _ => []
  | inquiry :: inquiries, result, session =>
    let outcome := inquiry.ask ctx result session
    outcome :: askAll ctx inquiries outcome.1.2 outcome.2

/-- Loading is tried once: it begins with sending the statement of the result set, and sends
nothing else but statements that it has finalized itself. -/
structure Attempts (ctx : Context σ) (result : ResultSet) (s : Session σ)
    (loaded : Except Error (List Row)) (t : Session σ) : Prop where
  run : result.materialize ctx s = (loaded, t)
  deeds : ∃ deeds, Deed.Dispatched result.prepared deeds ∧ t = s.replay ctx deeds

/-- Loading is tried some times, each time in the session that the time before has left, and fails
each time. -/
inductive Fails (ctx : Context σ) (result : ResultSet) :
    Session σ → List (Error × Session σ) → Session σ → Prop
  | nil (s : Session σ) : Fails ctx result s [] s
  | cons {s t last : Session σ} {e : Error} {failures : List (Error × Session σ)} :
    result.Attempts ctx s (.error e) t → Fails ctx result t failures last →
      Fails ctx result s ((e, t) :: failures) last

/-- What a call returns if loading fails: the error, and the result set as it was. -/
def failed (result : ResultSet) (failure : Error × Session σ) : Outcome σ :=
  ((.error failure.1, result), failure.2)

section

variable (ctx : Context σ)

lemma attempts_materialize (result : ResultSet) (s : Session σ) :
    result.Attempts ctx s (result.materialize ctx s).1 (result.materialize ctx s).2 := by
  obtain ⟨deeds, hsession, hdeeds⟩ := dispatches_materializeTo ctx result.plan.depth result s
  exact ⟨rfl, deeds, hdeeds, hsession⟩

/-- Rows that are there answer all calls. -/
lemma askAll_setRows (inquiries : List Inquiry) (result : ResultSet) (rows : List Row)
    (session : Session σ) : askAll ctx inquiries (result.setRows rows) session
      = inquiries.map (Inquiry.answered result rows session) := by
  induction inquiries with
  | nil => rfl
  | cons inquiry inquiries ih =>
      rw [askAll, Inquiry.ask_setRows, List.map_cons]
      exact congrArg _ ih

/-- **The rows are loaded once.**  As long as a result set has no rows, each call sends its
statement and tries to load them.  If that fails, the call returns the error, and the result set
stays as it was.  As soon as it succeeds, the rows stay: this call and all after it are answered
from the same rows, and no further call changes the session, so nothing is asked of the driver any
more.  It is the same from the start if the result set is given its rows. -/
theorem askAll_loads_once (result : ResultSet) (inquiries : List Inquiry) (session : Session σ) :
    (result.rows = none → ∃ failures last, result.Fails ctx session failures last
      ∧ (failures.length = inquiries.length
          ∧ askAll ctx inquiries result session = failures.map result.failed
        ∨ failures.length < inquiries.length
          ∧ ∃ rows loaded, result.Attempts ctx last (.ok rows) loaded
            ∧ askAll ctx inquiries result session = failures.map result.failed
              ++ (inquiries.drop failures.length).map (Inquiry.answered result rows loaded)))
    ∧ ∀ rows, askAll ctx inquiries (result.setRows rows) session
        = inquiries.map (Inquiry.answered result rows session) := by
  refine ⟨fun hrows => ?_, fun rows => askAll_setRows ctx inquiries result rows session⟩
  induction inquiries generalizing session with
  | nil => exact ⟨[], session, .nil session, .inl ⟨rfl, rfl⟩⟩
  | cons inquiry inquiries ih =>
      have hattempts := attempts_materialize ctx result session
      cases hrun : result.materialize ctx session with
      | mk loaded t =>
          rw [hrun] at hattempts
          cases loaded with
          | ok rows =>
              refine ⟨[], session, .nil session, .inr ⟨Nat.succ_pos _, rows, t, hattempts, ?_⟩⟩
              rw [askAll, Inquiry.ask_of_ok hrows hrun]
              exact congrArg _ (askAll_setRows ctx inquiries result rows t)
          | error e =>
              have hask : askAll ctx (inquiry :: inquiries) result session
                  = result.failed (e, t) :: askAll ctx inquiries result t := by
                rw [askAll, Inquiry.ask_of_error hrows hrun]
                rfl
              obtain ⟨failures, last, hfails, hrest⟩ := ih t
              refine ⟨(e, t) :: failures, last, .cons hattempts hfails, ?_⟩
              rw [hask]
              obtain ⟨hlength, hall⟩ | ⟨hlength, rows, u, hloaded, hall⟩ := hrest
              · exact .inl ⟨congrArg (· + 1) hlength, congrArg _ hall⟩
              · exact .inr ⟨Nat.succ_lt_succ hlength, rows, u, hloaded, congrArg _ hall⟩

end

end ResultSet

/-! ## A driver that refuses -/

namespace Sample

/-- A driver that gives one reply after the other, and may refuse. -/
def flaky : Driver (List (Except DriverFailure (List Row))) where
  dialect := .mysql
  fetch := fun _ _ replies => (replies.headD (.ok []), replies.tail)
  execute := fun _ _ replies => (.ok ⟨0, none⟩, replies)
  columns := fun _ replies => (.ok [], replies)

def flakyCtx : Context (List (Except DriverFailure (List Row))) := .ofConfig flaky {}

/-- Users with their posts. -/
def writers : ResultSet where
  prepared := ⟨.select, "SELECT * FROM \x60users\x60", .empty⟩
  plan := { deferred := [posts] }
  shaping := none
  aliasName := "users"

def writer : Row := ⟨[("id", .str "1")]⟩

def writerWithPosts : Row := ⟨[("id", .str "1"), ("posts", .arr [post.toValue])]⟩

/-- The first time, the statement of the posts is refused. -/
def refusing : Session (List (Except DriverFailure (List Row))) where
  connection := [.ok [writer], .error ⟨none, "gone away"⟩, .ok [writer], .ok [post]]

/-- How many rows, the rows by a column that they do not have, and whether there are any. -/
def inquiries : List Inquiry := [.read .size, .read (.keyedBy "name"), .isEmpty]

end Sample

open Sample in
/-- The writer without posts is not kept, and the writer with posts is, although the call that loads
it fails. -/
theorem ResultSet.asked_of_refusing :
    writers.rows = none ∧ ∃ failure last loaded,
      writers.Fails flakyCtx refusing [failure] last
      ∧ writers.Attempts flakyCtx last (.ok [writerWithPosts]) loaded
      ∧ askAll flakyCtx inquiries writers refusing
        = [writers.failed failure,
          ((.error (.missingKey "name" "users"), writers.setRows [writerWithPosts]), loaded),
          ((.ok (.truth false), writers.setRows [writerWithPosts]), loaded)] := by
  have hkept : (askAll flakyCtx inquiries writers refusing).map (fun outcome => outcome.1.2.rows)
      = [none, some [writerWithPosts], some [writerWithPosts]] := rfl
  obtain ⟨failures, last, hfails, hall⟩ :=
    (askAll_loads_once flakyCtx writers inquiries refusing).1 rfl
  obtain ⟨-, hall⟩ | ⟨-, rows, loaded, hloaded, hall⟩ := hall
  · rw [hall] at hkept
    rcases failures with _ | ⟨_, _ | _⟩ <;> cases hkept
  · rw [hall] at hkept
    rcases failures with _ | ⟨failure, _ | _⟩
    · cases hkept
    · obtain rfl : rows = [writerWithPosts] := by
        cases hkept
        rfl
      exact ⟨rfl, failure, last, loaded, hfails, hloaded, hall⟩
    · cases hkept

end RelQuery
