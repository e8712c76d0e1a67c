import RelQuery.Proofs.Session.Steps

/-!
# Counting queries

How many queries a computation sends cannot be seen from what it returns.  It can be seen with a
driver that writes down each query before it passes it on.

* `Driver.recording` is that driver, `Session.fetched` what it has written down.
* **`Session.FetchesAtMost.bind`** — two steps send no more queries than both of them together.
-/

namespace RelQuery

open Session

variable {σ α β : Type}

/-! ## Recording -/

/-- A driver as another one, that keeps the queries it was sent, oldest first. -/
def Driver.recording (driver : Driver σ) : Driver (σ × List (String × Bindings)) where
  dialect := driver.dialect
  fetch sql bindings state :=
    let (reply, connection) := driver.fetch sql bindings state.1
    (reply, connection, state.2 ++ [(sql, bindings)])
  execute sql bindings state :=
    let (reply, connection) := driver.execute sql bindings state.1
    (reply, connection, state.2)
  columns table state :=
    let (reply, connection) := driver.columns table state.1
    (reply, connection, state.2)

/-- The same session with a driver that keeps the queries. -/
def Context.recording (ctx : Context σ) : Context (σ × List (String × Bindings)) :=
  { ctx with driver := ctx.driver.recording }

/-- The queries that were sent in a session. -/
def Session.fetched (session : Session (σ × List (String × Bindings))) :
    List (String × Bindings) :=
  session.connection.2

/-! ## Bounds -/

/-- A computation that sends a number of queries at most, whatever it returns. -/
def Session.FetchesAtMost (n : Nat) (run : Session.Run (σ × List (String × Bindings)) α) : Prop :=
  ∀ session, ∃ sent, (run session).2.fetched = session.fetched ++ sent ∧ sent.length ≤ n

namespace Session.FetchesAtMost

variable {m n : Nat} {x : Session.Run (σ × List (String × Bindings)) α}

lemma mono (h : FetchesAtMost m x) (hle : m ≤ n) : FetchesAtMost n x := by
  intro session
  obtain ⟨sent, hsent, hlength⟩ := h session
  exact ⟨sent, hsent, hlength.trans hle⟩

/-- A computation after which no query has been added. -/
lemma of_fetched_eq (h : ∀ session, (x session).2.fetched = session.fetched) :
    FetchesAtMost n x :=
  fun session => ⟨[], by rw [h session, List.append_nil], Nat.zero_le n⟩

/-- **Two steps send no more queries than both of them together**, and none in the second one if
the first one fails. -/
theorem bind {f : α → Session.Run (σ × List (String × Bindings)) β} {post : α → Prop}
    (hx : FetchesAtMost m x) (hpost : Makes x post) (hf : ∀ a, post a → FetchesAtMost n (f a)) :
    FetchesAtMost (m + n) (x >>= f) := by
  intro session
  obtain ⟨sent, hsent, hlength⟩ := hx session
  rw [run_bind]
  cases h : x session with
  | mk result next =>
      rw [h] at hsent
      cases result with
      | error e => exact ⟨sent, hsent, hlength.trans (Nat.le_add_right m n)⟩
      | ok a =>
          obtain ⟨rest, hrest, hlength'⟩ := hf a (hpost session a next h) next
          refine ⟨sent ++ rest, ?_, ?_⟩
          · rw [hrest, hsent, List.append_assoc]
          · rw [List.length_append]
            exact Nat.add_le_add hlength hlength'

/-- A step that sends nothing leaves the bound to the other one. -/
lemma bind_right {f : α → Session.Run (σ × List (String × Bindings)) β} {post : α → Prop}
    (hx : FetchesAtMost 0 x) (hpost : Makes x post) (hf : ∀ a, post a → FetchesAtMost n (f a)) :
    FetchesAtMost n (x >>= f) :=
  (hx.bind hpost hf).mono (Nat.zero_add n).le

/-- A call of the driver, and what becomes of its reply. -/
lemma call {sql : String} {bindings : Bindings}
    {request : σ × List (String × Bindings) →
      Except DriverFailure α × σ × List (String × Bindings)}
    (h : ∀ state, ∃ sent, (request state).2.2 = state.2 ++ sent ∧ sent.length ≤ n) :
    FetchesAtMost n (Context.call sql bindings request) := by
  intro session
  obtain ⟨sent, hsent, hlength⟩ := h session.connection
  refine ⟨sent, Eq.trans ?_ hsent, hlength⟩
  rw [run_call]
  rcases request session.connection with ⟨_ | _, connection⟩ <;> rfl

lemma fetch (ctx : Context σ) (prepared : Prepared) :
    FetchesAtMost 1 (ctx.recording.fetch prepared) :=
  call fun _ => ⟨[(prepared.sql, prepared.bindings)], rfl, le_rfl⟩

lemma columns (ctx : Context σ) (table : String) :
    FetchesAtMost 0 (ctx.recording.columns table) :=
  call fun _ => ⟨[], (List.append_nil _).symm, le_rfl⟩

end Session.FetchesAtMost

end RelQuery
