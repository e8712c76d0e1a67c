import Mathlib
import RelQuery.Engine.Basic

/-!
# Computations that succeed

Everything an engine does is a row of steps, and it succeeds if all of them do.  A computation that
has succeeded is taken apart with the equations here, step by step.

* **`run_bind_eq_ok`** — two steps succeed if the first does and the second does from there on.
* `Session.Makes` says what a computation returns, in whatever state it is started.
-/

namespace RelQuery

/-! ## Steps -/

section Steps

variable {S α β : Type} {s t : S}

/-- The second of two steps starts where the first has led, unless that one has failed. -/
lemma run_bind (x : ExceptT Error (StateM S) α) (f : α → ExceptT Error (StateM S) β) (s : S) :
    (x >>= f) s = match x s with
      | (.ok a, u) => f a u
      | (.error e, u) => (.error e, u) := by
  show (ExceptT.bindCont f (x s).1) (x s).2 = _
  cases hx : x s with
  | mk result u => cases result <;> rfl

/-- Two second steps are as good as each other if they do the same where the first has led. -/
lemma run_bind_congr {x : ExceptT Error (StateM S) α} {f g : α → ExceptT Error (StateM S) β}
    (h : ∀ a t, x s = (.ok a, t) → f a t = g a t) : (x >>= f) s = (x >>= g) s := by
  rw [run_bind, run_bind]
  cases hx : x s with
  | mk result u =>
      cases result with
      | error e => rfl
      | ok a => exact h a u hx

/-- **Two steps succeed if each of them does**, the second from where the first has led. -/
theorem run_bind_eq_ok {x : ExceptT Error (StateM S) α} {f : α → ExceptT Error (StateM S) β}
    {b : β} : (x >>= f) s = (.ok b, t) ↔ ∃ a u, x s = (.ok a, u) ∧ f a u = (.ok b, t) := by
  rw [run_bind]
  cases hx : x s with
  | mk result u =>
      cases result with
      | error e =>
          constructor
          · intro h
            cases h
          · rintro ⟨a, u, h, -⟩
            cases h
      | ok a =>
          constructor
          · exact fun h => ⟨a, u, rfl, h⟩
          · rintro ⟨a', u', h, hf⟩
            cases h
            exact hf

lemma run_pure_eq_ok {a b : α} :
    (pure a : ExceptT Error (StateM S) α) s = (.ok b, t) ↔ a = b ∧ s = t := by
  show ((Except.ok a, s) : Except Error α × S) = (Except.ok b, t) ↔ _
  simp

lemma run_throw_ne_ok {e : Error} {b : α} :
    (throw e : ExceptT Error (StateM S) α) s ≠ (.ok b, t) := by
  show ((Except.error e, s) : Except Error α × S) ≠ (Except.ok b, t)
  simp

lemma run_modify_eq_ok {f : S → S} {u : Unit} :
    (modify f : ExceptT Error (StateM S) Unit) s = (.ok u, t) ↔ f s = t := by
  show ((Except.ok (), f s) : Except Error Unit × S) = (Except.ok u, t) ↔ _
  simp

end Steps

/-! ## Sessions -/

namespace Session

variable {σ α β : Type} {s t : Session σ}

lemma run_ofExcept_eq_ok {result : Except Error α} {a : α} :
    Session.ofExcept result s = (.ok a, t) ↔ result = .ok a ∧ s = t := by
  cases result with
  | error e => exact iff_of_false run_throw_ne_ok (by simp)
  | ok b =>
      rw [Except.ok.injEq]
      exact run_pure_eq_ok

/-- A call of the driver changes the connection, and returns the reply or announces a refusal. -/
lemma run_call (sql : String) (bindings : Bindings)
    (request : σ → Except DriverFailure α × σ) (s : Session σ) :
    Context.call sql bindings request s = match request s.connection with
      | (.ok a, connection) => (.ok a, { s with connection })
      | (.error failure, connection) => (.error (.driver failure sql bindings),
          { s with connection, events := .driverFailure failure sql :: s.events }) := by
  -- of the request only its reply counts
  show Context.call sql bindings (fun _ => request s.connection) s = _
  rcases request s.connection with ⟨_ | _, connection⟩ <;> rfl

/-- What a computation returns if it succeeds, in whatever session. -/
def Makes (run : Session.Run σ α) (post : α → Prop) : Prop :=
  ∀ s a t, run s = (.ok a, t) → post a

namespace Makes

variable {run : Session.Run σ α} {post post' : α → Prop}

lemma trivial (run : Session.Run σ α) : Makes run fun _ => True := fun _ _ _ _ => True.intro

lemma pure {a : α} (h : post a) : Makes (Pure.pure a : Session.Run σ α) post := by
  intro s b t hrun
  obtain ⟨rfl, -⟩ := run_pure_eq_ok.mp hrun
  exact h

lemma throw (e : Error) : Makes (MonadExcept.throw e : Session.Run σ α) post :=
  fun _ _ _ hrun => absurd hrun run_throw_ne_ok

lemma bind (h : Makes run post) {f : α → Session.Run σ β} {next : β → Prop}
    (hf : ∀ a, post a → Makes (f a) next) : Makes (run >>= f) next := by
  intro s b t hrun
  obtain ⟨a, u, ha, hb⟩ := run_bind_eq_ok.mp hrun
  exact hf a (h s a u ha) u b t hb

end Makes

end Session

end RelQuery
