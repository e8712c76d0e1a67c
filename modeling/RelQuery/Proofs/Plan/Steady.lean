import RelQuery.Proofs.Plan.Stable

/-!
# Drivers that always reply the same

What is built and read depends on the replies of the driver, and on nothing else that a session has:
neither on what was logged, nor on what was announced.  So if each statement always gets the same
reply, a computation returns the same in all sessions.

* `Driver.Steady` is a driver with one reply to each statement.
* `Session.Settled` is a computation that returns the same in all sessions.
* **`ResultSet.settled_materializeTo`** — the rows of a result set, with all relations in them, are
  the same in all sessions.
-/

namespace RelQuery

variable {σ α β : Type}

/-- A driver whose reply depends on the statement only. -/
structure Driver.Steady (driver : Driver σ) : Prop where
  fetch : ∀ sql bindings s s', (driver.fetch sql bindings s).1 = (driver.fetch sql bindings s').1
  columns : ∀ table s s', (driver.columns table s).1 = (driver.columns table s').1

/-! ## Sessions -/

namespace Session

/-- A computation that returns the same in all sessions. -/
def Settled (run : Session.Run σ α) : Prop := ∀ s s', (run s).1 = (run s').1

namespace Settled

lemma bind {x : Session.Run σ α} {f : α → Session.Run σ β} {post : α → Prop} (hx : Settled x)
    (hpost : Makes x post) (hf : ∀ a, post a → Settled (f a)) : Settled (x >>= f) := by
  intro s s'
  have hfirst := hx s s'
  rw [run_bind, run_bind]
  cases h : x s with
  | mk result u =>
      cases h' : x s' with
      | mk result' u' =>
          obtain rfl : result = result' := by rwa [h, h'] at hfirst
          cases result with
          | error e => rfl
          | ok a => exact hf a (hpost s a u h) u u'

lemma call {sql : String} {bindings : Bindings} {request : σ → Except DriverFailure α × σ}
    (h : ∀ s s', (request s).1 = (request s').1) :
    Settled (Context.call sql bindings request) := by
  intro s s'
  have hreply := h s.connection s'.connection
  rw [run_call, run_call]
  rcases hfirst : request s.connection with ⟨reply, connection⟩
  rcases hsecond : request s'.connection with ⟨reply', connection'⟩
  obtain rfl : reply = reply' := by rwa [hfirst, hsecond] at hreply
  cases reply <;> rfl

end Settled

end Session

open Session

variable {ctx : Context σ}

lemma Context.settled_fetch (h : ctx.driver.Steady) (prepared : Prepared) :
    Settled (ctx.fetch prepared) :=
  .call (h.fetch _ _)

/-- With such a driver, all that is made of steps returns the same in all sessions. -/
lemma Driver.Steady.stable (h : ctx.driver.Steady) :
    Stable ctx (fun _ run => Settled run) fun _ => True where
  pure _ := fun _ _ => rfl
  throw _ := fun _ _ => rfl
  bind := Settled.bind
  note _ _ := fun _ _ => rfl
  columns table := .call (h.columns table)
  noColumns _ _ := trivial

lemma Relation.settled_expand (h : ctx.driver.Steady) (withFields : Bool)
    (parentAlias parentTable : String) (path : List String) (relation : Relation) :
    Settled (relation.expand ctx withFields parentAlias parentTable path) :=
  h.stable.planned.expand withFields parentAlias parentTable path relation

/-- The select of the related rows is the same in all sessions. -/
lemma Deferred.settled_request (h : ctx.driver.Steady) (deferred : Deferred) (keys : List Value) :
    Settled (Engine.alone (deferred.request ctx keys)) :=
  h.stable.request (fun _ _ => trivial) fun _ _ _ => trivial

/-- **The rows of a result set are the same in all sessions**, with all relations in them. -/
theorem ResultSet.settled_materializeTo (h : ctx.driver.Steady) (depth : Nat)
    (result : ResultSet) : Settled (result.materializeTo ctx depth) :=
  h.stable.materializeTo (fun _ _ => trivial) (Context.settled_fetch h) (fun _ => True)
    (fun _ _ deferred _ keys => ⟨Deferred.settled_request h deferred keys, Makes.trivial _⟩)
    depth trivial

end RelQuery
