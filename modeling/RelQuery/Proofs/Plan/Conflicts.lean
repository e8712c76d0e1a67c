import RelQuery.Proofs.Plan.Queries
import RelQuery.Proofs.Query.Failures

/-!
# Relations that cannot be loaded

The select of the related rows takes names of its own: those of its table, of a junction table, and
of the relations nested in the one that is loaded.  They are compared when it is written, so a
relation that takes a name twice is declared and contained all the same, and is refused as soon as a
parent has a key to load it by.

* `Relation.Postponed` are the relations that may be loaded for a select, at any depth.
* **`ResultSet.givesUpOnly_materialize`** — if none of them takes a name twice, loading gives up for
  a name or a condition that cannot be read, for a column that is missing, or for the driver.
* **`Deferred.aliasTaken_request_iff`** — the select of one that takes a name twice is refused for
  that, in every session and for all keys.
* **`ResultSet.ambiguous_of_aliasTaken`** — both, for the result set of a select.
-/

namespace RelQuery

open Session

variable {σ α β : Type}

/-- A cause for which loading the rows of a select gives up, once all selects are put together. -/
inductive Error.InLoading : Error → Prop
  | select {e : Error} (h : e.InSelect) : InLoading e
  | noColumns (table aliasName : String) :
      InLoading (.configuration (.noColumns table aliasName))
  | missingKey {e : Error} (h : e.IsMissingKey) : InLoading e
  | driver (failure : DriverFailure) (sql : String) (bindings : Bindings) :
      InLoading (.driver failure sql bindings)

lemma Error.not_inLoading_aliasTaken (name : String) :
    ¬ InLoading (.configuration (.aliasTaken name)) := by
  intro h
  cases h with
  | select h => cases h
  | missingKey h =>
      obtain ⟨_, _, h⟩ := h
      cases h

/-! ## Computations that give up -/

/-- A computation that gives up with errors of some kind only, in every session. -/
def Session.GivesUpOnly (kind : Error → Prop) (run : Session.Run σ α) : Prop :=
  ∀ s, FailsOnly kind (run s).1

namespace Session.GivesUpOnly

lemma bind {kind : Error → Prop} {x : Session.Run σ α} {f : α → Session.Run σ β} {post : α → Prop}
    (hx : GivesUpOnly kind x) (hpost : Makes x post) (hf : ∀ a, post a → GivesUpOnly kind (f a)) :
    GivesUpOnly kind (x >>= f) := by
  intro s
  have hfirst := hx s
  rw [run_bind]
  cases h : x s with
  | mk result u =>
      rw [h] at hfirst
      cases result with
      | error e => exact .error (hfirst e rfl)
      | ok a => exact hf a (hpost s a u h) u

lemma call (sql : String) (bindings : Bindings) (request : σ → Except DriverFailure α × σ) :
    GivesUpOnly Error.InLoading (Context.call sql bindings request) := by
  intro s
  rw [run_call]
  rcases request s.connection with ⟨reply, connection⟩
  cases reply with
  | error failure => exact .error (.driver failure sql bindings)
  | ok a => exact .ok a

lemma stable (ctx : Context σ) :
    Stable ctx (fun _ run => GivesUpOnly Error.InLoading run) Error.InLoading where
  pure a := fun _ => .ok a
  throw h := fun _ => .error h
  bind := bind
  note _ _ := fun _ => .ok ()
  columns _ := call _ _ _
  noColumns := .noColumns

end Session.GivesUpOnly

/-! ## Relations that may be loaded -/

namespace Relation

/-- The relations to many rows that some relations of a parent lead to, at any depth, as they are
put off: those that stand among them, those that joined relations lead to, and those that are nested
in one that is loaded itself. -/
inductive Postponed (naming : Naming) :
    List String → String → List Relation → Deferred → Prop
  | here {path : List String} {parentTable : String} {relations : List Relation}
      {relation : Relation} (h : relation ∈ relations)
      (hmany : relation.link.mode.isToOne = false) :
      Postponed naming path parentTable relations
        (relation.deferred (relation.link.namingOr naming) parentTable path)
  | joined {path : List String} {parentTable : String} {relations : List Relation}
      {relation : Relation} {deferred : Deferred} (h : relation ∈ relations)
      (hone : relation.link.mode.isToOne = true)
      (hinner : Postponed naming (path ++ [relation.aliasName]) relation.link.table
        relation.nested deferred) : Postponed naming path parentTable relations deferred
  | loaded {path : List String} {parentTable : String} {relations : List Relation}
      {relation : Relation} {deferred : Deferred} (h : relation ∈ relations)
      (hmany : relation.link.mode.isToOne = false)
      (hinner : Postponed naming [] (TableRef.parse relation.link.table).name
        relation.nested deferred) : Postponed naming path parentTable relations deferred

namespace Postponed

variable {naming : Naming} {path : List String} {parentTable : String}
  {relations others : List Relation} {deferred inner : Deferred}

lemma mono (h : Postponed naming path parentTable relations deferred) (hsub : relations ⊆ others) :
    Postponed naming path parentTable others deferred := by
  cases h with
  | here h hmany => exact .here (hsub h) hmany
  | joined h hone hinner => exact .joined (hsub h) hone hinner
  | loaded h hmany hinner => exact .loaded (hsub h) hmany hinner

/-- What a relation to many rows leads to itself. -/
lemma trans (h : Postponed naming path parentTable relations deferred)
    (hinner : Postponed naming [] (TableRef.parse deferred.relation.link.table).name
      deferred.relation.nested inner) : Postponed naming path parentTable relations inner := by
  induction h with
  | here h hmany => exact .loaded h hmany hinner
  | joined h hone _ ih => exact .joined h hone (ih hinner)
  | loaded h hmany _ ih => exact .loaded h hmany (ih hinner)

end Postponed

end Relation

/-- A plan puts off what may be loaded for some relations of a parent. -/
def Plan.PutsOff (naming : Naming) (path : List String) (parentTable : String)
    (relations : List Relation) (plan : Plan) : Prop :=
  ∀ deferred ∈ plan.deferred, Relation.Postponed naming path parentTable relations deferred

/-- A plan puts off what may be loaded for its relations. -/
lemma Plan.inductive_putsOff (naming : Naming) : Relation.InductiveBy naming
    (fun path parentTable relation => PutsOff naming path parentTable [relation])
    (PutsOff naming) where
  joined path parentTable link nested join columns inner hone hinner := fun deferred hdeferred =>
    .joined (List.mem_singleton_self (Relation.mk link nested)) hone (hinner deferred hdeferred)
  postponed path parentTable link nested hmany := by
    intro deferred hdeferred
    rw [List.mem_singleton.mp hdeferred]
    exact .here (List.mem_singleton_self (Relation.mk link nested)) hmany
  nil path parentTable := fun deferred hdeferred => absurd hdeferred List.not_mem_nil
  cons path parentTable relation relations plan others hplan hothers := by
    intro deferred hdeferred
    rcases List.mem_append.mp hdeferred with hfirst | hrest
    · exact (hplan deferred hfirst).mono (by simp)
    · exact (hothers deferred hrest).mono (List.subset_cons_self _ _)

/-! ## One request -/

namespace Deferred

variable {ctx : Context σ} {deferred : Deferred} {keys : List Value}

/-- A select that takes no name twice can be put together. -/
lemma givesUpOnly_request (h : deferred.Unambiguous) (keys : List Value) :
    GivesUpOnly Error.InLoading (Engine.alone (deferred.request ctx keys)) := by
  refine (GivesUpOnly.stable ctx).request ?_ fun plan =>
    ((deferred.statement keys).failsOnly_selectQuery plan).mono fun e => .select
  rw [select_eq_ok.mpr ⟨h, rfl⟩]
  exact .ok _

/-- **The select of the related rows is refused for a name exactly if it takes one twice**, whatever
the keys are, and in every session. -/
theorem aliasTaken_request_iff (ctx : Context σ) (deferred : Deferred) (keys : List Value)
    (session : Session σ) :
    (∃ name, (Engine.alone (deferred.request ctx keys) session).1
        = .error (.configuration (.aliasTaken name)))
      ↔ ¬ deferred.Unambiguous := by
  constructor
  · rintro ⟨name, hrefused⟩ hclear
    exact Error.not_inLoading_aliasTaken name (givesUpOnly_request hclear keys session _ hrefused)
  · intro hambiguous
    rw [alone_request, run_bind]
    cases hselect : deferred.select keys with
    | ok statement => exact absurd (select_eq_ok.mp hselect).1 hambiguous
    | error e =>
        obtain ⟨name, rfl⟩ := exists_of_select_eq_error hselect
        exact ⟨name, rfl⟩

/-- What was loaded by a key takes no name twice. -/
lemma unambiguous_of_load {materialize : ResultSet → Session.Run σ (List Row)} {key : Value}
    {groups : List (String × Row)} {s t : Session σ}
    (h : deferred.load materialize ctx (key :: keys) s = (.ok groups, t)) :
    deferred.Unambiguous := by
  obtain ⟨_, _, -, h⟩ := run_bind_eq_ok.mp h
  obtain ⟨result, u, hrequest, -⟩ := run_bind_eq_ok.mp h
  rw [alone_request] at hrequest
  obtain ⟨_, _, hwritten, -⟩ := run_bind_eq_ok.mp hrequest
  exact (select_eq_ok.mp (run_written_eq_ok.mp hwritten).1).1

end Deferred

/-! ## Result sets -/

namespace ResultSet

variable {ctx : Context σ} {result : ResultSet}

/-- **Relations that take no name twice load without a clash of names.** -/
theorem givesUpOnly_materialize {parentTable : String} {relations : List Relation}
    (hclear : ∀ deferred, Relation.Postponed ctx.naming [] parentTable relations deferred →
      deferred.Unambiguous)
    (h : result.plan.PutsOff ctx.naming [] parentTable relations) :
    GivesUpOnly Error.InLoading (result.materialize ctx) := by
  refine (GivesUpOnly.stable ctx).materializeTo (fun _ => .missingKey)
    (fun prepared => .call _ _ _)
    (fun result => result.plan.PutsOff ctx.naming [] parentTable relations) ?_ _ h
  intro result hresult deferred hmem keys
  refine ⟨Deferred.givesUpOnly_request (hclear deferred (hresult deferred hmem)) keys, ?_⟩
  -- What is loaded for a relation is what that relation leads to.
  intro s child t hrun inner hinner
  exact (hresult deferred hmem).trans (Deferred.makes_request ctx keys
    ((Plan.inductive_putsOff ctx.naming).makes_expandAll true _ _ [] _) s child t hrun inner hinner)

/-- Rows are returned only if each relation that a parent has a key for takes no name twice. -/
lemma unambiguous_of_materialize {session t u : Session σ} {rows flat : List Row}
    (h : result.materialize ctx session = (.ok rows, t))
    (hflat : result.flatRows ctx session = (.ok flat, u)) {deferred : Deferred}
    (hmem : deferred ∈ result.plan.deferred) {key : Value} {keys : List Value}
    (hkeys : deferred.keys flat = .ok (key :: keys)) : deferred.Unambiguous := by
  rw [materialize_eq] at h
  obtain ⟨flat', u', hflat', h⟩ := run_bind_eq_ok.mp h
  obtain rfl : flat = flat' := Except.ok.inj (congrArg Prod.fst (hflat.symm.trans hflat'))
  obtain ⟨steps, hsteps, hloads, -⟩ := Deferred.exists_steps_of_attachAll h
  rw [← hsteps] at hmem
  obtain ⟨step, hstep, rfl⟩ := List.mem_map.mp hmem
  obtain ⟨_, _, _, hkeys', hload⟩ := hloads step hstep
  rw [hkeys] at hkeys'
  cases hkeys'
  exact Deferred.unambiguous_of_load hload

/-- **Loading clashes over a name for the relations that take one twice**, and for no others.  If it
is refused for a name, then one of the relations that may be loaded takes a name twice.  The select
of such a relation is always refused, so no rows are returned when a parent has a key for it. -/
theorem ambiguous_of_aliasTaken {statement : Statement} {main : TableRef} {s t : Session σ}
    (hmain : statement.table = some main) (h : statement.resultSet ctx s = (.ok result, t)) :
    (∀ session name,
      (result.materialize ctx session).1 = .error (.configuration (.aliasTaken name)) →
      ∃ deferred, Relation.Postponed ctx.naming [] main.name statement.relations deferred
        ∧ ¬ deferred.Unambiguous)
    ∧ (∀ (deferred : Deferred) (keys : List Value) (session : Session σ),
      (∃ name, (Engine.alone (deferred.request ctx keys) session).1
          = .error (.configuration (.aliasTaken name)))
        ↔ ¬ deferred.Unambiguous)
    ∧ ∀ session flat u, result.flatRows ctx session = (.ok flat, u) →
      ∀ deferred ∈ result.plan.deferred, ∀ key keys, deferred.keys flat = .ok (key :: keys) →
        ¬ deferred.Unambiguous → ∀ rows, (result.materialize ctx session).1 ≠ .ok rows := by
  refine ⟨fun session name hrefused => ?_, Deferred.aliasTaken_request_iff ctx,
    fun session flat u hflat deferred hmem key keys hkeys hambiguous rows hrows => ?_⟩
  · by_contra hnone
    push Not at hnone
    have hputsOff : Makes (statement.resultSet ctx) fun result =>
        result.plan.PutsOff ctx.naming [] main.name statement.relations := by
      refine Statement.makes_resultSet ctx fun table htable => ?_
      obtain rfl : main = table := Option.some.inj (hmain.symm.trans htable)
      exact (Plan.inductive_putsOff ctx.naming).makes_expandAll true _ _ [] _
    exact Error.not_inLoading_aliasTaken name
      (givesUpOnly_materialize hnone (hputsOff s result t h) session _ hrefused)
  · exact hambiguous (unambiguous_of_materialize (Prod.ext hrows rfl) hflat hmem hkeys)

end ResultSet

/-! ## Posts with comments under the same name -/

namespace Sample

/-- Posts whose comments are to stand under the name of the posts' own table. -/
def postsOverPosts : Relation :=
  ⟨.ofTable .hasMany "posts",
    [⟨{ mode := .hasMany, aliasName := "posts", table := "comments" }, []⟩]⟩

/-- Users with such posts. -/
def authors : Statement :=
  (Statement.ofTable .select ⟨"users", none⟩).withRelations [postsOverPosts]

def author : Row := ⟨[("id", .str "1")]⟩

end Sample

open Sample in
set_option maxRecDepth 20000 in
/-- Such posts are declared and contained, and nothing is wrong as long as there are no users.  With
the first user the name is found to be taken. -/
theorem ResultSet.ambiguous_of_author :
    postsOverPosts.check = .ok ()
      ∧ (Statement.ofTable .select ⟨"users", none⟩).addRelation postsOverPosts = .ok authors
      ∧ ∃ result t, authors.resultSet ctx { connection := [] } = (.ok result, t)
        ∧ (result.materialize ctx { connection := [] }).1 = .ok []
        ∧ (result.materialize ctx { connection := [[author]] }).1
          = .error (.configuration (.aliasTaken "posts"))
        ∧ ∃ deferred, Relation.Postponed ctx.naming [] "users" authors.relations deferred
          ∧ ¬ deferred.Unambiguous := by
  obtain ⟨result, t, hresult, hnone, hone⟩ : ∃ result t,
      authors.resultSet ctx { connection := [] } = (.ok result, t)
      ∧ (result.materialize ctx { connection := [] }).1 = .ok []
      ∧ (result.materialize ctx { connection := [[author]] }).1
        = .error (.configuration (.aliasTaken "posts")) := ⟨_, _, rfl, rfl, rfl⟩
  exact ⟨rfl, rfl, result, t, hresult, hnone, hone,
    (ambiguous_of_aliasTaken rfl hresult).1 _ _ hone⟩

end RelQuery
