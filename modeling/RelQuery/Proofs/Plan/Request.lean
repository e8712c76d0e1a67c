import RelQuery.Plan.Loading
import RelQuery.Proofs.Engine.Changes

/-!
# How the related rows are asked for

The rows of a deferred relation are fetched by a select of their own.  It is written by calls on an
engine that nobody else uses, one call per part.  Put together, the calls change one statement step
by step, and nothing but the last of them looks at the session.

* `Deferred.statement` is the select, `Deferred.Unambiguous` what it takes to write it.
* **`Deferred.alone_request`** — the request is that select, written without a session and finished
  in the session of its parents.
* **`Deferred.select_eq_ok`** — it can be written exactly if no name is taken twice.
-/

namespace RelQuery

open Session

variable {σ : Type}

/-! ## Relations one after the other -/

/-- Lists that are apart from each other, the first two taken together. -/
lemma pairwise_disjoint_cons_cons {α : Type} {xs ys : List α} {parts : List (List α)} :
    (xs :: ys :: parts).Pairwise List.Disjoint
      ↔ xs.Disjoint ys ∧ ((xs ++ ys) :: parts).Pairwise List.Disjoint := by
  simp only [List.pairwise_cons, List.forall_mem_cons, List.disjoint_append_left]
  constructor
  · rintro ⟨⟨hxy, hx⟩, hy, hparts⟩
    exact ⟨hxy, fun part hpart => ⟨hx part hpart, hy part hpart⟩, hparts⟩
  · rintro ⟨hxy, hboth, hparts⟩
    exact ⟨⟨hxy, fun part hpart => (hboth part hpart).1⟩,
      fun part hpart => (hboth part hpart).2, hparts⟩

namespace Statement

/-- The statement with more relations. -/
def withRelations (statement : Statement) (relations : List Relation) : Statement :=
  { statement with relations := statement.relations ++ relations }

@[simp] lemma aliases_withRelations (statement : Statement) (relations : List Relation) :
    (statement.withRelations relations).aliases
      = statement.aliases ++ Relation.aliasesOfAll relations := by
  simp only [withRelations, aliases, Relation.aliasesOfAll_eq_flatMap, List.flatMap_append,
    List.append_assoc]

lemma withRelations_withRelations (statement : Statement) (relations others : List Relation) :
    (statement.withRelations relations).withRelations others
      = statement.withRelations (relations ++ others) := by
  simp [withRelations]

/-- A relation that is refused takes a name that is in use. -/
lemma exists_of_addRelation_eq_error {statement : Statement} {relation : Relation} {e : Error}
    (h : statement.addRelation relation = .error e) :
    ∃ name, e = .configuration (.aliasTaken name) := by
  rw [addRelation] at h
  generalize relation.aliases = names at h
  induction names with
  | nil => cases h
  | cons name names ih =>
      have hcons : (name :: names).forM statement.checkFree
          = (do statement.checkFree name; names.forM statement.checkFree) := rfl
      rw [hcons, bind_assoc, checkFree] at h
      split at h
      · exact ⟨name, (Except.error.inj h).symm⟩
      · exact ih h

/-- So does a join that is refused. -/
lemma exists_of_addJoin_eq_error {statement : Statement} {join : Join} {e : Error}
    (h : statement.addJoin join = .error e) : ∃ name, e = .configuration (.aliasTaken name) := by
  rw [addJoin, checkFree] at h
  split at h
  · exact ⟨_, (Except.error.inj h).symm⟩
  · cases h

/-- Relations can be added one after the other if no two of them, and none of them and the
statement, share a name. -/
lemma foldlM_addRelation_eq_ok {relations : List Relation} {statement next : Statement} :
    relations.foldlM addRelation statement = .ok next
      ↔ (statement.aliases :: relations.map Relation.aliases).Pairwise List.Disjoint
        ∧ statement.withRelations relations = next := by
  induction relations generalizing statement with
  | nil => simp [return_eq_ok, withRelations]
  | cons relation relations ih =>
      have hadd (added : Statement) : statement.addRelation relation = .ok added
          ↔ statement.aliases.Disjoint relation.aliases
            ∧ statement.withRelations [relation] = added := by
        rw [addRelation_eq_ok, List.disjoint_comm]
        exact Iff.rfl
      have hnames : (statement.withRelations [relation]).aliases
          = statement.aliases ++ relation.aliases := by
        rw [aliases_withRelations, Relation.aliasesOfAll, Relation.aliasesOfAll, List.append_nil]
      rw [List.foldlM_cons, bind_eq_ok, List.map_cons, pairwise_disjoint_cons_cons, ← hnames]
      simp only [hadd, ih]
      constructor
      · rintro ⟨_, ⟨hfirst, rfl⟩, hrest, rfl⟩
        exact ⟨⟨hfirst, hrest⟩, (withRelations_withRelations _ [_] _).symm⟩
      · rintro ⟨⟨hfirst, hrest⟩, rfl⟩
        exact ⟨_, ⟨hfirst, rfl⟩, hrest, withRelations_withRelations _ [_] _⟩

/-- Adding relations is refused for a name that is in use, and for nothing else. -/
lemma exists_of_foldlM_addRelation_eq_error {relations : List Relation} {statement : Statement}
    {e : Error} (h : relations.foldlM addRelation statement = .error e) :
    ∃ name, e = .configuration (.aliasTaken name) := by
  induction relations generalizing statement with
  | nil => cases h
  | cons relation relations ih =>
      rw [List.foldlM_cons] at h
      cases hfirst : statement.addRelation relation with
      | error e' =>
          rw [hfirst] at h
          obtain rfl : e' = e := Except.error.inj h
          exact exists_of_addRelation_eq_error hfirst
      | ok next =>
          rw [hfirst] at h
          exact ih h

end Statement

/-! ## The request -/

namespace Deferred

variable {deferred : Deferred} {keys : List Value}

/-- The fields of the request, if it restricts them. -/
def addFields (deferred : Deferred) : Engine.Run σ Unit :=
  if !deferred.requestFields.isEmpty then Engine.fields deferred.requestFields else pure ()

/-- The junction table of the request, if it has one. -/
def addJunction (deferred : Deferred) : Engine.Run σ Unit :=
  match deferred.junction with
  | none => pure ()
  | some junction => Engine.join [deferred.junctionJoin junction]

/-- The clauses of the request. -/
def addClauses (deferred : Deferred) (keys : List Value) : Engine.Run σ Unit := do
  deferred.addFields
  deferred.addJunction
  Engine.filter (deferred.requestFilter keys)
  deferred.relation.link.order.forM Engine.orderTerm
  deferred.relation.nested.forM Engine.contain

lemma request_eq (ctx : Context σ) (deferred : Deferred) (keys : List Value) :
    deferred.request ctx keys = (do
      Engine.find (TableRef.parse deferred.relation.link.table)
      deferred.addClauses keys
      Engine.all ctx) := by
  rw [request]
  unfold addClauses addFields addJunction
  simp only [bind_assoc]
  split <;> cases deferred.junction <;> rfl

/-- The joins of the request. -/
def requestJoins (deferred : Deferred) : List Join :=
  (deferred.junction.map deferred.junctionJoin).toList

/-- What the clauses of the request do to a select. -/
def change (deferred : Deferred) (keys : List Value) (statement : Statement) :
    Except Error Statement := do
  let joined ← Statement.addJoins
    { statement with fields := statement.fields ++ deferred.requestFields } deferred.requestJoins
  deferred.relation.nested.foldlM Statement.addRelation
    ((joined.restrict (deferred.requestFilter keys)).addOrder deferred.relation.link.order)

lemma performs_addClauses (deferred : Deferred) (keys : List Value) :
    Engine.Performs (deferred.change keys) (deferred.addClauses keys : Engine.Run σ Unit) := by
  have hjunction : Engine.Performs (·.addJoins deferred.requestJoins)
      (deferred.addJunction : Engine.Run σ Unit) := by
    rw [addJunction, requestJoins]
    cases deferred.junction with
    | none => exact .pure
    | some junction => exact .join _
  exact (Engine.Performs.fields _).bind (hjunction.bind ((Engine.Performs.filter _).bind
    ((Engine.Performs.order _).bind (.contain _))))

/-- The select of the related rows, written call by call. -/
def select (deferred : Deferred) (keys : List Value) : Except Error Statement :=
  deferred.change keys (.ofTable .select (TableRef.parse deferred.relation.link.table))

/-- **The request is a select that is written without a session**, and then finished in one. -/
theorem alone_request (ctx : Context σ) (deferred : Deferred) (keys : List Value) :
    Engine.alone (deferred.request ctx keys)
      = Session.written (deferred.select keys) >>= Statement.resultSet ctx := by
  rw [request_eq]
  exact Engine.alone_of_performs (performs_addClauses deferred keys) ctx _

/-! ## When it can be written -/

/-- The select of the related rows as a whole. -/
def statement (deferred : Deferred) (keys : List Value) : Statement where
  activity := .select
  table := some (TableRef.parse deferred.relation.link.table)
  fields := deferred.requestFields
  conditions := Conditions.empty.extend (deferred.requestFilter keys)
  joins := deferred.requestJoins
  order := deferred.relation.link.order
  relations := deferred.relation.nested

/-- The names that the request takes: those of its table, of its junction table, and of each nested
relation. -/
def requestNames (deferred : Deferred) : List (List String) :=
  [(TableRef.parse deferred.relation.link.table).reference]
    :: deferred.junction.toList.map (fun junction => [junction.table])
      ++ deferred.relation.nested.map Relation.aliases

/-- A request that takes no name twice. -/
def Unambiguous (deferred : Deferred) : Prop := deferred.requestNames.Pairwise List.Disjoint

lemma addJoins_requestJoins (deferred : Deferred) (statement : Statement) :
    statement.addJoins deferred.requestJoins = match deferred.junction with
      | none => .ok statement
      | some junction => statement.addJoin (deferred.junctionJoin junction) := by
  rw [requestJoins]
  cases deferred.junction with
  | none => rfl
  | some junction =>
      exact bind_pure (statement.addJoin (deferred.junctionJoin junction))

/-- **The select can be written exactly if it takes no name twice**, and then it holds all parts of
the request. -/
theorem select_eq_ok {next : Statement} :
    deferred.select keys = .ok next ↔ deferred.Unambiguous ∧ deferred.statement keys = next := by
  rw [select, change, addJoins_requestJoins, Unambiguous, requestNames]
  unfold Deferred.statement requestJoins
  cases deferred.junction with
  | none =>
      simp only [bind_eq_ok, Except.ok.injEq, Statement.foldlM_addRelation_eq_ok, exists_eq_left']
      rfl
  | some junction =>
      have hfree :
          [(TableRef.parse deferred.relation.link.table).reference].Disjoint [junction.table]
            ↔ junction.table ∉ [(TableRef.parse deferred.relation.link.table).reference] := by
        rw [List.disjoint_comm, List.singleton_disjoint]
      simp only [bind_eq_ok, Statement.addJoin_eq_ok, Statement.foldlM_addRelation_eq_ok]
      show _ ↔ ([_] :: [_] :: _).Pairwise List.Disjoint ∧ _
      rw [pairwise_disjoint_cons_cons, hfree]
      constructor
      · rintro ⟨_, ⟨hjunction, rfl⟩, hnames, rfl⟩
        exact ⟨⟨hjunction, hnames⟩, rfl⟩
      · rintro ⟨⟨hjunction, hnames⟩, rfl⟩
        exact ⟨_, ⟨hjunction, rfl⟩, hnames, rfl⟩

/-- A select that cannot be written takes a name twice. -/
theorem exists_of_select_eq_error {e : Error} (h : deferred.select keys = .error e) :
    ∃ name, e = .configuration (.aliasTaken name) := by
  rw [select, change] at h
  cases hjoined : Statement.addJoins _ deferred.requestJoins with
  | ok joined =>
      rw [hjoined] at h
      exact Statement.exists_of_foldlM_addRelation_eq_error h
  | error e' =>
      rw [hjoined] at h
      obtain rfl : e' = e := Except.error.inj h
      rw [addJoins_requestJoins] at hjoined
      split at hjoined
      · cases hjoined
      · exact Statement.exists_of_addJoin_eq_error hjoined

end Deferred

end RelQuery
