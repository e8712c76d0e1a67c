import RelQuery.Proofs.Plan.Layout
import RelQuery.Proofs.Plan.Request

/-!
# The select of the related rows

The rows of a deferred relation are fetched by a select of their own, which contains the nested
relations.  So what holds of the plan of a select holds of this one, one level below.

* **`Statement.makes_fits_resultSet`** — a select is planned by its relations.
* **`Engine.accepted_after`** — a statement built by calls contains accepted relations only, if its
  relations are declared well.
* **`Deferred.makes_fits_request`** — the select of the related rows has the plan of the nested
  relations.
-/

namespace RelQuery

open Session

variable {σ : Type}

/-! ## Selects -/

lemma Statement.eq_some_of_mainTable {statement : Statement} {main : TableRef}
    (h : statement.mainTable = .ok main) : statement.table = some main := by
  rw [mainTable] at h
  split at h
  · next table htable => rw [htable, Except.ok.inj h]
  · cases h

/-- The plan of a statement is one of its relations and its main table. -/
lemma Statement.exists_ofRelations {ctx : Context σ} {statement : Statement}
    {result : ResultSet} {s t : Session σ} (h : statement.resultSet ctx s = (.ok result, t)) :
    ∃ main u v, statement.table = some main
      ∧ Plan.ofRelations ctx true statement.relations main u = (.ok result.plan, v) := by
  obtain ⟨_, _, -, h⟩ := run_bind_eq_ok.mp h
  obtain ⟨prepared, _, hselect, h⟩ := run_bind_eq_ok.mp h
  obtain ⟨_, _, -, h⟩ := run_bind_eq_ok.mp h
  obtain ⟨rfl, -⟩ := run_pure_eq_ok.mp h
  obtain ⟨plan, v, hplan, hselect⟩ := run_bind_eq_ok.mp hselect
  obtain ⟨_, _, -, hselect⟩ := run_bind_eq_ok.mp hselect
  obtain ⟨rfl, -⟩ := run_pure_eq_ok.mp hselect
  obtain ⟨main, u, hmain, hplan⟩ := run_bind_eq_ok.mp hplan
  obtain ⟨hmain, -⟩ := Session.run_ofExcept_eq_ok.mp hmain
  exact ⟨main, u, v, eq_some_of_mainTable hmain, hplan⟩

/-- What holds of every plan of its relations holds of the plan of a select. -/
lemma Statement.makes_resultSet (ctx : Context σ) {statement : Statement} {post : Plan → Prop}
    (h : ∀ main, statement.table = some main →
      Makes (Plan.ofRelations ctx true statement.relations main) post) :
    Makes (statement.resultSet ctx) fun result => post result.plan := by
  intro s result t hrun
  obtain ⟨main, u, v, hmain, hplan⟩ := exists_ofRelations hrun
  exact h main hmain u result.plan v hplan

/-- A select is planned by its relations. -/
theorem Statement.makes_fits_resultSet (ctx : Context σ) {statement : Statement}
    (h : Relation.Accepted statement.relations) :
    Makes (statement.resultSet ctx) fun result => Plan.Fits statement.relations result.plan :=
  makes_resultSet ctx fun main _ => Plan.makes_fits_ofRelations ctx true h main

lemma Relation.aliasName_mem_aliases (relation : Relation) :
    relation.aliasName ∈ relation.aliases := by
  obtain ⟨link, nested⟩ := relation
  rw [aliases]
  exact List.mem_cons_self

/-- **The relations that an engine has contained in a statement differ in their names.** -/
theorem Engine.accepted_after {ctx : Context σ} {session : Session σ} {requests : List Request}
    {statement : Statement} (h : statement ∈ (Engine.after ctx ⟨[], session⟩ requests).stack)
    (hchecked : ∀ relation ∈ statement.relations, relation.check = .ok ()) :
    Relation.Accepted statement.relations := by
  refine ⟨?_, hchecked⟩
  have hapart : statement.Apart := Engine.forall_apart_after requests (by simp) statement h
  rw [Statement.Apart, Statement.parts, List.pairwise_append, List.pairwise_map] at hapart
  refine List.pairwise_map.mpr ((List.pairwise_map.mp hapart.2.1).imp fun hdisjoint heq => ?_)
  exact hdisjoint (Relation.aliasName_mem_aliases _) (heq ▸ Relation.aliasName_mem_aliases _)

/-! ## The related rows -/

namespace Deferred

/-- What holds of every plan of the nested relations holds of the select of the related rows. -/
lemma makes_request (ctx : Context σ) {deferred : Deferred} (keys : List Value)
    {post : Plan → Prop} (h : Makes (Plan.ofRelations ctx true deferred.relation.nested
      (TableRef.parse deferred.relation.link.table)) post) :
    Makes (Engine.alone (deferred.request ctx keys)) fun result => post result.plan := by
  intro session result session' hrun
  rw [alone_request] at hrun
  obtain ⟨statement, _, hwritten, hrun⟩ := run_bind_eq_ok.mp hrun
  obtain ⟨hselect, -⟩ := run_written_eq_ok.mp hwritten
  obtain ⟨-, rfl⟩ := select_eq_ok.mp hselect
  refine Statement.makes_resultSet ctx (fun main hmain => ?_) _ result session' hrun
  obtain rfl : TableRef.parse deferred.relation.link.table = main := Option.some.inj hmain
  exact h

/-- **The select of the related rows is planned by the nested relations.** -/
theorem makes_fits_request (ctx : Context σ) {deferred : Deferred} (keys : List Value)
    (h : deferred.relation.check = .ok ()) :
    Makes (Engine.alone (deferred.request ctx keys))
      fun result => Plan.Fits deferred.relation.nested result.plan :=
  makes_request ctx keys (Plan.makes_fits_ofRelations ctx true (Relation.accepted_nested h) _)

end Deferred

end RelQuery
