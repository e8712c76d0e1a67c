import RelQuery.Proofs.Plan.Siblings

/-!
# The joins of a plan

Which tables a select joins is said by its relations alone.  The columns that are looked up for them
do not matter, so a plan that looks up none has the same joins, and nothing can go wrong in making
it.  A count is planned that way: it reads from the tables of the select, by the same filter.

* `Relation.joins` are the joins of a relation, with those of the relations nested in it.
* **`Relation.makes_joins_expandAll`** — every plan has the joins of its relations.
* **`Relation.returns_expandAll`** — a plan without columns can be made in every session.
* **`Statement.exists_count_of_prepareSelect`** — a select and the count of its rows have one source
  in common.
-/

namespace RelQuery

open Session

variable {σ : Type}

/-! ## Joins -/

namespace Relation

mutual

/-- The joins of a relation of a parent, outermost first. -/
def joins (naming : Naming) (parentAlias parentTable : String) : Relation → List Join
  | ⟨link, nested⟩ =>
    if link.mode.isToOne then
      link.join (link.namingOr naming) parentAlias parentTable
        :: joinsOfAll naming link.aliasName link.table nested
    else []

/-- The joins of the relations of a parent, in order. -/
def joinsOfAll (naming : Naming) (parentAlias parentTable : String) : List Relation → List Join
  | [] => []
  | relation :: relations =>
    joins naming parentAlias parentTable relation
      ++ joinsOfAll naming parentAlias parentTable relations

end

mutual

lemma makes_joins_expand (ctx : Context σ) (withFields : Bool) (parentAlias parentTable : String)
    (path : List String) : (relation : Relation) →
    Makes (expand ctx withFields parentAlias parentTable path relation)
      fun plan => plan.joins = relation.joins ctx.naming parentAlias parentTable
  | ⟨link, nested⟩ => by
      rw [joins]
      cases hone : link.mode.isToOne with
      | true =>
          rw [expand_of_isToOne ctx withFields parentAlias parentTable path nested hone]
          refine (Makes.trivial _).bind fun _ _ => (Makes.trivial _).bind fun columns _ => ?_
          exact (makes_joins_expandAll ctx withFields link.aliasName link.table _ nested).bind
            fun inner hinner => Makes.pure (congrArg _ hinner)
      | false =>
          rw [expand_of_not_isToOne ctx withFields parentAlias parentTable path nested hone]
          exact (Makes.trivial _).bind fun _ _ => Makes.pure rfl

/-- **Every plan has the joins of its relations**, whether columns are planned or not. -/
theorem makes_joins_expandAll (ctx : Context σ) (withFields : Bool)
    (parentAlias parentTable : String) (path : List String) : (relations : List Relation) →
    Makes (expandAll ctx withFields parentAlias parentTable path relations)
      fun plan => plan.joins = joinsOfAll ctx.naming parentAlias parentTable relations
  | [] => by
      rw [expandAll, joinsOfAll]
      exact Makes.pure rfl
  | relation :: relations => by
      rw [expandAll, joinsOfAll]
      refine (makes_joins_expand ctx withFields parentAlias parentTable path relation).bind
        fun plan hplan => ?_
      exact (makes_joins_expandAll ctx withFields parentAlias parentTable path relations).bind
        fun others hothers => Makes.pure (congrArg₂ _ hplan hothers)

end

end Relation

/-! ## Plans without columns -/

/-- A computation that succeeds in every session. -/
def Session.Returns {α : Type} (run : Session.Run σ α) : Prop := ∀ s, ∃ a t, run s = (.ok a, t)

namespace Session.Returns

variable {α β : Type} {x : Session.Run σ α} {f : α → Session.Run σ β}

lemma pure (a : α) : Returns (Pure.pure a : Session.Run σ α) := fun s => ⟨a, s, rfl⟩

lemma emit (event : Event) : Returns (Session.emit event : Session.Run σ Unit) :=
  fun _ => ⟨(), _, rfl⟩

lemma bind (hx : Returns x) (hf : ∀ a, Returns (f a)) : Returns (x >>= f) := by
  intro s
  obtain ⟨a, u, ha⟩ := hx s
  obtain ⟨b, t, hb⟩ := hf a u
  exact ⟨b, t, run_bind_eq_ok.mpr ⟨a, u, ha, hb⟩⟩

end Session.Returns

namespace Relation

mutual

lemma returns_expand (ctx : Context σ) (parentAlias parentTable : String) (path : List String) :
    (relation : Relation) → Returns (expand ctx false parentAlias parentTable path relation)
  | ⟨link, nested⟩ => by
      cases hone : link.mode.isToOne with
      | true =>
          rw [expand_of_isToOne ctx false parentAlias parentTable path nested hone]
          refine (Returns.emit _).bind fun _ => (Returns.pure []).bind fun columns => ?_
          exact (returns_expandAll ctx link.aliasName link.table _ nested).bind
            fun inner => Returns.pure _
      | false =>
          rw [expand_of_not_isToOne ctx false parentAlias parentTable path nested hone]
          exact (Returns.emit _).bind fun _ => Returns.pure _

/-- **A plan without columns can always be made**: the driver is not asked for anything. -/
theorem returns_expandAll (ctx : Context σ) (parentAlias parentTable : String)
    (path : List String) : (relations : List Relation) →
    Returns (expandAll ctx false parentAlias parentTable path relations)
  | [] => by
      rw [expandAll]
      exact Returns.pure _
  | relation :: relations => by
      rw [expandAll]
      exact (returns_expand ctx parentAlias parentTable path relation).bind fun plan =>
        (returns_expandAll ctx parentAlias parentTable path relations).bind
          fun others => Returns.pure _

end

end Relation

/-! ## Counting -/

namespace Statement

section

variable {ctx : Context σ} {statement : Statement} {plan : Plan} {s t : Session σ}

/-- A plan is one of the relations of a statement and its main table. -/
lemma plan_eq_ok {withFields : Bool} :
    statement.plan ctx withFields s = (.ok plan, t) ↔ ∃ main, statement.mainTable = .ok main
      ∧ Plan.ofRelations ctx withFields statement.relations main s = (.ok plan, t) := by
  rw [Statement.plan, run_bind_eq_ok]
  simp only [run_ofExcept_eq_ok]
  constructor
  · rintro ⟨main, _, ⟨hmain, rfl⟩, hplan⟩
    exact ⟨main, hmain, hplan⟩
  · rintro ⟨main, hmain, hplan⟩
    exact ⟨main, s, ⟨hmain, rfl⟩, hplan⟩

/-- Planning without columns succeeds where planning with columns does, and has the same joins. -/
lemma exists_plan_without_columns (h : statement.plan ctx true s = (.ok plan, t))
    (u : Session σ) :
    ∃ bare v, statement.plan ctx false u = (.ok bare, v) ∧ bare.joins = plan.joins := by
  obtain ⟨main, hmain, hplan⟩ := plan_eq_ok.mp h
  obtain ⟨bare, v, hbare⟩ :=
    Relation.returns_expandAll ctx main.reference main.name [] statement.relations u
  refine ⟨bare, v, plan_eq_ok.mpr ⟨main, hmain, hbare⟩, ?_⟩
  rw [Relation.makes_joins_expandAll ctx false _ _ [] _ u bare v hbare,
    Relation.makes_joins_expandAll ctx true _ _ [] _ s plan t hplan]

/-- A select has a source, and so has the count with any plan of the same joins. -/
lemma exists_source_of_selectQuery_eq_ok {query : Query Slot} {bare : Plan}
    (h : statement.selectQuery plan = .ok query) (hjoins : bare.joins = plan.joins) :
    ∃ items source order, query = .select items source order statement.limit
      ∧ statement.countQuery bare = .ok (.count source) := by
  obtain ⟨frame, hframe, h⟩ := bind_eq_ok.mp h
  obtain ⟨items, -, h⟩ := bind_eq_ok.mp h
  obtain ⟨source, hsource, h⟩ := bind_eq_ok.mp h
  obtain ⟨order, -, h⟩ := bind_eq_ok.mp h
  have hbare : statement.frame bare = .ok frame := by
    rw [← hframe, Statement.frame, Statement.frame, hjoins]
  refine ⟨items, source, order, (return_eq_ok.mp h).symm, ?_⟩
  exact bind_eq_ok.mpr ⟨frame, hbare, bind_eq_ok.mpr ⟨source, hsource, rfl⟩⟩

/-- **A count filters what the select returns.**  Where a select can be planned and written, the
count of its rows can be, in every session.  The two have the same parameters, and one text in
common: the tables, joins and filter of their source.  In front of it the one has its select list
and the other its `COUNT(*)`, and behind it only the select goes on, with an order and a limit. -/
theorem exists_count_of_prepareSelect {select : Prepared}
    (h : statement.prepareSelect ctx s = (.ok (select, plan), t)) (u : Session σ) :
    ∃ items source order count v text,
      statement.selectQuery plan = .ok (.select items source order statement.limit)
      ∧ text = (source.bind .empty).1.text ctx.dialect
      ∧ select.sql = "SELECT " ++ ", ".intercalate (items.map (SelectItem.text ctx.dialect))
          ++ text ++ orderText ctx.dialect order ++ limitText ctx.dialect statement.limit
      ∧ statement.prepareCount ctx u = (.ok count, v)
      ∧ count.sql = "SELECT COUNT(*) AS " ++ ctx.dialect.quote "count" ++ text
      ∧ count.bindings = select.bindings := by
  obtain ⟨_, _, hplan, h⟩ := run_bind_eq_ok.mp h
  obtain ⟨query, _, hquery, h⟩ := run_bind_eq_ok.mp h
  obtain ⟨hquery, -⟩ := run_ofExcept_eq_ok.mp hquery
  obtain ⟨heq, -⟩ := run_pure_eq_ok.mp h
  obtain ⟨rfl, rfl⟩ := Prod.mk.inj heq
  obtain ⟨bare, v, hbare, hjoins⟩ := exists_plan_without_columns hplan u
  obtain ⟨items, source, order, rfl, hcount⟩ := exists_source_of_selectQuery_eq_ok hquery hjoins
  refine ⟨items, source, order, (Query.count source).prepare ctx.dialect, v, _, hquery, rfl, rfl,
    ?_, rfl, rfl⟩
  exact run_bind_eq_ok.mpr ⟨bare, v, hbare,
    run_bind_eq_ok.mpr ⟨_, v, run_ofExcept_eq_ok.mpr ⟨hcount, rfl⟩, rfl⟩⟩

end

end Statement

namespace Sample

/-- Active users with their companies, ten at most. -/
def employees : Statement where
  activity := .select
  table := some ⟨"users", none⟩
  conditions := Conditions.empty.eq "active" (.scalar (.ofInt 1))
  limit := some ⟨none, some 10⟩
  relations := [.ofTable .belongsTo "companies"]

/-- What they are read from, and by which filter. -/
def employeesSource : String :=
  " FROM \x60users\x60 LEFT JOIN \x60companies\x60 ON \x60companies\x60.\x60id\x60 = " ++
    "\x60users\x60.\x60company_id\x60 WHERE \x60users\x60.\x60active\x60 = :cnd_users_active"

end Sample

open Sample in
set_option maxRecDepth 4000 in
/-- The active users with a company are counted by the text that selects them. -/
theorem Statement.exists_count_of_employees :
    ∃ select plan t, employees.prepareSelect ctx { connection := [] } = (.ok (select, plan), t)
      ∧ select.sql = "SELECT \x60users\x60.*, \x60companies\x60.\x60id\x60 AS " ++
          "\x60__contain_companies__id\x60" ++ employeesSource ++ " LIMIT 10"
      ∧ ∃ count v, employees.prepareCount ctx { connection := [] } = (.ok count, v)
        ∧ count.sql = "SELECT COUNT(*) AS \x60count\x60" ++ employeesSource
        ∧ count.bindings = select.bindings := by
  obtain ⟨select, plan, t, hselect, hsql⟩ : ∃ select plan t,
      employees.prepareSelect ctx { connection := [] } = (.ok (select, plan), t)
      ∧ select.sql = "SELECT \x60users\x60.*, \x60companies\x60.\x60id\x60 AS " ++
          "\x60__contain_companies__id\x60" ++ employeesSource ++ " LIMIT 10" :=
    ⟨_, _, _, rfl, rfl⟩
  obtain ⟨count, v, hcount, hcounted⟩ : ∃ count v,
      employees.prepareCount ctx { connection := [] } = (.ok count, v)
      ∧ count.sql = "SELECT COUNT(*) AS \x60count\x60" ++ employeesSource := ⟨_, _, rfl, rfl⟩
  obtain ⟨_, _, _, count', v', _, -, -, -, hcount', -, hbindings⟩ :=
    exists_count_of_prepareSelect hselect { connection := [] }
  obtain ⟨heq, -⟩ := Prod.mk.inj (hcount.symm.trans hcount')
  obtain rfl := Except.ok.inj heq
  exact ⟨select, plan, t, hselect, hsql, count, v, hcount, hcounted, hbindings⟩

end RelQuery
