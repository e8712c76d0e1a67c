import RelQuery.Proofs.Plan.Recording
import RelQuery.Proofs.Plan.Rowwise
import RelQuery.Proofs.Plan.Siblings
import RelQuery.Proofs.Reading.Limit
import RelQuery.Proofs.Table.Selection

/-!
# The first row of a select

A select can be finished for all of its rows or for the first one.  The latter gives it a limit of
one row behind the offset that it has, and forgets the count.

* `Statement.exists_limited` — a select differs from itself with another limit by one clause.
* `Statement.HasRows` says which rows a database has for a select: with a limit, those of its window.
* `Engine.first_fst` is what becomes of a select that is finished for its first row.
* **`Engine.first_eq_head_iff`** — the first row is the first of all rows, or none if there are none,
  unless the limit leaves out a row that is there.
-/

namespace RelQuery

open Session

variable {σ : Type}

/-! ## Other limits -/

/-- A statement with a clause at its end. -/
def Prepared.followedBy (prepared : Prepared) (clause : String) : Prepared :=
  { prepared with sql := prepared.sql ++ clause }

namespace Query

variable (dialect : Dialect) (items : List SelectItem) (source : Source Slot)
  (order : List OrderItem) (limit : Option Limit)

lemma sql_prepare_select : ((select items source order limit).prepare dialect).sql
    = "SELECT " ++ ", ".intercalate (items.map (SelectItem.text dialect))
      ++ (source.bind .empty).1.text dialect ++ orderText dialect order
      ++ limitText dialect limit := rfl

/-- A select is written with its limit behind everything else. -/
lemma prepare_limited : (select items source order limit).prepare dialect
    = ((select items source order none).prepare dialect).followedBy (limitText dialect limit) := by
  have hnone : limitText dialect none = "" := rfl
  rw [Prepared.followedBy, sql_prepare_select, hnone, String.append_empty]
  rfl

end Query

namespace Statement

variable {ctx : Context σ} {statement : Statement} {result : ResultSet} {s : Session σ}

/-- Of a query, only the limit comes from the limit of the select. -/
lemma exists_selectQuery_limited {plan : Plan} {query : Query Slot}
    (h : statement.selectQuery plan = .ok query) : ∃ items source order,
      query = .select items source order statement.limit
      ∧ ∀ limit, selectQuery { statement with limit } plan
        = .ok (.select items source order limit) := by
  obtain ⟨frame, hframe, h⟩ := bind_eq_ok.mp h
  obtain ⟨items, hitems, h⟩ := bind_eq_ok.mp h
  obtain ⟨source, hsource, h⟩ := bind_eq_ok.mp h
  obtain ⟨order, horder, h⟩ := bind_eq_ok.mp h
  refine ⟨items, source, order, (return_eq_ok.mp h).symm, fun limit => ?_⟩
  exact bind_eq_ok.mpr ⟨frame, hframe, bind_eq_ok.mpr ⟨items, hitems, bind_eq_ok.mpr
    ⟨source, hsource, bind_eq_ok.mpr ⟨order, horder, rfl⟩⟩⟩⟩

/-- A select that can be finished can be finished with any limit, and only its clause differs. -/
lemma exists_limited (hsteady : ctx.driver.Steady) (h : (statement.resultSet ctx s).1 = .ok result) :
    ∃ bare : Prepared, ∀ limit s', (resultSet ctx { statement with limit } s').1
      = .ok { result with prepared := bare.followedBy (limitText ctx.dialect limit) } := by
  obtain ⟨main, plan, query, hmain, hplan, hquery, rfl⟩ := resultSet_fst_eq_ok.mp h
  obtain ⟨items, source, order, rfl, hlimited⟩ := exists_selectQuery_limited hquery
  refine ⟨(Query.select items source order none).prepare ctx.dialect, fun limit s' => ?_⟩
  rw [Plan.settled_ofRelations hsteady _ _ _ s s'] at hplan
  refine resultSet_fst_eq_ok.mpr ⟨main, plan, _, hmain, hplan, hlimited limit, ?_⟩
  rw [Query.prepare_limited]

/-- A database in which a select has the rows of a table.  With a limit behind it, it has the rows
of the window that the database reads in the clause. -/
def HasRows (ctx : Context σ) (statement : Statement) (table : List Row) : Prop :=
  ∀ (bare : ResultSet) s, (resultSet ctx { statement with limit := none } s).1 = .ok bare →
    ∀ limit read, ctx.dialect.readLimit? (limitText ctx.dialect limit) = some read →
      ∀ s', (ctx.fetch (bare.prepared.followedBy (limitText ctx.dialect limit)) s').1
        = .ok (read.window table)

/-- The rows that are fetched with any limit. -/
lemma HasRows.exists_fetch {table : List Row} (htable : statement.HasRows ctx table)
    (hsteady : ctx.driver.Steady) (h : (statement.resultSet ctx s).1 = .ok result)
    (limit : Option Limit) (s' : Session σ) :
    ∃ limited : ResultSet, (resultSet ctx { statement with limit } s').1 = .ok limited
      ∧ limited.plan = result.plan ∧ limited.rows = none
      ∧ ∀ t, (ctx.fetch limited.prepared t).1
        = .ok ((ctx.dialect.written limit).window table) := by
  obtain ⟨bare, hbare⟩ := exists_limited hsteady h
  have hempty : bare.followedBy (limitText ctx.dialect none) = bare := by
    rw [Prepared.followedBy, limitText]
    simp
  have hnone := hbare none s'
  rw [hempty] at hnone
  refine ⟨_, hbare limit s', rfl, ?_, ?_⟩
  · obtain ⟨_, _, _, _, _, _, rfl⟩ := resultSet_fst_eq_ok.mp h
    rfl
  · exact htable _ s' hnone limit _ (ctx.dialect.readLimit?_limitText limit)

end Statement

/-! ## One row

Where a limit has to be written with a count that it does not have, this one takes a row as well. -/

namespace Dialect

variable (dialect : Dialect) (limit : Option Limit)

/-- One row from where a limit begins is written as it is. -/
lemma written_single :
    dialect.written (some (Limit.single limit)) = Limit.single (some (dialect.written limit)) := by
  rcases limit with _ | ⟨_ | offset, _ | count⟩ <;> cases dialect <;> rfl

lemma keepsFirst_written (n : Nat) :
    (dialect.written limit).KeepsFirst n ↔ (limit.getD {}).KeepsFirst n := by
  rcases limit with _ | ⟨_ | offset, _ | count⟩ <;> cases dialect <;>
    simp [written, Limit.KeepsFirst]

end Dialect

namespace Engine

variable {ctx : Context σ} {statement : Statement} {rest : List Statement} {session : Session σ}
  {result : ResultSet}

/-- What is finished for all of its rows is a select. -/
lemma all_fst (h : (Engine.all ctx ⟨statement :: rest, session⟩).1 = .ok result) :
    statement.activity = .select ∧ (statement.resultSet ctx session).1 = .ok result := by
  have hselect : statement.activity = .select := by
    by_contra hother
    rw [Engine.all, run_bind, Traces.finish_cons, if_neg (by simpa [Call.allowed] using hother)] at h
    cases h
  refine ⟨hselect, ?_⟩
  rw [← bind_pure (Engine.all ctx), all_bind ctx hselect, bind_pure] at h
  exact h

/-- What becomes of a select that is finished for its first row. -/
lemma first_fst (h : statement.activity = .select) (rest : List Statement) {limited : ResultSet}
    (hlimited : (Statement.resultSet ctx
      { statement with limit := some (Limit.single statement.limit) } session).1 = .ok limited)
    (hrows : limited.rows = none) :
    ∃ t, (Engine.first ctx ⟨statement :: rest, session⟩).1
      = (limited.materialize ctx t).1.map List.head? := by
  obtain ⟨t, hfinished⟩ : ∃ t, Statement.resultSet ctx
      { statement with limit := some (Limit.single statement.limit) } session = (.ok limited, t) :=
    ⟨_, Prod.ext hlimited rfl⟩
  refine ⟨t, ?_⟩
  rw [← bind_pure (Engine.first ctx), first_bind ctx h, bind_pure]
  show ((Statement.resultSet ctx _ >>= fun result => _) session).1 = _
  rw [run_bind, hfinished]
  show ((ResultSet.once (limited.allRows ctx) >>= fun rows => pure rows.head?) t).1 = _
  have honce : ResultSet.once (limited.allRows ctx) t = limited.materialize ctx t := by
    rw [ResultSet.once, ResultSet.allRows, ResultSet.look_of_rows_eq_none ctx hrows]
    rcases limited.materialize ctx t with ⟨_ | _, _⟩ <;> rfl
  rw [run_bind, honce]
  rcases limited.materialize ctx t with ⟨_ | _, _⟩ <;> rfl

/-- **The first row is the first of all rows, or none if there are none, unless the limit leaves out a
row that is there.**  One row from where a limit begins is the first row that the limit leaves, unless
the limit is of no rows and one is behind its offset.  So it is with a select: its relations are
accepted, undisturbed and answered by key, the database has a table of rows for it, and all rows that
its limit leaves are read with their relations.  Then a select that is finished for its first row
returns the first of them, with its relations, or none if there are none; and if the limit is of no
rows, and one is behind its offset, it does not. -/
theorem first_eq_head_iff (hsteady : ctx.driver.Steady)
    (haccepted : Relation.Accepted statement.relations) {table : List Row}
    (htable : statement.HasRows ctx table)
    (hall : (Engine.all ctx ⟨statement :: rest, session⟩).1 = .ok result)
    {reading : Session σ} {rows : List Row} (hread : (result.materialize ctx reading).1 = .ok rows)
    (hkeyed : result.plan.Keyed ctx result.plan.depth) :
    (∀ {α : Type} (limit : Option Limit) (list : List α),
        (Limit.single limit).window list = ((limit.getD {}).window list).take 1
          ↔ (limit.getD {}).KeepsFirst list.length)
      ∧ ((Engine.first ctx ⟨statement :: rest, session⟩).1 = .ok rows.head?
          ↔ (statement.limit.getD {}).KeepsFirst table.length) := by
  refine ⟨fun limit list => Limit.window_single_iff limit list, ?_⟩
  obtain ⟨hselect, hresult⟩ := all_fst hall
  -- the rows that are fetched for all, and those for one
  obtain ⟨own, hown, -, -, hfetch⟩ := htable.exists_fetch hsteady hresult statement.limit session
  obtain rfl : own = result := Except.ok.inj (hown.symm.trans hresult)
  obtain ⟨limited, hlimited, hplan, hnone, hsingle⟩ :=
    htable.exists_fetch hsteady hresult (some (Limit.single statement.limit)) session
  obtain ⟨t, hfirst⟩ := first_fst hselect rest hlimited hnone
  rw [Dialect.written_single] at hsingle
  rw [hfirst, ResultSet.materialize, hplan, ← ctx.dialect.keepsFirst_written]
  generalize ctx.dialect.written statement.limit = limit at hfetch hsingle ⊢
  constructor
  · intro hsame
    by_contra hleaves
    obtain ⟨hnoRow, hrow⟩ := Limit.window_of_not_keepsFirst hleaves
    obtain ⟨single, hone, hhead⟩ := map_eq_ok.mp hsame
    have hnone := ResultSet.length_of_materializeTo (hfetch reading) hread
    have hsome := ResultSet.length_of_materializeTo (hsingle t) hone
    rw [hnoRow, List.length_nil, List.length_eq_zero_iff] at hnone
    rw [hnone, List.head?_nil, List.head?_eq_none_iff] at hhead
    rw [hhead, List.length_nil] at hsome
    exact hrow (List.length_eq_zero_iff.mp hsome.symm)
  · intro hkeeps
    have htake : (Limit.single (some limit)).window table = (limit.window table).take 1 :=
      (Limit.window_single_iff (some limit) table).mpr hkeeps
    have hfits := Statement.makes_fits_resultSet ctx haccepted session own _ (Prod.ext hresult rfl)
    obtain ⟨become, rfl, hbecome⟩ :=
      ResultSet.exists_becomes hsteady hfits hkeyed (hfetch reading) hread
    have hone := hbecome limited _ t hplan (htake ▸ List.take_subset _ _) (hsingle t)
    rw [hone, htake, List.map_take]
    show Except.ok (List.head? _) = _
    rw [List.head?_take, if_neg one_ne_zero]

end Engine

/-! ## A page of users -/

/-- What the driver replies is fetched. -/
lemma Context.fetch_fst {ctx : Context σ} {prepared : Prepared} {rows : List Row} {s : Session σ}
    (h : (ctx.driver.fetch prepared.sql prepared.bindings s.connection).1 = .ok rows) :
    (ctx.fetch prepared s).1 = .ok rows := by
  rw [Context.fetch, run_call]
  rcases hreply : ctx.driver.fetch prepared.sql prepared.bindings s.connection
    with ⟨reply, connection⟩
  rw [hreply] at h
  obtain rfl : reply = .ok rows := h
  rfl

namespace Sample

/-- Two users behind the first one, with their posts. -/
def page : Statement where
  activity := .select
  table := some ⟨"users", none⟩
  limit := some ⟨some 1, some 2⟩
  relations := [.ofTable .hasMany "posts"]

/-- The select of the users, up to its limit. -/
def pageText : String := "SELECT \x60users\x60.* FROM \x60users\x60"

def member (id : String) : Row := ⟨[("id", .str id)]⟩

/-- All users there are. -/
def members : List Row := [member "1", member "2", member "3"]

/-- All posts there are, both of them by the second user. -/
def contributions : List Row :=
  [⟨[("id", .str "7"), ("user_id", .str "2")]⟩, ⟨[("id", .str "8"), ("user_id", .str "2")]⟩]

/-- A database of these users and posts. -/
def database : Driver Unit where
  dialect := .mysql
  fetch := fun sql _ connection =>
    if pageText.toList <+: sql.toList then
      match Dialect.mysql.readLimit? (String.ofList (sql.toList.drop pageText.toList.length)) with
      | some limit => (.ok (limit.window members), connection)
      | none => (.error ⟨none, "syntax"⟩, connection)
    else (.ok contributions, connection)
  execute := fun _ _ connection => (.ok ⟨0, none⟩, connection)
  columns := fun _ connection => (.ok ["id", "user_id"], connection)

def databaseCtx : Context Unit := .ofConfig database {}

lemma steady_database : databaseCtx.driver.Steady where
  fetch _ _ _ _ := rfl
  columns _ _ _ := rfl

lemma hasRows_page : page.HasRows databaseCtx members := by
  intro bare s h limit read hread s'
  obtain ⟨other, hother, hsql⟩ : ∃ other : ResultSet,
      (Statement.resultSet databaseCtx { page with limit := none } s).1 = .ok other
        ∧ other.prepared.sql = pageText := ⟨_, rfl, rfl⟩
  obtain rfl : other = bare := Except.ok.inj (hother.symm.trans h)
  have hprefix : pageText.toList <+: (pageText ++ limitText .mysql limit).toList := by
    rw [String.toList_append]
    exact List.prefix_append _ _
  have hlimit : Dialect.mysql.readLimit? (limitText .mysql limit) = some read := hread
  have hdialect : databaseCtx.dialect = .mysql := rfl
  rw [hdialect]
  refine Context.fetch_fst ?_
  simp only [Prepared.followedBy, hsql, databaseCtx, Context.ofConfig, database]
  rw [if_pos hprefix, String.toList_append, List.drop_left, String.ofList_toList, hlimit]

/-- The select of the posts is another one, whatever the keys are. -/
lemma fetch_posts {keys : List Value} {s t : Session Unit} {child : ResultSet}
    (h : Engine.alone (posts.request databaseCtx keys) s = (.ok child, t)) (s' : Session Unit) :
    (databaseCtx.fetch child.prepared s').1 = .ok contributions := by
  rw [Deferred.alone_request] at h
  obtain ⟨_, u, hwritten, h⟩ := run_bind_eq_ok.mp h
  obtain ⟨hselect, rfl⟩ := run_written_eq_ok.mp hwritten
  obtain ⟨-, rfl⟩ := Deferred.select_eq_ok.mp hselect
  obtain ⟨query, hquery, hprepared, -⟩ := Statement.exists_query_of_resultSet rfl h
  obtain ⟨frame, hframe, hquery⟩ := bind_eq_ok.mp hquery
  obtain rfl : (⟨"posts", []⟩ : Frame) = frame := Except.ok.inj (Eq.trans rfl hframe)
  obtain ⟨items, hitems, hquery⟩ := bind_eq_ok.mp hquery
  obtain ⟨source, -, hquery⟩ := bind_eq_ok.mp hquery
  obtain ⟨order, -, hquery⟩ := bind_eq_ok.mp hquery
  obtain rfl := return_eq_ok.mp hquery
  obtain ⟨own, hown, htexts⟩ : ∃ own,
      ((posts.statement keys).selectFields {} ⟨"posts", []⟩).mapM (Field.item ⟨"posts", []⟩)
          = .ok own
        ∧ own.map (SelectItem.text .mysql) = ["\x60posts\x60.*"] := ⟨_, rfl, rfl⟩
  obtain rfl : own = items := Except.ok.inj (hown.symm.trans hitems)
  have hother : ¬ pageText.toList <+: child.prepared.sql.toList := by
    rw [hprepared, Query.sql_prepare_select]
    have hdialect : databaseCtx.dialect = .mysql := rfl
    rw [hdialect, htexts]
    simp [pageText, String.toList_append]
  refine Context.fetch_fst ?_
  simp only [databaseCtx, Context.ofConfig, database]
  rw [if_neg hother]

/-- Nothing gets in the way of the posts, and the database finds the same ones for a user whatever
other users it is asked for. -/
lemma keyed_of_posts {plan : Plan} (hnodes : plan.nodes = []) (hdeferred : plan.deferred = [posts]) :
    plan.Keyed databaseCtx 1 := by
  have hplain : ∀ name ∈ ["id", "user_id"], ¬ Plan.IsPrefixed name := by
    have hmark : ∀ name ∈ ["id", "user_id"], ¬ "__contain_".toList <+: name.toList := by decide
    exact fun name hname hprefixed => hmark name hname (Plan.toList_of_isPrefixed hprefixed)
  have hundisturbed : posts.Undisturbed plan := {
    joined := by rw [hnodes]; simp [Node.Leads, posts]
    earlier := fun other hother => absurd (hdeferred ▸ hother).length_le (by simp)
    nested := by decide
    ownerColumn := fun _ => hplain "id" (by decide)
    relatedColumn := hplain "user_id" (by decide)
    tidy := fun hpath => absurd rfl hpath }
  have hanswered : posts.AnsweredByKey databaseCtx fun _ => contributions := {
    replies := fun _ _ _ _ _ hchild => fetch_posts hchild
    same := fun _ _ _ _ _ => rfl
    fewer := fun _ _ _ => List.Subset.refl _ }
  rw [Plan.Keyed, hdeferred, List.forall_mem_singleton]
  exact ⟨hundisturbed, ⟨_, hanswered⟩, fun _ _ _ _ _ => trivial⟩

/-- The session in which the page is read. -/
def pageSession : Session Unit := { connection := () }

end Sample

open Sample in
set_option maxRecDepth 20000 in
/-- The first user of the page is the second one there is, with both posts. -/
theorem Engine.first_of_page : ∃ result second third,
    (Engine.all databaseCtx ⟨[page], pageSession⟩).1 = .ok result
      ∧ (result.materialize databaseCtx pageSession).1 = .ok [second, third]
      ∧ second.get? "posts" = some (.arr (contributions.map Row.toValue))
      ∧ (Engine.first databaseCtx ⟨[page], pageSession⟩).1 = .ok (some second) := by
  obtain ⟨result, hall, hresult, hnodes, hdeferred⟩ : ∃ result : ResultSet,
      (Engine.all databaseCtx ⟨[page], pageSession⟩).1 = .ok result
        ∧ (page.resultSet databaseCtx pageSession).1 = .ok result
        ∧ result.plan.nodes = [] ∧ result.plan.deferred = [posts] := ⟨_, rfl, rfl, rfl, rfl⟩
  have hdepth : result.plan.depth = 1 := by
    rw [Plan.depth, hdeferred]
    rfl
  obtain ⟨own, hown, -, -, hfetch⟩ :=
    hasRows_page.exists_fetch steady_database hresult page.limit pageSession
  obtain rfl : own = result := Except.ok.inj (hown.symm.trans hresult)
  obtain ⟨t, hattach⟩ := ResultSet.materializeTo_fst 0 (hfetch pageSession)
  have hread : (own.materialize databaseCtx pageSession).1 = .ok
      [⟨[("id", .str "2"), ("posts", .arr (contributions.map Row.toValue))]⟩,
        ⟨[("id", .str "3"), ("posts", .arr [])]⟩] := by
    rw [ResultSet.materialize, hdepth, hattach, hnodes, hdeferred]
    rfl
  have hkeyed : own.plan.Keyed databaseCtx own.plan.depth :=
    hdepth ▸ keyed_of_posts hnodes hdeferred
  have haccepted : Relation.Accepted page.relations := ⟨by decide, by simp [page]; rfl⟩
  refine ⟨own, _, _, hall, hread, rfl, ?_⟩
  exact (Engine.first_eq_head_iff steady_database haccepted hasRows_page hall hread hkeyed).2.mpr
    (by decide)

end RelQuery
