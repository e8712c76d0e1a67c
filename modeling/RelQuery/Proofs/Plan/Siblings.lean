import RelQuery.Proofs.Plan.Matching
import RelQuery.Proofs.Plan.Steady

/-!
# Relations beside each other

Deferred relations of one select are loaded in the order in which they were contained.  What one of
them attaches does not depend on that order, as long as it is disturbed in neither.

* `Plan.Reorders` says that two plans defer the same relations in different order.
* **`Statement.reorders_of_perm`** — reordering the relations of a select reorders its plan, if the
  joined ones keep their order.
* **`ResultSet.attaches_of_readFrom`** — what a select attaches, and that it attaches the same with
  its relations in another order.
-/

namespace RelQuery

variable {σ : Type}

/-! ## Plans in another order -/

/-- Plans with the same joined relations, and with the same deferred ones in some order. -/
structure Plan.Reorders (plan other : Plan) : Prop where
  nodes : other.nodes = plan.nodes
  deferred : other.deferred.Perm plan.deferred

lemma Relation.depthOfAll_perm {relations others : List Relation} (h : relations.Perm others) :
    depthOfAll relations = depthOfAll others := by
  induction h with
  | nil => rfl
  | cons relation _ ih => rw [depthOfAll, depthOfAll, ih]
  | swap relation other rest =>
      rw [depthOfAll, depthOfAll, depthOfAll, depthOfAll]
      exact max_left_comm _ _ _
  | trans _ _ ih ih' => exact ih.trans ih'

lemma Plan.Reorders.depth_eq {plan other : Plan} (h : plan.Reorders other) :
    other.depth = plan.depth :=
  Relation.depthOfAll_perm (h.deferred.map _)

section Reordering

variable {ctx : Context σ}

/-- The plan of one relation of a main table. -/
def Plan.ofRelation (ctx : Context σ) (main : TableRef) (session : Session σ)
    (relation : Relation) : Plan :=
  (Relation.expand ctx true main.reference main.name [] relation session).1.toOption.getD {}

lemma Plan.nodes_ofRelation_of_not_isToOne {main : TableRef} {session : Session σ}
    {relation : Relation} (h : relation.link.mode.isToOne = false) :
    (ofRelation ctx main session relation).nodes = [] := by
  obtain ⟨link, nested⟩ := relation
  rw [ofRelation, Relation.expand_of_not_isToOne ctx true main.reference main.name [] nested h]
  rfl

/-- With a driver that always replies the same, relations are planned one by one. -/
lemma Plan.ofRelations_eq_flatMap (hsteady : ctx.driver.Steady) {main : TableRef}
    (session : Session σ) {relations : List Relation} {plan : Plan} {s t : Session σ}
    (h : Plan.ofRelations ctx true relations main s = (.ok plan, t)) :
    plan.nodes = relations.flatMap (fun relation => (ofRelation ctx main session relation).nodes)
      ∧ plan.deferred
        = relations.flatMap fun relation => (ofRelation ctx main session relation).deferred := by
  rw [ofRelations] at h
  induction relations generalizing plan s t with
  | nil =>
      rw [Relation.expandAll] at h
      obtain ⟨rfl, -⟩ := run_pure_eq_ok.mp h
      exact ⟨rfl, rfl⟩
  | cons relation relations ih =>
      rw [Relation.expandAll] at h
      obtain ⟨first, u, hfirst, h⟩ := run_bind_eq_ok.mp h
      obtain ⟨others, v, hothers, h⟩ := run_bind_eq_ok.mp h
      obtain ⟨rfl, -⟩ := run_pure_eq_ok.mp h
      have hplan : ofRelation ctx main session relation = first := by
        rw [ofRelation, Relation.settled_expand hsteady true main.reference main.name [] relation
          session s, hfirst]
        rfl
      obtain ⟨hnodes, hdeferred⟩ := ih hothers
      rw [List.flatMap_cons, List.flatMap_cons, hplan, ← hnodes, ← hdeferred]
      exact ⟨rfl, rfl⟩

/-- Relations that contribute nothing can be left out. -/
lemma flatMap_filter_eq {α β : Type} {f : α → List β} {p : α → Bool} (items : List α)
    (h : ∀ a, p a = false → f a = []) : (items.filter p).flatMap f = items.flatMap f := by
  induction items with
  | nil => rfl
  | cons a items ih =>
      rw [List.filter_cons, List.flatMap_cons]
      cases hp : p a with
      | true => rw [if_pos rfl, List.flatMap_cons, ih]
      | false => rw [if_neg Bool.false_ne_true, h a hp, ih, List.nil_append]

/-- **Reordering the relations of a select reorders its plan**, if the joined ones keep their
order. -/
theorem Statement.reorders_of_perm (hsteady : ctx.driver.Steady) {statement : Statement}
    {relations : List Relation} (hperm : relations.Perm statement.relations)
    (hjoined : relations.filter (fun relation => relation.link.mode.isToOne)
      = statement.relations.filter fun relation => relation.link.mode.isToOne)
    {result other : ResultSet} {s s' t t' : Session σ}
    (h : statement.resultSet ctx s = (.ok result, t))
    (h' : Statement.resultSet ctx { statement with relations } s' = (.ok other, t')) :
    result.plan.Reorders other.plan := by
  obtain ⟨main, u, v, hmain, hplan⟩ := exists_ofRelations h
  obtain ⟨main', u', v', hmain', hplan'⟩ := exists_ofRelations h'
  obtain rfl : main = main' := Option.some.inj (hmain.symm.trans hmain')
  obtain ⟨hnodes, hdeferred⟩ := Plan.ofRelations_eq_flatMap hsteady s hplan
  obtain ⟨hnodes', hdeferred'⟩ := Plan.ofRelations_eq_flatMap hsteady s hplan'
  constructor
  · have hfilter (relations : List Relation) :
        (relations.filter fun relation => relation.link.mode.isToOne).flatMap
            (fun relation => (Plan.ofRelation ctx main s relation).nodes)
          = relations.flatMap fun relation => (Plan.ofRelation ctx main s relation).nodes :=
      flatMap_filter_eq relations fun relation h => Plan.nodes_ofRelation_of_not_isToOne h
    rw [hnodes, hnodes', ← hfilter relations, hjoined, hfilter]
  · rw [hdeferred, hdeferred']
    exact hperm.flatMap_right _

end Reordering

/-! ## Related rows -/

namespace ResultSet.Yields

/-- With a driver that always replies the same, a result set yields the same in all sessions. -/
lemma unique {ctx : Context σ} (hsteady : ctx.driver.Steady) {depth : Nat} {result : ResultSet}
    {pairs others : List (Row × Row)} {s s' : Session σ} (h : result.Yields ctx depth s pairs)
    (h' : result.Yields ctx depth s' others) : pairs = others := by
  obtain ⟨⟨t, hfetch⟩, u, hrows⟩ := h
  obtain ⟨⟨t', hfetch'⟩, u', hrows'⟩ := h'
  have hfst := Context.settled_fetch hsteady result.prepared s s'
  have hsnd := settled_materializeTo hsteady depth result s s'
  rw [hfetch, hfetch'] at hfst
  rw [hrows, hrows'] at hsnd
  have hzip (l : List (Row × Row)) : l = (l.map Prod.fst).zip (l.map Prod.snd) :=
    List.zip_of_prod rfl rfl
  rw [hzip pairs, hzip others, Except.ok.inj hfst, Except.ok.inj hsnd]

end ResultSet.Yields

lemma Deferred.Relates.unique {ctx : Context σ} (hsteady : ctx.driver.Steady) {depth : Nat}
    {below : Plan → List (Row × Row) → Prop} {deferred : Deferred} {keys : List Value}
    {related others : List (Row × Row)} (h : deferred.Relates ctx depth below keys related)
    (h' : deferred.Relates ctx depth below keys others) : related = others := by
  rw [Relates] at h h'
  split at h
  · next hkeys =>
      rw [if_pos hkeys] at h'
      rw [h, h']
  · next hkeys =>
      rw [if_neg hkeys] at h'
      obtain ⟨child, s, t, hchild, hyields, -⟩ := h
      obtain ⟨child', s', t', hchild', hyields', -⟩ := h'
      have hsame := settled_request hsteady deferred keys s s'
      rw [hchild, hchild'] at hsame
      obtain rfl := Except.ok.inj hsame
      exact hyields.unique hsteady hyields'

namespace Deferred

variable {plan : Plan} {deferred : Deferred} {related : List (Row × Row)}

/-- What stands under the alias of an attached relation, told by the fetched rows. -/
def attachment (nodes : List Node) (deferred : Deferred) (related : List (Row × Row)) (raw : Row) :
    Option Value :=
  if (ownerAt (Row.fold nodes raw) deferred.path).isSome then
    (deferred.embedded (deferred.matching related (deferred.ownerKey raw))).toOption
  else none

lemma Attached.at?_eq {raw row : Row} (h : deferred.Attached plan related raw row) :
    row.at? deferred.path deferred.relation.aliasName
      = deferred.attachment plan.nodes related raw := by
  rw [attachment, ← h.owner]
  cases howner : ownerAt row deferred.path with
  | none => rw [Row.at?, howner]; rfl
  | some owner =>
      obtain ⟨value, hvalue, hembedded⟩ := h.value owner howner
      rw [Row.at?_of_ownerAt howner, hvalue, hembedded]
      rfl

lemma map_at?_eq {pairs : List (Row × Row)}
    (h : ∀ pair ∈ pairs, deferred.Attached plan related pair.1 pair.2) :
    (pairs.map Prod.snd).map (Row.at? · deferred.path deferred.relation.aliasName)
      = (pairs.map Prod.fst).map (deferred.attachment plan.nodes related) := by
  rw [List.map_map, List.map_map]
  exact List.map_congr_left fun pair hpair => (h pair hpair).at?_eq

end Deferred

/-- An undisturbed relation attaches the same in any order. -/
lemma Plan.Attaches.same {ctx : Context σ} (hsteady : ctx.driver.Steady) {depth : Nat}
    {plan other : Plan} (hreorders : plan.Reorders other) {pairs others : List (Row × Row)}
    (h : Plan.Attaches ctx depth plan pairs) (h' : Plan.Attaches ctx depth other others)
    (hfetched : others.map Prod.fst = pairs.map Prod.fst) {deferred : Deferred}
    (hmem : deferred ∈ plan.deferred) (hplan : deferred.Undisturbed plan)
    (hother : deferred.Undisturbed other) :
    (others.map Prod.snd).map (Row.at? · deferred.path deferred.relation.aliasName)
      = (pairs.map Prod.snd).map (Row.at? · deferred.path deferred.relation.aliasName) := by
  cases depth with
  | zero => exact absurd hmem (h ▸ List.not_mem_nil)
  | succ depth =>
      obtain ⟨keys, related, hkeys, hrelated, hattached⟩ := h deferred hmem
      obtain ⟨keys', related', hkeys', hrelated', hattached'⟩ :=
        h' deferred (hreorders.deferred.mem_iff.mpr hmem)
      have hfold (pairs : List (Row × Row)) : pairs.map (fun pair => Row.fold plan.nodes pair.1)
          = (pairs.map Prod.fst).map (Row.fold plan.nodes) := by
        rw [List.map_map]
        rfl
      rw [hreorders.nodes, hfold, hfetched, ← hfold, hkeys] at hkeys'
      obtain rfl := Except.ok.inj hkeys'
      obtain rfl := hrelated.unique hsteady hrelated'
      rw [Deferred.map_at?_eq (hattached' hother), hfetched, hreorders.nodes,
        Deferred.map_at?_eq (hattached hplan)]

/-! ## Selects -/

/-- A select of accepted relations that was finished, and the rows that were read from it. -/
structure ResultSet.ReadFrom (ctx : Context σ) (statement : Statement) (result : ResultSet)
    (session : Session σ) (rows : List Row) : Prop where
  accepted : Relation.Accepted statement.relations
  finished : ∃ s t, statement.resultSet ctx s = (.ok result, t)
  read : ∃ t, result.materialize ctx session = (.ok rows, t)

lemma ResultSet.ReadFrom.exists_attaches {ctx : Context σ} {statement : Statement}
    {result : ResultSet} {s : Session σ} {rows : List Row}
    (h : result.ReadFrom ctx statement s rows) :
    ∃ pairs, pairs.map Prod.snd = rows ∧ result.Yields ctx result.plan.depth s pairs
      ∧ Plan.Attaches ctx result.plan.depth result.plan pairs := by
  obtain ⟨haccepted, ⟨u, v, hfinished⟩, t, hread⟩ := h
  have hfits := Statement.makes_fits_resultSet ctx haccepted u result v hfinished
  obtain ⟨pairs, hpairs, hyields⟩ := exists_yields hread
  exact ⟨pairs, hpairs, hyields, hyields.attaches hfits le_rfl⟩

/-- **What a select attaches.**  The relations of a select are accepted when they are built and
contained, and its rows are read with all of them.  Then on each level, each relation that is not
disturbed attaches to each owner the rows that were fetched with the key that was fetched with the
owner, whatever the other relations embed.  If the relations stand in another order in another
select, and each statement gets the reply that it got, they attach the same. -/
theorem ResultSet.attaches_of_readFrom {ctx : Context σ} {statement : Statement}
    {result : ResultSet} {s : Session σ} {rows : List Row}
    (h : result.ReadFrom ctx statement s rows) :
    ∃ pairs, pairs.map Prod.snd = rows ∧ result.Yields ctx result.plan.depth s pairs
      ∧ Plan.Attaches ctx result.plan.depth result.plan pairs
      ∧ (ctx.driver.Steady → ∀ statement' (other : ResultSet) s' rows',
          other.ReadFrom ctx statement' s' rows' → result.plan.Reorders other.plan →
          (ctx.fetch other.prepared s').1 = (ctx.fetch result.prepared s).1 →
          ∀ deferred ∈ result.plan.deferred, deferred.Undisturbed result.plan →
            deferred.Undisturbed other.plan →
            rows'.map (Row.at? · deferred.path deferred.relation.aliasName)
              = rows.map (Row.at? · deferred.path deferred.relation.aliasName)) := by
  obtain ⟨pairs, rfl, hyields, hpairs⟩ := h.exists_attaches
  refine ⟨pairs, rfl, hyields, hpairs, ?_⟩
  intro hsteady statement' other s' rows' h' hreorders hsame deferred hmem hplan hother
  obtain ⟨pairs', rfl, hyields', hpairs'⟩ := h'.exists_attaches
  obtain ⟨u, hfetch⟩ := hyields.fetched
  obtain ⟨u', hfetch'⟩ := hyields'.fetched
  rw [hfetch, hfetch'] at hsame
  rw [hreorders.depth_eq] at hpairs'
  exact hpairs.same hsteady hreorders hpairs' (Except.ok.inj hsame) hmem hplan hother

/-! ## A user with a company and with posts -/

namespace Sample

/-- A driver that gives one reply after the other, whatever it is asked for. -/
def replaying : Driver (List (List Row)) where
  dialect := .mysql
  fetch := fun _ _ replies => (.ok replies.headI, replies.tail)
  execute := fun _ _ replies => (.ok ⟨0, none⟩, replies)
  columns := fun _ replies => (.ok ["id"], replies)

def ctx : Context (List (List Row)) := .ofConfig replaying {}

/-- Users, each with its company and the offices of that, and with its posts. -/
def users : Statement where
  activity := .select
  table := some ⟨"users", none⟩
  relations :=
    [⟨.ofTable .belongsTo "companies", [.ofTable .hasMany "offices"]⟩, .ofTable .hasMany "posts"]

def offices : Deferred := ⟨.ofTable .hasMany "offices", ["companies"], "id", "company_id", none⟩

def posts : Deferred := ⟨.ofTable .hasMany "posts", [], "id", "user_id", none⟩

def user : Row := ⟨[("id", .str "1"), ("__contain_companies__id", .str "5")]⟩

def office : Row := ⟨[("company_id", .str "5")]⟩

def post : Row := ⟨[("user_id", .str "1")]⟩

/-- The user with all relations. -/
def row : Row :=
  ⟨[("id", .str "1"), ("companies", .obj [("id", .str "5"), ("offices", .arr [office.toValue])]),
    ("posts", .arr [post.toValue])]⟩

/-- The session in which the rows are read. -/
def session : Session (List (List Row)) := { connection := [[user], [office], [post]] }

end Sample

open Sample in
set_option maxRecDepth 20000 in
/-- The relations of a user are undisturbed, so each of them attaches by the fetched keys. -/
theorem ResultSet.attached_of_user :
    ∃ result : ResultSet, result.ReadFrom ctx users session [row]
      ∧ result.plan.deferred = [offices, posts]
      ∧ ∀ deferred ∈ result.plan.deferred, deferred.Undisturbed result.plan
        ∧ ∃ related, deferred.Attached result.plan related user row := by
  obtain ⟨result, t, t', hresult, hread⟩ : ∃ result t t',
      users.resultSet ctx { connection := [] } = (.ok result, t)
      ∧ result.materialize ctx session = (.ok [row], t') := ⟨_, _, _, rfl, rfl⟩
  have hreadFrom : result.ReadFrom ctx users session [row] :=
    ⟨⟨by decide, by simp [users]; exact ⟨rfl, rfl⟩⟩, ⟨_, t, hresult⟩, t', hread⟩
  obtain ⟨main, u, v, hmain, hplan⟩ := Statement.exists_ofRelations hresult
  cases hmain
  obtain ⟨joins, fields, hexpanded⟩ : ∃ joins fields,
      (Plan.ofRelations ctx true users.relations ⟨"users", none⟩ u).1
        = .ok ⟨joins, fields, [⟨"companies", ["id"], []⟩], [offices, posts], ["id"]⟩ :=
    ⟨_, _, rfl⟩
  rw [hplan] at hexpanded
  have hnodes : result.plan.nodes = [⟨"companies", ["id"], []⟩] := by
    rw [Except.ok.inj hexpanded]
  have hdeferred : result.plan.deferred = [offices, posts] := by
    rw [Except.ok.inj hexpanded]
  -- No relation is embedded over a key, and no name looks like that of a joined column.
  have hmark : ∀ name ∈ ["id", "company_id", "user_id", "companies"],
      ¬ "__contain_".toList <+: name.toList := by decide
  have hplain : ∀ name ∈ ["id", "company_id", "user_id", "companies"], ¬ Plan.IsPrefixed name :=
    fun name hname hprefixed => hmark name hname (Plan.toList_of_isPrefixed hprefixed)
  have hplaces : ∀ other ∈ result.plan.deferred,
      other.place ≠ ["companies", "id"] ∧ other.place ≠ ["id"] := by
    rw [hdeferred]
    decide
  have htidy : result.plan.Tidy := by
    refine ⟨by rw [hnodes]; decide, ?_⟩
    rw [hnodes]
    exact List.forall_mem_singleton.mpr (hplain "companies" (by decide))
  have hundisturbed : ∀ deferred ∈ result.plan.deferred, deferred.Undisturbed result.plan := by
    rw [hdeferred]
    refine List.forall_mem_cons.mpr ⟨?_, List.forall_mem_singleton.mpr ?_⟩
    · exact {
        joined := by rw [hnodes]; simp [Node.Leads, offices]
        earlier := fun other hother => (hplaces other (hother.subset (by simp))).1
        nested := by decide
        ownerColumn := fun _ => hplain "id" (by decide)
        relatedColumn := hplain "company_id" (by decide)
        tidy := fun _ => htidy }
    · exact {
        joined := by rw [hnodes]; simp [Node.Leads, posts]
        earlier := fun other hother => (hplaces other (hother.subset (by simp))).2
        nested := by decide
        ownerColumn := fun _ => hplain "id" (by decide)
        relatedColumn := hplain "user_id" (by decide)
        tidy := fun _ => htidy }
  refine ⟨result, hreadFrom, hdeferred, fun deferred hmem => ⟨hundisturbed deferred hmem, ?_⟩⟩
  obtain ⟨pairs, hrows, hyields, hattaches, -⟩ := ResultSet.attaches_of_readFrom hreadFrom
  have hdepth : result.plan.depth = 1 := by
    rw [Plan.depth, hdeferred]
    rfl
  rw [hdepth] at hattaches
  obtain ⟨w, hfetched⟩ := hyields.fetched
  have hraws : pairs.map Prod.fst = [user] := Except.ok.inj (congrArg Prod.fst hfetched).symm
  have hpairs : pairs = [(user, row)] := by
    rw [List.zip_of_prod hraws hrows]
    rfl
  obtain ⟨keys, related, -, -, hattached⟩ := hattaches deferred hmem
  exact ⟨related, hattached (hundisturbed deferred hmem) (user, row) (by simp [hpairs])⟩

open Sample in
set_option maxRecDepth 20000 in
/-- A relation that is embedded under the name of the key takes it from the relations behind it. -/
example : ∃ result t t',
    Statement.resultSet ctx
      { activity := .select, table := some ⟨"users", none⟩, relations :=
          [⟨{ mode := .hasMany, aliasName := "id", table := "posts" }, []⟩,
            .ofTable .hasMany "comments"] } { connection := [] } = (.ok result, t)
      ∧ result.materialize ctx { connection := [[⟨[("id", .str "1")]⟩], [post], [post]] }
        = (.ok [⟨[("id", .arr [post.toValue]), ("comments", .arr [])]⟩], t') :=
  ⟨_, _, _, rfl, rfl⟩

end RelQuery
