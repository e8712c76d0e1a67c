import RelQuery.Proofs.Engine.Requests

/-!
# Names in use

The main table, the joins and the relations of a statement share their names.  A join or a relation
is refused if one of its names is taken.  What is not looked at is whether a relation repeats a name
within itself, and whether the name of a main table that comes last is free.

* `Statement.Apart` says that the joins and relations of a statement share no names.
* `Request.Careful` is a call that does not repeat a name in one of the two unwatched ways.
* **`nodup_aliases_iff`** — the names in use differ exactly if each relation's own do, and the main
  table's is none of the others.  They stay different as long as calls are careful.
-/

namespace RelQuery

variable {σ : Type}

/-! ## Names in parts -/

lemma Relation.aliasesOfAll_eq_flatMap (relations : List Relation) :
    aliasesOfAll relations = relations.flatMap aliases := by
  induction relations with
  | nil => rfl
  | cons relation relations ih => rw [List.flatMap_cons, aliasesOfAll, ih]

namespace Statement

/-- The names in use besides the main table's. -/
def taken (statement : Statement) : List String :=
  statement.joins.map Join.aliasName ++ Relation.aliasesOfAll statement.relations

/-- These names as they were taken: join by join, and relation by relation. -/
def parts (statement : Statement) : List (List String) :=
  statement.joins.map (fun join => [join.aliasName]) ++ statement.relations.map Relation.aliases

/-- Joins and relations that share no names. -/
def Apart (statement : Statement) : Prop := statement.parts.Pairwise List.Disjoint

variable {statement changed : Statement}

lemma aliases_eq (statement : Statement) :
    statement.aliases = (statement.table.map TableRef.reference).toList ++ statement.taken :=
  List.append_assoc _ _ _

lemma flatten_parts (statement : Statement) : statement.parts.flatten = statement.taken := by
  rw [parts, List.flatten_append, taken, Relation.aliasesOfAll_eq_flatMap, ← List.flatMap_def,
    ← List.flatMap_def, List.map_eq_flatMap]

/-- Names that are apart differ as soon as each relation's own do. -/
lemma nodup_taken_iff (h : statement.Apart) :
    statement.taken.Nodup ↔ ∀ relation ∈ statement.relations, relation.aliases.Nodup := by
  rw [← flatten_parts, List.nodup_flatten]
  constructor
  · rintro ⟨hparts, -⟩ relation hrelation
    exact hparts _ (List.mem_append_right _ (List.mem_map_of_mem hrelation))
  · intro hrelations
    refine ⟨fun part hpart => ?_, h⟩
    rcases List.mem_append.mp hpart with hpart | hpart
    · obtain ⟨join, -, rfl⟩ := List.mem_map.mp hpart
      exact List.nodup_singleton _
    · obtain ⟨relation, hrelation, rfl⟩ := List.mem_map.mp hpart
      exact hrelations relation hrelation

lemma nodup_aliases_iff_of_apart (h : statement.Apart) :
    statement.aliases.Nodup
      ↔ (∀ relation ∈ statement.relations, relation.aliases.Nodup)
        ∧ ∀ table, statement.table = some table → table.reference ∉ statement.taken := by
  rw [aliases_eq, ← nodup_taken_iff h]
  cases statement.table with
  | none => simp
  | some table => simp [and_comm]

/-! ## Taking names -/

lemma checkFree_eq_ok {aliasName : String} :
    statement.checkFree aliasName = .ok () ↔ aliasName ∉ statement.aliases := by
  rw [checkFree]
  split
  · next htaken => simpa [misuse] using htaken
  · next hfree => simpa using hfree

lemma addJoin_eq_ok {join : Join} :
    statement.addJoin join = .ok changed ↔ join.aliasName ∉ statement.aliases
      ∧ { statement with joins := statement.joins ++ [join] } = changed := by
  rw [addJoin, check_bind_eq_ok, checkFree_eq_ok, return_eq_ok]

lemma addRelation_eq_ok {relation : Relation} :
    statement.addRelation relation = .ok changed
      ↔ (∀ a ∈ relation.aliases, a ∉ statement.aliases)
        ∧ { statement with relations := statement.relations ++ [relation] } = changed := by
  have hchecks : relation.aliases.forM statement.checkFree = .ok ()
      ↔ ∀ a ∈ relation.aliases, a ∉ statement.aliases := by
    simp only [← checkFree_eq_ok]
    exact forM_eq_ok
  rw [addRelation, check_bind_eq_ok, hchecks, return_eq_ok]

/-- A part whose names are free is apart from the others. -/
lemma Apart.of_perm {part : List String} (h : statement.Apart)
    (hperm : changed.parts.Perm (part :: statement.parts))
    (hfree : ∀ a ∈ part, a ∉ statement.aliases) : changed.Apart := by
  rw [Apart, hperm.pairwise_iff fun h => h.symm, List.pairwise_cons]
  refine ⟨fun other hother a ha hmem => hfree a ha ?_, h⟩
  rw [aliases_eq, ← flatten_parts]
  exact List.mem_append_right _ (List.mem_flatten.mpr ⟨other, hother, hmem⟩)

lemma apart_addJoin {join : Join} (h : statement.addJoin join = .ok changed)
    (hs : statement.Apart) : changed.Apart := by
  obtain ⟨hfree, rfl⟩ := addJoin_eq_ok.mp h
  have hperm : (parts { statement with joins := statement.joins ++ [join] }).Perm
      ([join.aliasName] :: statement.parts) := by
    rw [parts, List.map_append, List.append_assoc]
    exact List.perm_middle
  exact hs.of_perm hperm (by simpa using hfree)

lemma apart_addRelation {relation : Relation} (h : statement.addRelation relation = .ok changed)
    (hs : statement.Apart) : changed.Apart := by
  obtain ⟨hfree, rfl⟩ := addRelation_eq_ok.mp h
  refine hs.of_perm ?_ hfree
  rw [parts, List.map_append, ← List.append_assoc]
  exact List.perm_append_singleton _ _

/-! ## Every name once -/

lemma nodup_addJoin {join : Join} (h : statement.addJoin join = .ok changed)
    (hs : statement.aliases.Nodup) : changed.aliases.Nodup := by
  obtain ⟨hfree, rfl⟩ := addJoin_eq_ok.mp h
  have hperm : (aliases { statement with joins := statement.joins ++ [join] }).Perm
      (join.aliasName :: statement.aliases) := by
    simp only [aliases, List.map_append, List.map_singleton, List.append_assoc,
      List.singleton_append]
    rw [← List.append_assoc, ← List.append_assoc]
    exact List.perm_middle
  exact hperm.nodup_iff.mpr (List.nodup_cons.mpr ⟨hfree, hs⟩)

lemma nodup_addRelation_iff {relation : Relation}
    (h : statement.addRelation relation = .ok changed) (hs : statement.aliases.Nodup) :
    changed.aliases.Nodup ↔ relation.aliases.Nodup := by
  obtain ⟨hfree, rfl⟩ := addRelation_eq_ok.mp h
  have happend : aliases { statement with relations := statement.relations ++ [relation] }
      = statement.aliases ++ relation.aliases := by
    simp only [aliases, Relation.aliasesOfAll_eq_flatMap, List.flatMap_append,
      List.flatMap_singleton, List.append_assoc]
  rw [happend, List.nodup_append']
  exact ⟨fun h => h.2.1, fun h => ⟨hs, h, fun a ha hr => hfree a hr ha⟩⟩

lemma nodup_completed_iff (hnone : statement.table = none) (hs : statement.aliases.Nodup)
    (table : TableRef) :
    (aliases { statement with table := some table }).Nodup
      ↔ table.reference ∉ statement.aliases := by
  have hcons : aliases { statement with table := some table }
      = table.reference :: statement.aliases := by
    rw [aliases_eq, aliases_eq statement, hnone]
    rfl
  rw [hcons, List.nodup_cons]
  exact ⟨fun h => h.1, fun h => ⟨h, hs⟩⟩

end Statement

/-! ## Along moves -/

section Moves

variable {before after : List Statement}

/-- What holds of an opened statement, and is kept by every move. -/
lemma Move.forall_of_kept {p : Statement → Prop} (h : Move before after)
    (hopens : ∀ statement, statement.joins = [] → statement.relations = [] → p statement)
    (hchanges : ∀ statement changed, statement.SameNames changed → p statement → p changed)
    (hjoins : ∀ statement changed join, statement.addJoin join = .ok changed → p statement →
      p changed)
    (hall : ∀ statement ∈ before, p statement) : ∀ statement ∈ after, p statement := by
  cases h with
  | opens hjoins hrelations rest =>
      exact List.forall_mem_cons.mpr ⟨hopens _ hjoins hrelations, hall⟩
  | drops statement rest => exact (List.forall_mem_cons.mp hall).2
  | changes h rest =>
      obtain ⟨hfirst, hrest⟩ := List.forall_mem_cons.mp hall
      exact List.forall_mem_cons.mpr ⟨hchanges _ _ h hfirst, hrest⟩
  | joins h rest =>
      obtain ⟨hfirst, hrest⟩ := List.forall_mem_cons.mp hall
      exact List.forall_mem_cons.mpr ⟨hjoins _ _ _ h hfirst, hrest⟩

lemma Moves.forall_apart (h : Moves before after)
    (hall : ∀ statement ∈ before, statement.Apart) : ∀ statement ∈ after, statement.Apart := by
  induction h with
  | refl => exact hall
  | tail _ hmove ih =>
      refine hmove.forall_of_kept ?_ ?_ (fun _ _ _ h => Statement.apart_addJoin h) ih
      · intro statement hjoins hrelations
        rw [Statement.Apart, Statement.parts, hjoins, hrelations]
        exact List.Pairwise.nil
      · intro statement changed h hs
        rwa [Statement.Apart, Statement.parts, h.joins, h.relations]

lemma Moves.forall_nodup (h : Moves before after)
    (hall : ∀ statement ∈ before, statement.aliases.Nodup) :
    ∀ statement ∈ after, statement.aliases.Nodup := by
  induction h with
  | refl => exact hall
  | tail _ hmove ih =>
      refine hmove.forall_of_kept ?_ ?_ (fun _ _ _ h => Statement.nodup_addJoin h) ih
      · intro statement hjoins hrelations
        rw [Statement.aliases, hjoins, hrelations]
        cases statement.table <;> simp [Relation.aliasesOfAll]
      · intro statement changed h hs
        rwa [Statement.aliases, h.table, h.joins, h.relations]

end Moves

/-! ## Along calls -/

variable {ctx : Context σ} {engine : Engine σ}

/-- One call keeps joins and relations apart. -/
lemma Request.forall_apart (request : Request)
    (hall : ∀ statement ∈ engine.stack, statement.Apart) :
    ∀ statement ∈ (request.after ctx engine).stack, statement.Apart := by
  rcases request.moves ctx engine with hmoves
    | ⟨table, statement, rest, -, hstack, -, -, hafter⟩
    | ⟨relation, statement, changed, rest, -, hstack, -, hchanged, hafter⟩
  · exact hmoves.forall_apart hall
  · rw [hstack] at hall
    rw [hafter]
    obtain ⟨hfirst, hrest⟩ := List.forall_mem_cons.mp hall
    exact List.forall_mem_cons.mpr ⟨hfirst, hrest⟩
  · rw [hstack] at hall
    obtain ⟨hfirst, hrest⟩ := List.forall_mem_cons.mp hall
    rw [hafter]
    exact List.forall_mem_cons.mpr ⟨Statement.apart_addRelation hchanged hfirst, hrest⟩

/-- A row of calls keeps joins and relations apart. -/
lemma Engine.forall_apart_after (requests : List Request)
    (hall : ∀ statement ∈ engine.stack, statement.Apart) :
    ∀ statement ∈ (Engine.after ctx engine requests).stack, statement.Apart := by
  induction requests generalizing engine with
  | nil => exact hall
  | cons request requests ih => exact ih (request.forall_apart hall)

/-- A call that repeats no name: the relation it adds has each of its names once, or the table that
it gives a select has a name that is free. -/
def Request.Careful (engine : Engine σ) : Request → Prop
  | .contain relation => ∀ statement changed rest, engine.stack = statement :: rest →
      statement.activity = .select → statement.addRelation relation = .ok changed →
      relation.aliases.Nodup
  | .fromTable table => ∀ statement rest, engine.stack = statement :: rest →
      statement.activity = .select → statement.table = none →
      table.reference ∉ statement.aliases
  | _ => True

/-- A row of calls each of which repeats no name. -/
def Engine.Careful (ctx : Context σ) (engine : Engine σ) : List Request → Prop
  | [] => True
  | request :: requests =>
    request.Careful engine ∧ Engine.Careful ctx (request.after ctx engine) requests

/-- **Names stay different exactly if the call is careful.** -/
theorem Request.forall_nodup_iff (request : Request)
    (hall : ∀ statement ∈ engine.stack, statement.aliases.Nodup) :
    (∀ statement ∈ (request.after ctx engine).stack, statement.aliases.Nodup)
      ↔ request.Careful engine := by
  constructor
  · intro hafter
    obtain ⟨stack, session⟩ := engine
    cases request with
    | contain relation =>
        intro statement changed rest hstack hselect hchanged
        obtain rfl : stack = statement :: rest := StatementStack.toList_eq_iff.mp hstack
        rw [stack_contain, if_pos hselect, hchanged] at hafter
        have hfirst := (List.forall_mem_cons.mp hall).1
        exact (Statement.nodup_addRelation_iff hchanged hfirst).mp
          (List.forall_mem_cons.mp hafter).1
    | fromTable table =>
        intro statement rest hstack hselect hnone
        obtain rfl : stack = statement :: rest := StatementStack.toList_eq_iff.mp hstack
        rw [stack_fromTable, if_pos ⟨hselect, hnone⟩] at hafter
        have hfirst := (List.forall_mem_cons.mp hall).1
        exact (Statement.nodup_completed_iff hnone hfirst table).mp
          (List.forall_mem_cons.mp hafter).1
    | _ => trivial
  · intro hcareful
    rcases request.moves ctx engine with hmoves
      | ⟨table, statement, rest, rfl, hstack, hselect, hnone, hafter⟩
      | ⟨relation, statement, changed, rest, rfl, hstack, hselect, hchanged, hafter⟩
    · exact hmoves.forall_nodup hall
    · rw [hstack] at hall
      obtain ⟨hfirst, hrest⟩ := List.forall_mem_cons.mp hall
      have hfree := hcareful statement rest hstack hselect hnone
      rw [hafter]
      exact List.forall_mem_cons.mpr
        ⟨(Statement.nodup_completed_iff hnone hfirst table).mpr hfree, hrest⟩
    · rw [hstack] at hall
      obtain ⟨hfirst, hrest⟩ := List.forall_mem_cons.mp hall
      have hnodup := hcareful statement changed rest hstack hselect hchanged
      rw [hafter]
      exact List.forall_mem_cons.mpr
        ⟨(Statement.nodup_addRelation_iff hchanged hfirst).mpr hnodup, hrest⟩

/-- Names are different all the time exactly if all calls are careful. -/
lemma Engine.forall_nodup_iff (requests : List Request)
    (hall : ∀ statement ∈ engine.stack, statement.aliases.Nodup) :
    (∀ n, ∀ statement ∈ (Engine.after ctx engine (requests.take n)).stack, statement.aliases.Nodup)
      ↔ Engine.Careful ctx engine requests := by
  induction requests generalizing engine with
  | nil => exact iff_of_true (fun n => by rwa [List.take_nil]) trivial
  | cons request requests ih =>
      constructor
      · intro h
        have hfirst : ∀ statement ∈ (request.after ctx engine).stack, statement.aliases.Nodup :=
          h 1
        exact ⟨(request.forall_nodup_iff hall).mp hfirst, (ih hfirst).mp fun n => h (n + 1)⟩
      · rintro ⟨hcareful, hrest⟩ n
        cases n with
        | zero => exact hall
        | succ n =>
            exact (ih ((request.forall_nodup_iff hall).mpr hcareful)).mpr hrest n

/-- **What the names in use depend on.**  After any calls on a new engine, the names of a statement
differ exactly if each of its relations has its own names once, and the name of the main table is
none of the others.  They are different all the time exactly if no call repeats a name in one of
these two ways. -/
theorem Engine.nodup_aliases_iff (ctx : Context σ) (session : Session σ)
    (requests : List Request) :
    (∀ statement ∈ (Engine.after ctx ⟨[], session⟩ requests).stack,
      statement.aliases.Nodup
        ↔ (∀ relation ∈ statement.relations, relation.aliases.Nodup)
          ∧ ∀ table, statement.table = some table → table.reference ∉ statement.taken)
    ∧ ((∀ n, ∀ statement ∈ (Engine.after ctx ⟨[], session⟩ (requests.take n)).stack,
        statement.aliases.Nodup)
      ↔ Engine.Careful ctx ⟨[], session⟩ requests) := by
  refine ⟨fun statement hstatement => ?_, Engine.forall_nodup_iff requests (by simp)⟩
  exact Statement.nodup_aliases_iff_of_apart
    (Engine.forall_apart_after requests (by simp) statement hstatement)

/-- A relation that nests one of its own name is accepted, and the name is in use twice. -/
theorem Engine.aliases_of_nested_twice :
    let driver : Driver Unit := ⟨.mysql, fun _ _ s => (.ok [], s), fun _ _ s => (.ok ⟨0, none⟩, s),
      fun _ s => (.ok [], s)⟩
    let relation : Relation :=
      ⟨.ofTable .belongsTo "authors", [.ofTable .belongsTo "authors"]⟩
    let engine := Engine.after (.ofConfig driver {}) ⟨[], { connection := () }⟩
      [.find ⟨"posts", none⟩, .contain relation]
    relation.check = .ok () ∧ ∃ statement ∈ engine.stack,
      statement.aliases = ["posts", "authors", "authors"] ∧ ¬ statement.aliases.Nodup := by
  intro driver relation engine
  let statement : Statement :=
    { activity := .select, table := some ⟨"posts", none⟩, relations := [relation] }
  have hstack : engine.stack = [statement] := rfl
  have hmem : statement ∈ engine.stack := by
    rw [hstack]
    exact List.mem_singleton_self _
  have hrelation : ¬ relation.aliases.Nodup := by decide
  refine ⟨rfl, statement, hmem, rfl, fun hnodup => hrelation ?_⟩
  exact (((nodup_aliases_iff _ _ _).1 statement hmem).mp hnodup).1 relation
    (List.mem_singleton_self _)

end RelQuery
