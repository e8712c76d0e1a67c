import RelQuery.Proofs.Condition.Steps
import RelQuery.Proofs.Plan.Expansion

/-!
# Where relations are embedded

Every relation of a plan is embedded at a place of its own: joined relations where they are folded,
deferred ones under their alias in an object that joined relations lead to.

* `Deferred.place` is the place of a deferred relation, `Node.Leads` says that joined relations lead
  along a path.
* `Relation.Accepted` says what is checked when relations are built and contained.
* **`Plan.makes_fits_ofRelations`** — accepted relations have a plan in which every place is taken
  once.
-/

namespace RelQuery

open Session

variable {σ : Type}

/-! ## Places -/

/-- The aliases that lead from a row to what a deferred relation embeds. -/
def Deferred.place (deferred : Deferred) : List String :=
  deferred.path ++ [deferred.relation.aliasName]

namespace Node

/-- Whether joined relations lead along a path.  The empty path leads to the row itself. -/
def Leads : List Node → List String → Prop
  | _, [] => True
  | nodes, aliasName :: path =>
    ∃ node ∈ nodes, node.aliasName = aliasName ∧ Leads node.children path

/-- Siblings have different aliases, at every level. -/
inductive Apart : List Node → Prop
  | intro {nodes : List Node} (nodup : (nodes.map Node.aliasName).Nodup)
      (children : ∀ node ∈ nodes, Apart node.children) : Apart nodes

variable {nodes others : List Node} {path : List String}

lemma Leads.of_append {rest : List String} (h : Leads nodes (path ++ rest)) : Leads nodes path := by
  induction path generalizing nodes with
  | nil => trivial
  | cons aliasName path ih =>
      obtain ⟨node, hmem, halias, hrest⟩ := h
      exact ⟨node, hmem, halias, ih hrest⟩

lemma leads_singleton {node : Node} {aliasName : String} :
    Leads [node] (aliasName :: path) ↔ node.aliasName = aliasName ∧ Leads node.children path := by
  simp [Leads]

lemma leads_append_left (h : Leads nodes path) (others : List Node) :
    Leads (nodes ++ others) path := by
  cases path with
  | nil => trivial
  | cons aliasName path =>
      obtain ⟨node, hmem, hnode⟩ := h
      exact ⟨node, List.mem_append_left _ hmem, hnode⟩

lemma leads_append_right (nodes : List Node) (h : Leads others path) :
    Leads (nodes ++ others) path := by
  cases path with
  | nil => trivial
  | cons aliasName path =>
      obtain ⟨node, hmem, hnode⟩ := h
      exact ⟨node, List.mem_append_right _ hmem, hnode⟩

lemma leads_append_cons {aliasName : String} (h : Leads (nodes ++ others) (aliasName :: path)) :
    Leads nodes (aliasName :: path) ∨ Leads others (aliasName :: path) := by
  obtain ⟨node, hmem, hnode⟩ := h
  exact (List.mem_append.mp hmem).imp (⟨node, ·, hnode⟩) (⟨node, ·, hnode⟩)

lemma Apart.append (h : Apart nodes) (h' : Apart others)
    (hdisjoint : (nodes.map Node.aliasName).Disjoint (others.map Node.aliasName)) :
    Apart (nodes ++ others) := by
  obtain ⟨hnodup, hchildren⟩ := h
  obtain ⟨hnodup', hchildren'⟩ := h'
  refine ⟨?_, List.forall_mem_append.mpr ⟨hchildren, hchildren'⟩⟩
  rw [List.map_append]
  exact hnodup.append hnodup' hdisjoint

end Node

/-! ## Relations that are accepted -/

namespace Relation

/-- Relations that can be contained together: each declaration is accepted, and the names of
siblings differ. -/
structure Accepted (relations : List Relation) : Prop where
  nodup : (relations.map Relation.aliasName).Nodup
  checked : ∀ relation ∈ relations, relation.check = .ok ()

lemma checkNested_eq_ok {link : Link} {seen : List String} {relations : List Relation}
    (h : checkNested link seen relations = .ok ()) :
    Accepted relations ∧ ∀ relation ∈ relations, relation.aliasName ∉ seen := by
  induction relations generalizing seen with
  | nil => exact ⟨⟨List.nodup_nil, by simp⟩, by simp⟩
  | cons relation relations ih =>
      rw [checkNested, check_bind_eq_ok] at h
      obtain ⟨hfirst, h⟩ := h
      split at h
      · cases h
      · next hseen =>
          obtain ⟨haccepted, hrest⟩ := ih h
          have hfree : relation.aliasName ∉ relations.map Relation.aliasName := by
            rintro hmem
            obtain ⟨other, hother, heq⟩ := List.mem_map.mp hmem
            exact hrest other hother (heq ▸ List.mem_cons_self)
          refine ⟨⟨List.nodup_cons.mpr ⟨hfree, haccepted.nodup⟩,
            List.forall_mem_cons.mpr ⟨hfirst, haccepted.checked⟩⟩, ?_⟩
          refine List.forall_mem_cons.mpr ⟨by simpa using hseen, fun other hother hmem => ?_⟩
          exact hrest other hother (List.mem_cons_of_mem _ hmem)

/-- A declaration is accepted only if those nested in it are. -/
lemma accepted_nested {relation : Relation} (h : relation.check = .ok ()) :
    Accepted relation.nested := by
  obtain ⟨link, nested⟩ := relation
  rw [check] at h
  split at h
  · cases h
  · exact (checkNested_eq_ok h).1

end Relation

/-! ## The layout of a plan -/

namespace Plan

/-- A plan for relations with some aliases, whose parent is at the end of a path: every place is
taken once, and lies under one of the aliases. -/
structure LaidOut (path aliases : List String) (plan : Plan) : Prop where
  apart : Node.Apart plan.nodes
  nodes : ∀ node ∈ plan.nodes, node.aliasName ∈ aliases
  owners : ∀ deferred ∈ plan.deferred, ∃ rest, deferred.path = path ++ rest
    ∧ Node.Leads plan.nodes rest
    ∧ ¬ Node.Leads plan.nodes (rest ++ [deferred.relation.aliasName])
  nodup : (plan.deferred.map Deferred.place).Nodup
  places : ∀ deferred ∈ plan.deferred, ∃ aliasName ∈ aliases, path ++ [aliasName] <+: deferred.place
  checked : ∀ deferred ∈ plan.deferred, deferred.relation.check = .ok ()

section LaidOut

variable {path aliases others : List String} {plan plan' : Plan}

lemma laidOut_nil (path aliases : List String) : LaidOut path aliases {} where
  apart := ⟨List.nodup_nil, by simp⟩
  nodes := by simp
  owners := by simp
  nodup := List.nodup_nil
  places := by simp
  checked := by simp

/-- A joined relation is the place where what is nested in it begins. -/
lemma LaidOut.joined {aliasName : String} (join : Join) (columns : List String)
    (h : LaidOut (path ++ [aliasName]) aliases plan) :
    LaidOut path [aliasName] (Plan.joined join aliasName columns plan) where
  apart := ⟨List.nodup_singleton _, by simpa [Plan.joined] using h.apart⟩
  nodes := by simp [Plan.joined]
  owners := by
    intro deferred hdeferred
    obtain ⟨rest, hpath, hleads, hfree⟩ := h.owners deferred hdeferred
    refine ⟨aliasName :: rest, by rw [hpath, List.append_assoc]; rfl, ?_, ?_⟩
    · exact Node.leads_singleton.mpr ⟨rfl, hleads⟩
    · exact fun hleads' => hfree (Node.leads_singleton.mp hleads').2
  nodup := h.nodup
  places := by
    intro deferred hdeferred
    obtain ⟨_, -, hplace⟩ := h.places deferred hdeferred
    exact ⟨aliasName, List.mem_singleton_self _, (List.prefix_append _ _).trans hplace⟩
  checked := h.checked

lemma laidOut_postponed {deferred : Deferred} (h : deferred.relation.check = .ok ()) :
    LaidOut deferred.path [deferred.relation.aliasName] (Plan.postponed deferred) where
  apart := ⟨List.nodup_nil, by simp [Plan.postponed]⟩
  nodes := by simp [Plan.postponed]
  owners := by
    simp only [Plan.postponed, List.mem_singleton, forall_eq]
    exact ⟨[], (List.append_nil _).symm, trivial, by simp [Node.Leads]⟩
  nodup := List.nodup_singleton _
  places := by
    simp only [Plan.postponed, List.mem_singleton, forall_eq, exists_eq_left]
    exact List.prefix_rfl
  checked := by simpa [Plan.postponed] using h

/-- What a place begins with tells under which relation it lies. -/
lemma head_eq_of_places {aliasName aliasName' : String} {place : List String}
    (h : path ++ [aliasName] <+: place) (h' : path ++ [aliasName'] <+: place) :
    aliasName = aliasName' := by
  have heq := List.prefix_of_prefix_length_le h h' (by simp)
  simpa using heq

/-- Joined relations under other aliases do not lead to the place of a deferred relation. -/
lemma LaidOut.not_leads (h : LaidOut path aliases plan) {nodes : List Node}
    (hnodes : ∀ node ∈ nodes, node.aliasName ∉ aliases) {deferred : Deferred}
    (hmem : deferred ∈ plan.deferred) {rest : List String} (hpath : deferred.path = path ++ rest) :
    ¬ Node.Leads nodes (rest ++ [deferred.relation.aliasName]) := by
  obtain ⟨aliasName, halias, hplace⟩ := h.places deferred hmem
  rw [Deferred.place, hpath, List.append_assoc, List.prefix_append_right_inj] at hplace
  obtain ⟨tail, htail⟩ := hplace
  rw [← htail, List.singleton_append]
  rintro ⟨node, hnode, rfl, -⟩
  exact hnodes node hnode halias

lemma LaidOut.append (h : LaidOut path aliases plan) (h' : LaidOut path others plan')
    (hdisjoint : aliases.Disjoint others) :
    LaidOut path (aliases ++ others) (plan.append plan') where
  apart := by
    refine h.apart.append h'.apart fun name hname hname' => ?_
    obtain ⟨node, hnode, rfl⟩ := List.mem_map.mp hname
    obtain ⟨node', hnode', heq⟩ := List.mem_map.mp hname'
    exact hdisjoint (h.nodes node hnode) (heq ▸ h'.nodes node' hnode')
  nodes := List.forall_mem_append.mpr
    ⟨fun node hnode => List.mem_append_left _ (h.nodes node hnode),
      fun node hnode => List.mem_append_right _ (h'.nodes node hnode)⟩
  owners := by
    refine List.forall_mem_append.mpr ⟨fun deferred hmem => ?_, fun deferred hmem => ?_⟩
    · obtain ⟨rest, hpath, hleads, hfree⟩ := h.owners deferred hmem
      refine ⟨rest, hpath, Node.leads_append_left hleads _, fun hboth => ?_⟩
      have hother := h.not_leads (fun node hnode hname => hdisjoint hname (h'.nodes node hnode))
        hmem hpath
      cases rest <;> exact (Node.leads_append_cons hboth).elim hfree hother
    · obtain ⟨rest, hpath, hleads, hfree⟩ := h'.owners deferred hmem
      refine ⟨rest, hpath, Node.leads_append_right _ hleads, fun hboth => ?_⟩
      have hother := h'.not_leads (fun node hnode hname => hdisjoint (h.nodes node hnode) hname)
        hmem hpath
      cases rest <;> exact (Node.leads_append_cons hboth).elim hother hfree
  nodup := by
    show ((plan.deferred ++ plan'.deferred).map Deferred.place).Nodup
    rw [List.map_append]
    refine h.nodup.append h'.nodup fun place hplace hplace' => ?_
    obtain ⟨deferred, hmem, rfl⟩ := List.mem_map.mp hplace
    obtain ⟨deferred', hmem', heq⟩ := List.mem_map.mp hplace'
    obtain ⟨aliasName, halias, hunder⟩ := h.places deferred hmem
    obtain ⟨aliasName', halias', hunder'⟩ := h'.places deferred' hmem'
    exact hdisjoint halias (head_eq_of_places hunder (heq ▸ hunder') ▸ halias')
  places := List.forall_mem_append.mpr
    ⟨fun deferred hmem => (h.places deferred hmem).imp fun _ hplace =>
        ⟨List.mem_append_left _ hplace.1, hplace.2⟩,
      fun deferred hmem => (h'.places deferred hmem).imp fun _ hplace =>
        ⟨List.mem_append_right _ hplace.1, hplace.2⟩⟩
  checked := List.forall_mem_append.mpr ⟨h.checked, h'.checked⟩

end LaidOut

end Plan

/-! ## Plans of accepted relations -/

/-- The plan of an accepted relation is laid out under its alias. -/
lemma Plan.inductive_laidOut : Relation.Inductive
    (fun path relation plan => relation.check = .ok () → LaidOut path [relation.aliasName] plan)
    (fun path relations plan => Relation.Accepted relations →
      LaidOut path (relations.map Relation.aliasName) plan) where
  joined path link nested join columns inner _ hinner hcheck :=
    (hinner (Relation.accepted_nested hcheck)).joined join columns
  postponed path link nested naming parentTable _ hcheck := by
    let deferred := (Relation.mk link nested).deferred naming parentTable path
    have hdeferred : deferred.relation.check = .ok () := hcheck
    exact laidOut_postponed hdeferred
  nil path _ := laidOut_nil path []
  cons path relation relations plan others hplan hothers haccepted := by
    obtain ⟨hfree, hnodup⟩ := List.nodup_cons.mp haccepted.nodup
    obtain ⟨hfirst, hrest⟩ := List.forall_mem_cons.mp haccepted.checked
    exact (hplan hfirst).append (hothers ⟨hnodup, hrest⟩) (List.singleton_disjoint.mpr hfree)

/-! ## Depth -/

namespace Relation

lemma depthOfAll_nested_lt (relation : Relation) :
    depthOfAll relation.nested < relation.depth := by
  obtain ⟨link, nested⟩ := relation
  rw [depth]
  exact Nat.lt_succ_self _

lemma depth_le_depthOfAll {relations : List Relation} {relation : Relation}
    (h : relation ∈ relations) : relation.depth ≤ depthOfAll relations := by
  induction relations with
  | nil => exact absurd h List.not_mem_nil
  | cons first relations ih =>
      rw [depthOfAll]
      rcases List.mem_cons.mp h with rfl | h
      · exact le_max_left _ _
      · exact (ih h).trans (le_max_right _ _)

lemma depthOfAll_append (relations others : List Relation) :
    depthOfAll (relations ++ others) = max (depthOfAll relations) (depthOfAll others) := by
  induction relations with
  | nil => rw [List.nil_append, depthOfAll, Nat.zero_max]
  | cons relation relations ih => rw [List.cons_append, depthOfAll, depthOfAll, ih, max_assoc]

end Relation

lemma Plan.depthOfAll_nested_lt {plan : Plan} {deferred : Deferred}
    (h : deferred ∈ plan.deferred) :
    Relation.depthOfAll deferred.relation.nested < plan.depth :=
  (Relation.depthOfAll_nested_lt _).trans_le
    (Relation.depth_le_depthOfAll (List.mem_map_of_mem h))

/-- The deferred relations of a plan nest no deeper than its relations. -/
lemma Plan.inductive_depth : Relation.Inductive
    (fun _ relation plan => plan.depth ≤ relation.depth)
    (fun _ relations plan => plan.depth ≤ Relation.depthOfAll relations) where
  joined path link nested join columns inner _ hinner := by
    rw [Relation.depth]
    exact Nat.le_succ_of_le hinner
  postponed _ _ _ _ _ _ := (Nat.max_zero _).le
  nil _ := le_rfl
  cons path relation relations plan others hplan hothers := by
    show Relation.depthOfAll ((plan.deferred ++ others.deferred).map Deferred.relation) ≤ _
    rw [List.map_append, Relation.depthOfAll_append, Relation.depthOfAll]
    exact max_le_max hplan hothers

/-! ## Plans of statements -/

/-- A plan in which the places of some relations are taken once, and that nests no deeper. -/
structure Plan.Fits (relations : List Relation) (plan : Plan) : Prop where
  laidOut : LaidOut [] (relations.map Relation.aliasName) plan
  depth_le : plan.depth ≤ Relation.depthOfAll relations

/-- **Every place of accepted relations is taken once.** -/
theorem Plan.makes_fits_ofRelations (ctx : Context σ) (withFields : Bool)
    {relations : List Relation} (h : Relation.Accepted relations) (main : TableRef) :
    Makes (Plan.ofRelations ctx withFields relations main) (Fits relations) :=
  fun s plan t hrun =>
    ⟨inductive_laidOut.makes_expandAll ctx withFields _ _ [] relations s plan t hrun h,
      inductive_depth.makes_expandAll ctx withFields _ _ [] relations s plan t hrun⟩

end RelQuery
