import RelQuery.Plan.Expansion
import RelQuery.Proofs.Session.Steps

/-!
# What a plan is made of

Expanding relations asks the driver for columns, and nothing else about the outcome depends on the
session.

* **`Relation.InductiveBy.makes_expandAll`** — what holds of the four ways in which plans are put
  together holds of every plan.
* **`makes_fields_ofRelations`** — the fields of a plan are columns of its relations, each under the
  prefixed name of its relation and column.
-/

namespace RelQuery

open Session

variable {σ : Type}

/-- Fields that are columns of relations with some of these aliases. -/
def Plan.FieldsOf (aliases : List String) (fields : List Field) : Prop :=
  ∀ field ∈ fields, ∃ aliasName ∈ aliases, ∃ column, field = Plan.fieldOf aliasName column

lemma Plan.FieldsOf.mono {aliases aliases' : List String} {fields : List Field}
    (h : FieldsOf aliases fields) (hsub : aliases ⊆ aliases') : FieldsOf aliases' fields := by
  intro field hfield
  obtain ⟨aliasName, hmem, column, rfl⟩ := h field hfield
  exact ⟨aliasName, hsub hmem, column, rfl⟩

lemma Plan.FieldsOf.append {aliases : List String} {fields fields' : List Field}
    (h : FieldsOf aliases fields) (h' : FieldsOf aliases fields') :
    FieldsOf aliases (fields ++ fields') :=
  fun field hfield => (List.mem_append.mp hfield).elim (h field) (h' field)

lemma Plan.fieldsOf_map (aliasName : String) (columns : List String) :
    FieldsOf [aliasName] (columns.map (Plan.fieldOf aliasName)) := by
  intro field hfield
  obtain ⟨column, -, rfl⟩ := List.mem_map.mp hfield
  exact ⟨aliasName, List.mem_singleton_self _, column, rfl⟩

/-- The columns of a joined relation, where columns are planned at all. -/
def Context.plannedColumns (ctx : Context σ) (withFields : Bool) (link : Link)
    (nested : List Relation) : Session.Run σ (List String) :=
  if withFields then ctx.relationColumns link nested else pure []

/-- What a relation to one row adds to a select, with what the relations nested in it add. -/
def Plan.joined (join : Join) (aliasName : String) (columns : List String) (inner : Plan) :
    Plan where
  joins := join :: inner.joins
  fields := columns.map (Plan.fieldOf aliasName) ++ inner.fields
  nodes := [⟨aliasName, columns, inner.nodes⟩]
  deferred := inner.deferred
  rootKeys := inner.rootKeys

/-- What a relation to many rows adds to a select. -/
def Plan.postponed (deferred : Deferred) : Plan where
  deferred := [deferred]
  rootKeys := if deferred.path.isEmpty then [deferred.parentKey] else []

namespace Relation

section Equations

variable (ctx : Context σ) (withFields : Bool) (parentAlias parentTable : String)
  (path : List String) {link : Link} (nested : List Relation)

lemma expand_of_isToOne (h : link.mode.isToOne = true) :
    expand ctx withFields parentAlias parentTable path ⟨link, nested⟩ = do
      Session.emit (.expanding link.aliasName link.mode parentAlias)
      let columns ← ctx.plannedColumns withFields link nested
      let inner ←
        expandAll ctx withFields link.aliasName link.table (path ++ [link.aliasName]) nested
      return Plan.joined (link.join (link.namingOr ctx.naming) parentAlias parentTable)
        link.aliasName columns inner := by
  rw [expand, if_pos h]
  cases withFields <;> rfl

lemma expand_of_not_isToOne (h : link.mode.isToOne = false) :
    expand ctx withFields parentAlias parentTable path ⟨link, nested⟩ = do
      Session.emit (.expanding link.aliasName link.mode parentAlias)
      return Plan.postponed
        ((Relation.mk link nested).deferred (link.namingOr ctx.naming) parentTable path) := by
  rw [expand, h]
  rfl

end Equations

section Induction

/-- What holds of a plan at the end of a path, for one relation and for several.  It has to hold of
the four ways in which a plan is put together. -/
structure Inductive (one : List String → Relation → Plan → Prop)
    (all : List String → List Relation → Plan → Prop) : Prop where
  joined : ∀ path link nested join columns inner, link.mode.isToOne = true →
    all (path ++ [link.aliasName]) nested inner →
    one path ⟨link, nested⟩ (Plan.joined join link.aliasName columns inner)
  postponed : ∀ path link nested naming parentTable, link.mode.isToOne = false →
    one path ⟨link, nested⟩
      (Plan.postponed ((Relation.mk link nested).deferred naming parentTable path))
  nil : ∀ path, all path [] {}
  cons : ∀ path relation relations plan others, one path relation plan →
    all path relations others → all path (relation :: relations) (plan.append others)

/-- What holds of the plan for a parent table at the end of a path, for one relation and for
several, where keys are inferred by a convention. -/
structure InductiveBy (naming : Naming) (one : List String → String → Relation → Plan → Prop)
    (all : List String → String → List Relation → Plan → Prop) : Prop where
  joined : ∀ path parentTable link nested join columns inner, link.mode.isToOne = true →
    all (path ++ [link.aliasName]) link.table nested inner →
    one path parentTable ⟨link, nested⟩ (Plan.joined join link.aliasName columns inner)
  postponed : ∀ path parentTable link nested, link.mode.isToOne = false →
    one path parentTable ⟨link, nested⟩
      (Plan.postponed ((Relation.mk link nested).deferred (link.namingOr naming) parentTable path))
  nil : ∀ path parentTable, all path parentTable [] {}
  cons : ∀ path parentTable relation relations plan others, one path parentTable relation plan →
    all path parentTable relations others →
    all path parentTable (relation :: relations) (plan.append others)

section

variable {ctx : Context σ} {one : List String → String → Relation → Plan → Prop}
  {all : List String → String → List Relation → Plan → Prop}

mutual

lemma InductiveBy.makes_expand (h : InductiveBy ctx.naming one all) (withFields : Bool)
    (parentAlias parentTable : String) (path : List String) : (relation : Relation) →
    Makes (expand ctx withFields parentAlias parentTable path relation)
      (one path parentTable relation)
  | ⟨link, nested⟩ => by
      cases hone : link.mode.isToOne with
      | true =>
          rw [expand_of_isToOne ctx withFields parentAlias parentTable path nested hone]
          refine (Makes.trivial _).bind fun _ _ => (Makes.trivial _).bind fun columns _ => ?_
          exact (h.makes_expandAll withFields link.aliasName link.table
            (path ++ [link.aliasName]) nested).bind fun inner hinner =>
              Makes.pure (h.joined path parentTable link nested _ columns inner hone hinner)
      | false =>
          rw [expand_of_not_isToOne ctx withFields parentAlias parentTable path nested hone]
          exact (Makes.trivial _).bind fun _ _ =>
            Makes.pure (h.postponed path parentTable link nested hone)

/-- **What is put together like plans holds of every plan**, in whatever session it is made. -/
theorem InductiveBy.makes_expandAll (h : InductiveBy ctx.naming one all) (withFields : Bool)
    (parentAlias parentTable : String) (path : List String) : (relations : List Relation) →
    Makes (expandAll ctx withFields parentAlias parentTable path relations)
      (all path parentTable relations)
  | [] => by
      rw [expandAll]
      exact Makes.pure (h.nil path parentTable)
  | relation :: relations => by
      rw [expandAll]
      refine (h.makes_expand withFields parentAlias parentTable path relation).bind
        fun plan hplan => ?_
      exact (h.makes_expandAll withFields parentAlias parentTable path relations).bind
        fun others hothers => Makes.pure
          (h.cons path parentTable relation relations plan others hplan hothers)

end

end

/-- What holds whatever the parent table is and however keys are inferred. -/
lemma Inductive.makes_expandAll {one : List String → Relation → Plan → Prop}
    {all : List String → List Relation → Plan → Prop} (h : Inductive one all) (ctx : Context σ)
    (withFields : Bool) (parentAlias parentTable : String) (path : List String)
    (relations : List Relation) :
    Makes (expandAll ctx withFields parentAlias parentTable path relations)
      (all path relations) := by
  have hby : InductiveBy ctx.naming (fun path _ => one path) (fun path _ => all path) :=
    { joined := fun path _ => h.joined path
      postponed := fun path parentTable link nested => h.postponed path link nested _ parentTable
      nil := fun path _ => h.nil path
      cons := fun path _ => h.cons path }
  exact hby.makes_expandAll withFields parentAlias parentTable path relations

end Induction

end Relation

/-- The fields of a plan are those of its relations, and of the relations nested in joined ones. -/
lemma Plan.inductive_fieldsOf : Relation.Inductive
    (fun _ relation plan => FieldsOf relation.aliases plan.fields)
    (fun _ relations plan => FieldsOf (Relation.aliasesOfAll relations) plan.fields) where
  joined path link nested join columns inner hone hinner := by
    rw [Relation.aliases, if_pos hone]
    exact ((fieldsOf_map _ _).mono (by simp)).append (hinner.mono (List.subset_cons_self _ _))
  postponed _ _ _ _ _ _ := fun field hfield => absurd hfield List.not_mem_nil
  nil _ := fun field hfield => absurd hfield List.not_mem_nil
  cons path relation relations plan others hplan hothers := by
    rw [Relation.aliasesOfAll]
    exact (hplan.mono (List.subset_append_left _ _)).append
      (hothers.mono (List.subset_append_right _ _))

/-- **The fields of a plan are columns of its relations**, each under its prefixed name. -/
theorem Plan.makes_fields_ofRelations (ctx : Context σ) (withFields : Bool)
    (relations : List Relation) (main : TableRef) :
    Makes (Plan.ofRelations ctx withFields relations main)
      fun plan => FieldsOf (Relation.aliasesOfAll relations) plan.fields :=
  Plan.inductive_fieldsOf.makes_expandAll ctx withFields main.reference main.name [] relations

end RelQuery
