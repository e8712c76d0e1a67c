import RelQuery.Plan.Loading
import RelQuery.Proofs.Condition.Steps

/-!
# How computations fail

A computation in steps fails where one of its steps does, and for the cause that this step has.

* `FailsOnly` says which errors a computation gives up with, if it does.
* **`Deferred.failsOnly_keysFrom`**, **`failsOnly_groups`**, **`failsOnly_embed`** — reading related
  rows fails for a column that a row lacks, and for nothing else.
-/

namespace RelQuery

variable {α β : Type} {kind : Error → Prop}

/-- A computation whose errors are all of some kind. -/
def FailsOnly (kind : Error → Prop) (x : Except Error α) : Prop := ∀ e, x = .error e → kind e

namespace FailsOnly

lemma ok (a : α) : FailsOnly kind (.ok a) := fun _ h => by cases h

lemma error {e : Error} (h : kind e) : FailsOnly kind (.error e : Except Error α) :=
  fun _ he => Except.error.inj he ▸ h

lemma mono {kind' : Error → Prop} {x : Except Error α} (h : FailsOnly kind x)
    (hkind : ∀ e, kind e → kind' e) : FailsOnly kind' x :=
  fun e he => hkind e (h e he)

lemma bind {x : Except Error α} {f : α → Except Error β} (hx : FailsOnly kind x)
    (hf : ∀ a, FailsOnly kind (f a)) : FailsOnly kind (x >>= f) := by
  cases x with
  | ok a => exact hf a
  | error e => exact error (hx e rfl)

lemma map {x : Except Error α} (h : FailsOnly kind x) (f : α → β) :
    FailsOnly kind (x.map f) := by
  cases x with
  | ok a => exact ok (f a)
  | error e => exact error (h e rfl)

lemma mapM {f : α → Except Error β} {items : List α} (h : ∀ a ∈ items, FailsOnly kind (f a)) :
    FailsOnly kind (items.mapM f) := by
  induction items with
  | nil => exact ok []
  | cons a items ih =>
      rw [List.mapM_cons]
      exact (h a List.mem_cons_self).bind fun b =>
        (ih fun a ha => h a (List.mem_cons_of_mem _ ha)).bind fun rest => ok _

end FailsOnly

/-! ## Reading rows -/

/-- The error of a row that lacks a column. -/
def Error.IsMissingKey (e : Error) : Prop := ∃ key aliasName, e = .missingKey key aliasName

lemma failsOnly_missingKey (key aliasName : String) :
    FailsOnly Error.IsMissingKey (.error (.missingKey key aliasName) : Except Error α) :=
  .error ⟨key, aliasName, rfl⟩

lemma Rows.failsOnly_collect (aliasName field : String) (put : Row → String → Row → Row)
    (object : Row) (rows : List Row) :
    FailsOnly Error.IsMissingKey (Rows.collect aliasName field put object rows) := by
  induction rows generalizing object with
  | nil => exact .ok object
  | cons row rows ih =>
      have hkey : FailsOnly Error.IsMissingKey (Rows.keyOf aliasName field row) := by
        rw [Rows.keyOf]
        split
        · exact .ok _
        · exact failsOnly_missingKey field aliasName
      rw [Rows.collect]
      refine hkey.bind fun key => ?_
      cases key with
      | none => exact ih object
      | some key => exact ih (put object key row)

lemma Shaping.failsOnly_apply (shaping : Shaping) (rows : List Row) (aliasName : String) :
    FailsOnly Error.IsMissingKey (shaping.apply rows aliasName) := by
  cases shaping with
  | column field => exact .ok _
  | combine values key glue => exact (Rows.failsOnly_collect _ _ _ _ _).map _
  | keyedBy field => exact (Rows.failsOnly_collect _ _ _ _ _).map _
  | groupedBy field => exact (Rows.failsOnly_collect _ _ _ _ _).map _

namespace Deferred

variable (deferred : Deferred)

/-- **Collecting keys fails for a parent without the key**, and for nothing else. -/
theorem failsOnly_keysFrom (seen : List String) (rows : List Row) :
    FailsOnly (· = .missingKey deferred.parentKey deferred.relation.aliasName)
      (deferred.keysFrom seen rows) := by
  induction rows generalizing seen with
  | nil => exact .ok []
  | cons row rows ih =>
      rw [keysFrom]
      split
      · exact ih seen
      · next owner _ =>
          have hkey : FailsOnly (· = .missingKey deferred.parentKey deferred.relation.aliasName)
              (owner.require deferred.parentKey deferred.relation.aliasName) := by
            rw [Row.require]
            split
            · exact .ok _
            · exact .error rfl
          refine hkey.bind fun value => ?_
          split
          · exact ih seen
          · split
            · exact ih seen
            · exact (ih _).bind fun rest => .ok _

/-- **Assigning rows fails for a row without the key**, and for nothing else. -/
theorem failsOnly_groups (rows : List Row) :
    FailsOnly (· = .missingKey deferred.childKey deferred.relation.aliasName)
      (deferred.groups rows) := by
  induction rows with
  | nil => exact .ok []
  | cons row rows ih =>
      rw [groups]
      split
      · exact .error rfl
      · refine ih.bind fun rest => ?_
        split <;> exact .ok _

lemma failsOnly_embedInOwner (groups : List (String × Row)) (owner : Row) :
    FailsOnly Error.IsMissingKey (deferred.embedInOwner groups owner) := by
  have hembedded (rows : List Row) : FailsOnly Error.IsMissingKey (deferred.embedded rows) := by
    rw [embedded]
    split
    · exact Shaping.failsOnly_apply _ _ _
    · exact .ok _
  exact (hembedded _).bind fun value => .ok _

lemma failsOnly_changeAt {change : Row → Except Error Row}
    (h : ∀ row, FailsOnly kind (change row)) (path : List String) (row : Row) :
    FailsOnly kind (changeAt change path row) := by
  induction path generalizing row with
  | nil => exact h row
  | cons aliasName path ih =>
      rw [changeAt]
      split
      · exact (ih _).bind fun inner => .ok _
      · exact .ok row

/-- **Embedding fails for a row without the key of its shape**, and for nothing else. -/
theorem failsOnly_embed (groups : List (String × Row)) (rows : List Row) :
    FailsOnly Error.IsMissingKey (deferred.embed groups rows) :=
  .mapM fun row _ => failsOnly_changeAt (deferred.failsOnly_embedInOwner groups) deferred.path row

end Deferred

end RelQuery
