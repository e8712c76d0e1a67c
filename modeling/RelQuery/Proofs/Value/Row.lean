import Mathlib
import RelQuery.Value.Row

/-!
# Rows as lists of columns

A row is read by name, and its columns have an order.  A column that is new goes to the end, and one
that is there keeps its place, so a row that has no column twice never gets one twice.

* `Row.Distinct` says that a row has no column twice.
* **`Row.Distinct.insert`**, **`Row.Distinct.erase`** — inserting and erasing keep it so.
* **`Row.entries_merge`** — new columns go to the end in their order.
-/

namespace RelQuery

/-- Where no key stands twice, each leads to what stands beside it. -/
lemma lookup_eq_some_of_mem {α : Type} {entries : List (String × α)}
    (h : (entries.map Prod.fst).Nodup) {key : String} {a : α} (hmem : (key, a) ∈ entries) :
    entries.lookup key = some a := by
  induction entries with
  | nil => exact absurd hmem List.not_mem_nil
  | cons entry entries ih =>
      obtain ⟨other, own⟩ := entry
      rw [List.map_cons, List.nodup_cons] at h
      rcases List.mem_cons.mp hmem with heq | hrest
      · obtain ⟨rfl, rfl⟩ := Prod.mk.inj heq
        exact List.lookup_cons_self
      · have hne : (key == other) = false := by
          rw [beq_eq_false_iff_ne]
          rintro rfl
          exact h.1 (List.mem_map.mpr ⟨(key, a), hrest, rfl⟩)
        rw [List.lookup_cons, hne]
        exact ih h.2 hrest

namespace Row

variable {row : Row} {name : String} {entries : List (String × Value)}

/-! ## Names -/

lemma map_fst_insertEntry (name : String) (value : Value) (entries : List (String × Value)) :
    (insertEntry name value entries).map Prod.fst
      = if name ∈ entries.map Prod.fst then entries.map Prod.fst
        else entries.map Prod.fst ++ [name] := by
  induction entries with
  | nil => rfl
  | cons entry entries ih =>
      obtain ⟨other, old⟩ := entry
      by_cases heq : other = name
      · simp [insertEntry, heq]
      · have hne : name ≠ other := Ne.symm heq
        simp only [insertEntry, if_neg heq, List.map_cons, ih, List.mem_cons, hne, false_or]
        split <;> rfl

lemma map_fst_eraseEntry (name : String) (entries : List (String × Value)) :
    (eraseEntry name entries).map Prod.fst = (entries.map Prod.fst).erase name := by
  induction entries with
  | nil => rfl
  | cons entry entries ih =>
      obtain ⟨other, old⟩ := entry
      by_cases heq : other = name <;> simp [eraseEntry, heq, ih]

lemma get?_eq_none_of_not_mem (h : name ∉ row.entries.map Prod.fst) : row.get? name = none := by
  refine List.lookup_eq_none_iff.mpr fun entry hentry => ?_
  refine bne_iff_ne.mpr ?_
  rintro rfl
  exact h (List.mem_map_of_mem hentry)

lemma get?_eq_none_iff : row.get? name = none ↔ name ∉ row.entries.map Prod.fst := by
  refine ⟨fun h hmem => ?_, get?_eq_none_of_not_mem⟩
  obtain ⟨entry, hentry, rfl⟩ := List.mem_map.mp hmem
  exact bne_iff_ne.mp (List.lookup_eq_none_iff.mp h entry hentry) rfl

/-! ## Rows without repetitions -/

/-- A row that has no column twice. -/
def Distinct (row : Row) : Prop := (row.entries.map Prod.fst).Nodup

lemma Distinct.insert (h : row.Distinct) (name : String) (value : Value) :
    (row.insert name value).Distinct := by
  rw [Distinct, Row.insert, map_fst_insertEntry]
  split
  · exact h
  · next hnew => exact List.nodup_append'.mpr ⟨h, List.nodup_singleton _, by simpa using hnew⟩

lemma Distinct.erase (h : row.Distinct) (name : String) : (row.erase name).Distinct := by
  rw [Distinct, Row.erase, map_fst_eraseEntry]
  exact List.Nodup.erase _ h

/-- Columns that are inserted one after the other are inserted each in one place. -/
lemma Distinct.merge (h : row.Distinct) (other : Row) : (row.merge other).Distinct := by
  obtain ⟨entries⟩ := other
  induction entries generalizing row with
  | nil => exact h
  | cons entry entries ih => exact ih (h.insert entry.1 entry.2)

lemma Distinct.get?_erase (h : row.Distinct) : (row.erase name).get? name = none := by
  refine get?_eq_none_of_not_mem ?_
  rw [Row.erase, map_fst_eraseEntry]
  exact List.Nodup.not_mem_erase h

/-! ## Places -/

/-- A new column goes to the end. -/
lemma insertEntry_of_not_mem (value : Value) (h : name ∉ entries.map Prod.fst) :
    insertEntry name value entries = entries ++ [(name, value)] := by
  induction entries with
  | nil => rfl
  | cons entry entries ih =>
      rw [List.map_cons] at h
      rw [insertEntry, if_neg (List.ne_of_not_mem_cons h).symm,
        ih (List.not_mem_of_not_mem_cons h), List.cons_append]

/-- The other columns stay, in their order. -/
lemma eraseEntry_eq_filter (h : (entries.map Prod.fst).Nodup) (name : String) :
    eraseEntry name entries = entries.filter fun entry => entry.1 ≠ name := by
  induction entries with
  | nil => rfl
  | cons entry entries ih =>
      obtain ⟨hfirst, hrest⟩ := List.nodup_cons.mp (List.map_cons .. ▸ h)
      by_cases heq : entry.1 = name
      · have hall : entries.filter (fun entry => entry.1 ≠ name) = entries := by
          refine List.filter_eq_self.mpr fun other hother => decide_eq_true ?_
          rintro rfl
          exact hfirst (heq ▸ List.mem_map_of_mem hother)
        rw [eraseEntry, if_pos heq, List.filter_cons_of_neg (by simpa using heq), hall]
      · rw [eraseEntry, if_neg heq, List.filter_cons_of_pos (by simpa using heq), ih hrest]

/-- New columns go to the end in their order. -/
lemma entries_merge {other : Row} (h : other.Distinct)
    (hfree : (row.entries.map Prod.fst).Disjoint (other.entries.map Prod.fst)) :
    (row.merge other).entries = row.entries ++ other.entries := by
  obtain ⟨entries⟩ := other
  induction entries generalizing row with
  | nil => exact (List.append_nil _).symm
  | cons entry entries ih =>
      obtain ⟨hfirst, hrest⟩ := List.nodup_cons.mp h
      obtain ⟨hnew, hfree⟩ := List.disjoint_cons_right.mp hfree
      have hinsert : (row.insert entry.1 entry.2).entries = row.entries ++ [entry] :=
        insertEntry_of_not_mem entry.2 hnew
      show ((row.insert entry.1 entry.2).merge ⟨entries⟩).entries = _
      rw [ih hrest, hinsert, List.append_assoc, List.singleton_append]
      rw [hinsert, List.map_append, List.disjoint_append_left]
      exact ⟨hfree, List.singleton_disjoint.mpr hfirst⟩

end Row

end RelQuery
