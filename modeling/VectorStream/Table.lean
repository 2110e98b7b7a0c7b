/-!
# Tables

A table maps keys to values. A key that is entered again takes the new value.
-/
namespace VectorStream

structure Table (κ : Type) (ν : Type u) where
  entries : List (κ × ν)

namespace Table
variable {κ : Type} {ν : Type u} [DecidableEq κ]

def empty : Table κ ν := ⟨[]⟩

def find? (t : Table κ ν) (key : κ) : Option ν := t.entries.lookup key

def contains (t : Table κ ν) (key : κ) : Bool := (t.find? key).isSome

/-- Enters a value in place of the one that the key may have had. -/
def insert (t : Table κ ν) (key : κ) (value : ν) : Table κ ν :=
  ⟨(key, value) :: t.entries.filter (·.1 ≠ key)⟩

def ofList (entries : List (κ × ν)) : Table κ ν :=
  entries.foldl (fun t e => t.insert e.1 e.2) empty

/-- The keys in ascending order. -/
def keys (le : κ → κ → Bool) (t : Table κ ν) : List κ :=
  (t.entries.map (·.1)).mergeSort le

@[simp] theorem find?_empty (key : κ) : (empty : Table κ ν).find? key = none := rfl

theorem lookup_filter_ne (entries : List (κ × ν)) {key other : κ} (h : other ≠ key) :
    (entries.filter (·.1 ≠ key)).lookup other = entries.lookup other := by
  induction entries with
  | nil => rfl
  | cons e rest ih =>
    by_cases he : e.1 = key
    · rw [List.filter_cons_of_neg (by simp [he]), List.lookup_cons, ih, he,
        beq_false_of_ne h]
    · rw [List.filter_cons_of_pos (by simp [he]), List.lookup_cons, List.lookup_cons, ih]

/-- Entering a key changes what is found under that key and nothing else. -/
theorem find?_insert (t : Table κ ν) (key other : κ) (value : ν) :
    (t.insert key value).find? other = if other = key then some value else t.find? other := by
  unfold find? insert
  rw [List.lookup_cons]
  by_cases h : other = key
  · simp [h]
  · rw [lookup_filter_ne _ h, beq_false_of_ne h, if_neg h]

theorem find?_foldl_insert {entries : List (κ × ν)} (h : (entries.map (·.1)).Nodup)
    (t : Table κ ν) (key : κ) (value : ν) :
    (entries.foldl (fun t e => t.insert e.1 e.2) t).find? key = some value ↔
      (key, value) ∈ entries ∨ key ∉ entries.map (·.1) ∧ t.find? key = some value := by
  induction entries generalizing t with
  | nil => simp
  | cons e rest ih =>
    obtain ⟨other, v⟩ := e
    simp only [List.map_cons, List.nodup_cons] at h
    rw [List.foldl_cons, ih h.2, find?_insert]
    by_cases hk : key = other
    · subst hk
      have hmem : (key, value) ∉ rest := fun k => h.1 (List.mem_map_of_mem k)
      simp only [if_pos, Option.some.injEq, List.mem_cons, Prod.mk.injEq, true_and, hmem, h.1,
        not_false_eq_true, false_or, or_false, List.map_cons, not_true, false_and]
      exact eq_comm
    · simp [hk]

/-- Where no key is listed twice, a table has what is listed. -/
theorem find?_ofList {entries : List (κ × ν)} (h : (entries.map (·.1)).Nodup) {key : κ}
    {value : ν} : (ofList entries).find? key = some value ↔ (key, value) ∈ entries := by
  rw [ofList, find?_foldl_insert h]
  simp

end Table

end VectorStream
