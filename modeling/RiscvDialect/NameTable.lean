/-!
# Name tables

A table from names to values in which no name occurs twice. The entries are kept in the order of
their names, so that a table does not depend on the order in which it was filled.

## Main definitions

* `NameTable`: a table, with `NameTable.get?`, `NameTable.size` and `NameTable.names` to look at it
* `NameTable.insert`: the table with one more entry, under a name that is free

## Main statements

* `NameTable.get?_insert`, `NameTable.size_insert`: what one more entry changes
-/

namespace RiscvDialect

/-- A table from names to values, sorted by name. Names are compared character by character. -/
structure NameTable (α : Type) where
  /-- The names with their values. -/
  entries : List (String × α)
  sorted : (entries.map Prod.fst).Pairwise (· < ·)

namespace NameTable

variable {α : Type}

/-- The table without entries. -/
def empty : NameTable α := ⟨[], .nil⟩

/-- The value of a name. -/
def get? (t : NameTable α) (name : String) : Option α :=
  t.entries.lookup name

/-- The number of entries. -/
def size (t : NameTable α) : Nat :=
  t.entries.length

/-- The names, in order. -/
def names (t : NameTable α) : List String :=
  t.entries.map Prod.fst

/-! ### Inserting an entry -/

/-- Sorted entries with one more entry, put before the first larger name. -/
def insertEntry (name : String) (value : α) : List (String × α) → List (String × α)
  | [] => [(name, value)]
  | entry :: rest =>
    if name < entry.1 then (name, value) :: entry :: rest
    else entry :: insertEntry name value rest

theorem mem_map_fst_insertEntry {name : String} {value : α} {entries : List (String × α)}
    {n : String} :
    n ∈ (insertEntry name value entries).map Prod.fst ↔ n = name ∨ n ∈ entries.map Prod.fst := by
  induction entries with
  | nil => simp [insertEntry]
  | cons entry rest ih =>
    rw [insertEntry]
    split
    · simp
    · simp only [List.map_cons, List.mem_cons, ih]
      exact or_left_comm

@[simp] theorem length_insertEntry (name : String) (value : α) (entries : List (String × α)) :
    (insertEntry name value entries).length = entries.length + 1 := by
  induction entries with
  | nil => rfl
  | cons entry rest ih =>
    rw [insertEntry]
    split <;> simp [ih]

theorem lookup_insertEntry {name : String} {value : α} {entries : List (String × α)}
    (hfree : name ∉ entries.map Prod.fst) (n : String) :
    (insertEntry name value entries).lookup n =
      if n = name then some value else entries.lookup n := by
  induction entries with
  | nil =>
    by_cases h : n = name
    · simp [insertEntry, h]
    · have : (n == name) = false := by simpa using h
      simp [insertEntry, List.lookup_cons, h, this]
  | cons entry rest ih =>
    obtain ⟨key, v⟩ := entry
    simp only [List.map_cons, List.mem_cons, not_or] at hfree
    rw [insertEntry]
    split
    · by_cases h : n = name
      · simp [h]
      · have : (n == name) = false := by simpa using h
        simp [List.lookup_cons, h, this]
    · by_cases h : n = key
      · subst h
        simp [Ne.symm hfree.1]
      · have : (n == key) = false := by simpa using h
        simp [List.lookup_cons, this, ih hfree.2]

theorem sorted_insertEntry {name : String} {value : α} {entries : List (String × α)}
    (hfree : name ∉ entries.map Prod.fst) (hs : (entries.map Prod.fst).Pairwise (· < ·)) :
    ((insertEntry name value entries).map Prod.fst).Pairwise (· < ·) := by
  induction entries with
  | nil => simp [insertEntry]
  | cons entry rest ih =>
    simp only [List.map_cons, List.mem_cons, not_or] at hfree
    simp only [List.map_cons, List.pairwise_cons] at hs
    rw [insertEntry]
    split
    · next hlt =>
      simp only [List.map_cons, List.pairwise_cons, List.mem_cons, forall_eq_or_imp]
      exact ⟨⟨hlt, fun m hm => String.lt_trans hlt (hs.1 m hm)⟩, hs⟩
    · next hlt =>
      simp only [List.map_cons, List.pairwise_cons]
      refine ⟨fun m hm => ?_, ih hfree.2 hs.2⟩
      rcases mem_map_fst_insertEntry.1 hm with rfl | hm
      · exact String.not_le.1 fun hle => hfree.1 (String.le_antisymm hle (String.not_lt.1 hlt))
      · exact hs.1 m hm

theorem not_mem_of_lookup_eq_none {name : String} {entries : List (String × α)}
    (h : entries.lookup name = none) : name ∉ entries.map Prod.fst := by
  induction entries with
  | nil => simp
  | cons entry rest ih =>
    rw [List.lookup_cons] at h
    split at h
    · simp at h
    · next hne =>
      simp only [List.map_cons, List.mem_cons, not_or]
      exact ⟨by simpa using hne, ih h⟩

/-- The table with one more entry, whose name must be free. -/
def insert (t : NameTable α) (name : String) (value : α) (hfree : t.get? name = none) :
    NameTable α where
  entries := insertEntry name value t.entries
  sorted := sorted_insertEntry (not_mem_of_lookup_eq_none hfree) t.sorted

@[simp] theorem get?_empty (name : String) : (empty : NameTable α).get? name = none := rfl

theorem get?_insert {t : NameTable α} {name : String} {value : α} {hfree : t.get? name = none}
    (n : String) :
    (t.insert name value hfree).get? n = if n = name then some value else t.get? n :=
  lookup_insertEntry (not_mem_of_lookup_eq_none hfree) n

@[simp] theorem size_insert {t : NameTable α} {name : String} {value : α}
    {hfree : t.get? name = none} : (t.insert name value hfree).size = t.size + 1 :=
  length_insertEntry ..

end NameTable

end RiscvDialect
