import Mathlib.Data.Finset.Card
import RiscvDialect.NameTable
import RiscvDialect.Proofs.Text.Utf8

/-!
# Looking names up

In entries without repeated names, looking a name up finds the one entry under it. A name table is
therefore known by its lookups: nothing else is in it, and its order is that of the names.

## Main statements

* `lookup_eq_some_iff_mem`: looking up in entries without repeated names
* `NameTable.ext_get?`: tables with the same lookups are the same
* `NameTable.size_eq_card`: the number of names
* `NameTable.pairwise_utf8Bytes_names`: the names come in the order of their bytes
-/

namespace RiscvDialect

variable {α : Type}

/-! ### Entries -/

section Entries

variable {entries : List (String × α)}

/-- Without repeated names, looking a name up finds the entry under it. -/
theorem lookup_eq_some_iff_mem (hn : (entries.map Prod.fst).Nodup) {name : String} {value : α} :
    entries.lookup name = some value ↔ (name, value) ∈ entries := by
  induction entries with
  | nil => simp
  | cons entry rest ih =>
    obtain ⟨n, v⟩ := entry
    rw [List.map_cons, List.nodup_cons] at hn
    by_cases hname : name = n
    · subst hname
      have hnames : name ∉ rest.map Prod.fst := hn.1
      have hnot : (name, value) ∉ rest := fun hmem => hnames (List.mem_map_of_mem hmem)
      simp [hnot, eq_comm]
    · have hne : (name == n) = false := by simpa using hname
      simp [List.lookup_cons, hne, hname, ih hn.2]

theorem nodup_of_nodup_names (hn : (entries.map Prod.fst).Nodup) : entries.Nodup :=
  List.Pairwise.of_map Prod.fst (fun _ _ hne heq => hne (heq ▸ rfl)) hn

end Entries

/-! ### Name tables -/

namespace NameTable

variable {t u : NameTable α} {name : String}

theorem nodup_names (t : NameTable α) : t.names.Nodup :=
  t.sorted.imp fun hlt => String.ne_of_lt hlt

theorem get?_eq_some_iff {value : α} : t.get? name = some value ↔ (name, value) ∈ t.entries :=
  lookup_eq_some_iff_mem t.nodup_names

theorem mem_names_iff : name ∈ t.names ↔ (t.get? name).isSome := by
  rw [Option.isSome_iff_exists, names, List.mem_map]
  constructor
  · rintro ⟨⟨_, value⟩, hmem, rfl⟩
    exact ⟨value, get?_eq_some_iff.2 hmem⟩
  · rintro ⟨value, h⟩
    exact ⟨(name, value), get?_eq_some_iff.1 h, rfl⟩

/-- Tables with the same lookups are the same. -/
theorem ext_get? (h : ∀ name, t.get? name = u.get? name) : t = u := by
  have hperm : t.entries.Perm u.entries := by
    refine (List.perm_ext_iff_of_nodup (nodup_of_nodup_names t.nodup_names)
      (nodup_of_nodup_names u.nodup_names)).2 fun entry => ?_
    rw [← Prod.mk.eta (p := entry), ← get?_eq_some_iff, ← get?_eq_some_iff, h]
  have hentries : t.entries = u.entries := by
    refine hperm.eq_of_pairwise (fun a b _ _ hab hba => ?_) (List.pairwise_map.1 t.sorted)
      (List.pairwise_map.1 u.sorted)
    exact absurd (String.lt_trans hab hba) (String.lt_irrefl _)
  cases t
  cases u
  simp_all

/-- A table has as many entries as there are names with a value. -/
theorem size_eq_card {names : List String} (h : ∀ name, (t.get? name).isSome ↔ name ∈ names) :
    t.size = names.toFinset.card := by
  have hnames : t.names.toFinset = names.toFinset := by
    ext name
    rw [List.mem_toFinset, List.mem_toFinset, mem_names_iff, h]
  calc t.size = t.names.length := by rw [NameTable.names, List.length_map, size]
    _ = t.names.toFinset.card := (List.toFinset_card_of_nodup t.nodup_names).symm
    _ = names.toFinset.card := by rw [hnames]

theorem pairwise_utf8Bytes_names (t : NameTable α) :
    t.names.Pairwise fun a b => Text.utf8Bytes a < Text.utf8Bytes b :=
  t.sorted.imp fun hlt => Text.utf8Bytes_lt_utf8Bytes hlt

end NameTable

end RiscvDialect
