import RiscvDialect.Assembly.Printer
import RiscvDialect.Proofs.Numeral

/-!
# Names of registers

Whatever names a register is made of letters and digits, so that a name ends where it meets any
other character. Each register is found again under the name that is written for it, in both styles.

## Main definitions

* `Register.Named`: the names of a register

## Main statements

* `Register.ofName_eq_ok`: a register is found under its names
* `RegisterStyle.ofName_write`: a register is read back from what is written for it
-/

namespace RiscvDialect

namespace Register

/-- A name of a register: one from the calling convention, or an `x` and the index in decimal
digits, with any number of leading zeros. -/
inductive Named (name : String) (r : Register) : Prop where
  | abi (h : (name, r) ∈ abiNames)
  | numeric {digits : List Char} (hname : name.toList = 'x' :: digits) (hne : digits ≠ [])
    (hdigits : ∀ c ∈ digits, c.isDigit) (hvalue : Numeral.ofDecimalDigits digits = r.index.val)

/-- The names from the calling convention are made of letters and digits. -/
theorem isAlphanum_of_mem_abiNames :
    ∀ entry ∈ abiNames, entry.1.toList.all Char.isAlphanum := by
  decide

/-- No name comes twice in the calling convention. -/
theorem lookup_of_mem_abiNames : ∀ entry ∈ abiNames, abiNames.lookup entry.1 = some entry.2 := by
  decide

theorem head?_of_mem_abiNames : ∀ entry ∈ abiNames, entry.1.toList.head? ≠ some 'x' := by
  decide

theorem head?_any_isAlpha_of_mem_abiNames :
    ∀ entry ∈ abiNames, entry.1.toList.head?.any Char.isAlpha := by
  decide

theorem mem_abiNames_of_lookup {name : String} {r : Register} (h : abiNames.lookup name = some r) :
    (name, r) ∈ abiNames := by
  obtain ⟨before, later, habi, -⟩ := List.lookup_eq_some_iff.1 h
  rw [habi]
  simp

/-- What starts with an `x` is not in the calling convention. -/
theorem lookup_abiNames_of_x {name : String} {later : List Char} (h : name.toList = 'x' :: later) :
    abiNames.lookup name = none := by
  rw [Option.eq_none_iff_forall_ne_some]
  intro r hr
  exact head?_of_mem_abiNames _ (mem_abiNames_of_lookup hr) (by simp [h])

theorem ofIndex_eq_ok {index : Int} {r : Register} :
    ofIndex index = .ok r ↔ index = r.index.val := by
  constructor
  · intro h
    rw [ofIndex] at h
    split at h
    · next hrange =>
      cases h
      exact (Int.toNat_of_nonneg hrange.1).symm
    · simp at h
  · rintro rfl
    exact r.ofIndex_index

/-- A register is found under its names, and under nothing else. -/
theorem ofName_eq_ok {name : String} {r : Register} : ofName name = .ok r ↔ Named name r := by
  constructor
  · intro h
    rw [ofName] at h
    split at h
    · next hlookup =>
      cases h
      exact .abi (mem_abiNames_of_lookup hlookup)
    · split at h
      · next digits hname =>
        split at h
        · next hdigits =>
          refine .numeric hname hdigits.1 (List.all_eq_true.1 hdigits.2) ?_
          have hindex := ofIndex_eq_ok.1 h
          omega
        · simp at h
      · simp at h
  · intro h
    cases h with
    | abi hmem => rw [ofName, lookup_of_mem_abiNames _ hmem]
    | @numeric digits hname hne hdigits hvalue =>
      have hmin : min (Numeral.ofDecimalDigits digits : Int) 0x7FFFFFFFFFFFFFFF = r.index.val := by
        rw [hvalue]
        omega
      rw [ofName, lookup_abiNames_of_x hname]
      simp only [hname]
      rw [if_pos ⟨hne, List.all_eq_true.2 hdigits⟩, hmin, ofIndex_index]

/-- The names of registers are made of letters and digits. -/
theorem Named.isAlphanum {name : String} {r : Register} (h : Named name r) :
    ∀ c ∈ name.toList, c.isAlphanum := by
  cases h with
  | abi h => exact List.all_eq_true.1 (isAlphanum_of_mem_abiNames _ h)
  | numeric hname hne hdigits =>
    intro c hc
    rcases List.mem_cons.1 (hname ▸ hc) with rfl | hc
    · decide
    · simp [Char.isAlphanum, hdigits c hc]

/-- The names of registers start with a letter. -/
theorem Named.head_isAlpha {name : String} {r : Register} (h : Named name r) :
    ∃ c later, name.toList = c :: later ∧ c.isAlpha := by
  cases h with
  | abi h =>
    obtain ⟨c, hc, halpha⟩ := Option.any_eq_true _ _ |>.1 (head?_any_isAlpha_of_mem_abiNames _ h)
    obtain ⟨later, hname⟩ := List.head?_eq_some_iff.1 hc
    exact ⟨c, later, hname, halpha⟩
  | numeric hname => exact ⟨'x', _, hname, by decide⟩

/-- Registers have no empty name. -/
theorem Named.exists_eq_cons {name : String} {r : Register} (h : Named name r) :
    ∃ c later, name.toList = c :: later := by
  obtain ⟨c, later, hname, -⟩ := h.head_isAlpha
  exact ⟨c, later, hname⟩

theorem mem_abiNames_abiName : ∀ i : Fin 32, (abiName ⟨i⟩, ⟨i⟩) ∈ abiNames := by
  decide

theorem named_numericName (r : Register) : Named r.numericName r := by
  have hname : r.numericName.toList = 'x' :: Nat.toDigits 10 r.index.val := by
    simp [numericName]
  refine .numeric hname Nat.toDigits_ne_nil (fun _ => Numeral.isDigit_of_mem_toDigits) ?_
  exact Numeral.ofDecimalDigits_toDigits _

end Register

namespace RegisterStyle

variable (style : RegisterStyle) (r : Register)

/-- What is written for a register is one of its names. -/
theorem named_write : Register.Named (style.write r) r := by
  cases style
  · exact .abi (Register.mem_abiNames_abiName r.index)
  · exact r.named_numericName

/-- A register is read back from the name that is written for it. -/
@[simp] theorem ofName_write : Register.ofName (style.write r) = .ok r :=
  Register.ofName_eq_ok.2 (style.named_write r)

theorem isAlphanum_of_mem_write {c : Char} (hc : c ∈ (style.write r).toList) : c.isAlphanum :=
  (style.named_write r).isAlphanum c hc

end RegisterStyle

end RiscvDialect
