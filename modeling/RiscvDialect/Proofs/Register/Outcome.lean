import RiscvDialect.Proofs.Numeral.Value
import RiscvDialect.Proofs.Register

/-!
# What a name of a register comes to

A name is looked up among those of the calling convention first, and read as an `x` with a number
behind it if it is none of them. The first never hides the second, since no name of the calling
convention starts with an `x`. So there are three outcomes that exclude each other: the register
that is named; the number, if it is that of no register; and otherwise the name itself, which is
unknown.

Numbers may have any number of digits. One that is too large for 64 bits is reported as the largest
number of 64 bits, and is out of range either way.

## Main definitions

* `Register.Numbered`: an `x` with a number behind it

## Main statements

* `Register.named_iff`, `Register.ofName_of_numbered`: a name and its number
* `Register.ofName_eq_error`: names that no register has
* `Register.ofName_exact`: the outcomes for names and for indices
-/

namespace RiscvDialect.Register

/-- The name is an `x` and the decimal digits of a number, at least one, with any number of leading
zeros. -/
def Numbered (name : String) (n : Nat) : Prop :=
  ∃ digits, name.toList = 'x' :: digits ∧ digits ≠ [] ∧ (∀ c ∈ digits, c.isDigit) ∧
    Numeral.valueOf 10 digits = n

variable {name : String} {r : Register} {n : Nat} {index : Int} {e : DialectError}

/-! ### Indices -/

theorem exists_ofIndex_iff : (∃ r, ofIndex index = .ok r) ↔ 0 ≤ index ∧ index ≤ 31 := by
  constructor
  · rintro ⟨r, hr⟩
    rw [ofIndex_eq_ok.1 hr]
    omega
  · intro h
    have hlt : index.toNat < 32 := by omega
    exact ⟨⟨⟨index.toNat, hlt⟩⟩, ofIndex_eq_ok.2 (Int.toNat_of_nonneg h.1).symm⟩

theorem ofIndex_eq_error :
    ofIndex index = .error e ↔ ¬ (0 ≤ index ∧ index ≤ 31) ∧ e = .registerIndex index := by
  rw [ofIndex]
  split
  · next h =>
    have hrange : 0 ≤ index ∧ index ≤ 31 := by omega
    simp [hrange]
  · next h =>
    have hrange : ¬ (0 ≤ index ∧ index ≤ 31) := by omega
    simp only [Except.error.injEq, hrange, not_false_eq_true, true_and, eq_comm]

/-! ### Names -/

theorem named_iff : Named name r ↔ (name, r) ∈ abiNames ∨ Numbered name r.index.val := by
  constructor
  · intro h
    cases h with
    | abi h => exact .inl h
    | numeric hname hne hdigits hvalue =>
      rw [Numeral.ofDecimalDigits_eq_valueOf hdigits] at hvalue
      exact .inr ⟨_, hname, hne, hdigits, hvalue⟩
  · rintro (h | ⟨digits, hname, hne, hdigits, hvalue⟩)
    · exact .abi h
    · rw [← Numeral.ofDecimalDigits_eq_valueOf hdigits] at hvalue
      exact .numeric hname hne hdigits hvalue

/-- What stands behind an `x` is looked up as an index, the largest of 64 bits at most. -/
theorem ofName_of_numbered (h : Numbered name n) :
    ofName name = ofIndex (min n 0x7FFFFFFFFFFFFFFF) := by
  obtain ⟨digits, hname, hne, hdigits, rfl⟩ := h
  rw [ofName, lookup_abiNames_of_x hname]
  simp only [hname]
  rw [if_pos ⟨hne, List.all_eq_true.2 hdigits⟩, Numeral.ofDecimalDigits_eq_valueOf hdigits]

/-- A name of neither kind is unknown. -/
theorem ofName_of_not_numbered (habi : ∀ r, (name, r) ∉ abiNames) (h : ∀ n, ¬ Numbered name n) :
    ofName name = .error (.registerName name) := by
  have hlookup : abiNames.lookup name = none := by
    rw [Option.eq_none_iff_forall_ne_some]
    exact fun r hr => habi r (mem_abiNames_of_lookup hr)
  rw [ofName, hlookup]
  dsimp only
  split
  · next digits hname =>
    refine if_neg fun hdigits => h _ ⟨digits, hname, hdigits.1, ?_, rfl⟩
    exact List.all_eq_true.1 hdigits.2
  · rfl

/-- A name that no register has is reported by its number if it has one. -/
theorem ofName_eq_error : ofName name = .error e ↔
    (∃ n, Numbered name n ∧ 31 < n ∧ e = .registerIndex (min n 0x7FFFFFFFFFFFFFFF)) ∨
      (∀ r, (name, r) ∉ abiNames) ∧ (∀ n, ¬ Numbered name n) ∧ e = .registerName name := by
  constructor
  · intro h
    by_cases hnumber : ∃ n, Numbered name n
    · obtain ⟨n, hn⟩ := hnumber
      rw [ofName_of_numbered hn] at h
      obtain ⟨hrange, rfl⟩ := ofIndex_eq_error.1 h
      exact .inl ⟨n, hn, by omega, rfl⟩
    · have habi : ∀ r, (name, r) ∉ abiNames := fun r hr => by
        rw [ofName_eq_ok.2 (.abi hr)] at h
        cases h
      rw [not_exists] at hnumber
      rw [ofName_of_not_numbered habi hnumber] at h
      cases h
      exact .inr ⟨habi, hnumber, rfl⟩
  · rintro (⟨n, hn, hrange, rfl⟩ | ⟨habi, hnumber, rfl⟩)
    · rw [ofName_of_numbered hn]
      exact ofIndex_eq_error.2 ⟨by omega, rfl⟩
    · exact ofName_of_not_numbered habi hnumber

/-- The 33 names of the calling convention are different from each other. A register is found under
its names of this kind, and under an `x` and its index in decimal digits. An `x` with a number
beyond 31 is reported by that number, or by the largest of 64 bits if it is larger; every other name
is unknown. An index is that of a register if it is one of the numbers from 0 to 31 itself, and is
reported otherwise. Both names that can be written for a register are names of it. -/
theorem ofName_exact :
    (abiNames.length = 33 ∧ (abiNames.map Prod.fst).Nodup) ∧
    (∀ name r, ofName name = .ok r ↔ (name, r) ∈ abiNames ∨ Numbered name r.index.val) ∧
    (∀ name e, ofName name = .error e ↔
      (∃ n, Numbered name n ∧ 31 < n ∧ e = .registerIndex (min n 0x7FFFFFFFFFFFFFFF)) ∨
        (∀ r, (name, r) ∉ abiNames) ∧ (∀ n, ¬ Numbered name n) ∧ e = .registerName name) ∧
    (∀ index : Int, (∀ r, ofIndex index = .ok r ↔ index = r.index.val) ∧
      ((∃ r, ofIndex index = .ok r) ↔ 0 ≤ index ∧ index ≤ 31) ∧
      ∀ e, ofIndex index = .error e ↔ ¬ (0 ≤ index ∧ index ≤ 31) ∧ e = .registerIndex index) ∧
    ∀ r : Register, ofName r.abiName = .ok r ∧ ofName r.numericName = .ok r := by
  refine ⟨⟨rfl, by decide⟩, fun name r => ?_, fun _ _ => ofName_eq_error, fun index => ?_,
    fun r => ?_⟩
  · rw [ofName_eq_ok, named_iff]
  · exact ⟨fun _ => ofIndex_eq_ok, exists_ofIndex_iff, fun _ => ofIndex_eq_error⟩
  · exact ⟨RegisterStyle.ofName_write .abi r, RegisterStyle.ofName_write .numeric r⟩

/-- A number that does not have 64 bits. -/
example : ofName "x0099999999999999999999" = .error (.registerIndex 0x7FFFFFFFFFFFFFFF) := by
  decide

end RiscvDialect.Register
