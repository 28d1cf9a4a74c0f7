import Mathlib.Data.List.Nodup
import RiscvDialect.Proofs.Assembly.Grammar.Instruction

/-!
# Names of instructions

An instruction is looked up in two ways. The catalog is searched for the mnemonic behind the stem of
the dialect, and then the aliases are; or a registry is asked for the whole name, where the catalog
and the aliases were registered side by side with labels and directives. In the registry of the
dialect both find the same instruction under every name, and nothing under a name that is neither
that of an instruction nor one of the two further names.

What the catalog is searched for is a mnemonic, so a second stem in a name is a part of the mnemonic
and is not dropped.

## Main definitions

* `Assembly.readBehindMnemonic`: an instruction whose mnemonic was read

## Main statements

* `Opcode.ofMnemonic?_eq_some`, `Opcode.ofName?_eq_some`: the names that an instruction is found
  under
* `Assembly.readInstruction_riscv`: the instruction that a statement is read as
* `Registry.op?_riscv_agrees`: the registry of the dialect and the catalog
-/

namespace RiscvDialect

/-! ### The catalog -/

namespace Opcode

/-- No two instructions have the same mnemonic. -/
theorem mnemonic_injective : Function.Injective mnemonic := by
  have hnodup : (all.map mnemonic).Nodup := Registry.nodup_opStems.of_append_left
  intro a b h
  exact List.inj_on_of_nodup_map hnodup a.mem_all b.mem_all h

variable {opcode : Opcode} {name mnemonic : String}

theorem find?_mnemonic_eq_some :
    all.find? (·.mnemonic == mnemonic) = some opcode ↔ mnemonic = opcode.mnemonic := by
  constructor
  · intro h
    have hfound : opcode.mnemonic = mnemonic := by simpa using List.find?_some h
    exact hfound.symm
  · rintro rfl
    obtain ⟨found, h⟩ : ∃ found, all.find? (·.mnemonic == opcode.mnemonic) = some found := by
      rw [← Option.isSome_iff_exists, List.find?_isSome]
      exact ⟨opcode, opcode.mem_all, beq_self_eq_true _⟩
    have hfound : found.mnemonic = opcode.mnemonic := by simpa using List.find?_some h
    rw [h, mnemonic_injective hfound]

theorem lookup_aliases_eq_some :
    aliases.lookup name = some opcode ↔ (name, opcode) ∈ aliases :=
  lookup_eq_some_iff_mem (by decide)

/-- There is one alias, and it has the stem of the dialect, too. -/
theorem mem_aliases_iff :
    (name, opcode) ∈ aliases ↔ name = dialectStem ++ "sltui" ∧ opcode = .sltiu := by
  rw [show dialectStem ++ "sltui" = "riscv.sltui" by decide]
  simp [aliases]

/-- The catalog does not have the mnemonic of an alias. -/
theorem find?_mnemonic_of_mem_aliases (h : (dialectStem ++ mnemonic, opcode) ∈ aliases) :
    all.find? (·.mnemonic == mnemonic) = none := by
  obtain ⟨hname, -⟩ := mem_aliases_iff.1 h
  rw [(String.append_right_inj _).1 hname]
  decide

/-- A mnemonic means what the dialect has under the name that it makes with the stem. -/
theorem ofMnemonic?_eq_some : ofMnemonic? mnemonic = some opcode ↔
    OpNamed (dialectStem ++ mnemonic) (.instruction opcode) := by
  rw [ofMnemonic?]
  constructor
  · intro h
    split at h
    · next found hfound =>
      cases h
      rw [find?_mnemonic_eq_some.1 hfound]
      exact .catalog opcode
    · exact .otherName (lookup_aliases_eq_some.1 h)
  · intro h
    generalize hname : dialectStem ++ mnemonic = name at h ⊢
    cases h with
    | catalog =>
      have hmnemonic : mnemonic = opcode.mnemonic := (String.append_right_inj _).1 hname
      rw [find?_mnemonic_eq_some.2 hmnemonic]
    | otherName hmem =>
      rw [find?_mnemonic_of_mem_aliases (by rwa [hname])]
      exact lookup_aliases_eq_some.2 hmem

/-- The names of instructions are those that the dialect has for them. -/
theorem ofName?_eq_some : ofName? name = some opcode ↔ OpNamed name (.instruction opcode) := by
  simp only [ofName?, Option.bind_eq_some_iff, List.isPrefixOf?_eq_some_iff_append_eq]
  constructor
  · rintro ⟨mnemonic, hname, h⟩
    have heq : name = dialectStem ++ String.ofList mnemonic := by
      rw [← String.toList_inj, String.toList_append, String.toList_ofList, hname]
    rw [heq]
    exact ofMnemonic?_eq_some.1 h
  · intro h
    obtain ⟨mnemonic, rfl⟩ : ∃ mnemonic, name = dialectStem ++ mnemonic := by
      cases h with
      | catalog => exact ⟨_, rfl⟩
      | otherName hmem => exact ⟨_, (mem_aliases_iff.1 hmem).1⟩
    refine ⟨mnemonic.toList, String.toList_append.symm, ?_⟩
    rw [String.ofList_toList]
    exact ofMnemonic?_eq_some.2 h

@[simp] theorem ofMnemonic?_mnemonic (opcode : Opcode) :
    ofMnemonic? opcode.mnemonic = some opcode :=
  ofMnemonic?_eq_some.2 (.catalog opcode)

@[simp] theorem ofName?_name (opcode : Opcode) : ofName? opcode.name = some opcode :=
  ofName?_eq_some.2 (.catalog opcode)

end Opcode

/-! ### Statements -/

namespace Assembly

open Text

/-- Read an instruction whose mnemonic was read, where `code` is the whole statement and `behind`
what comes behind the mnemonic. -/
def readBehindMnemonic (opcode : Opcode) (code behind : List Char) :
    Except Fault (Instruction × List Char) := do
  let (operands, rest) ← readInstructionOperands opcode (skipInline behind)
  let entries := operands.map fun (slot, operand) => (slot.name, operand.toAttribute)
  let i ← Fault.ofRefusal code (Instruction.ofDictionary opcode entries)
  return (i, rest)

section

variable {κ : Type} {registry : Registry κ} {mnemonic : String} {behind : List Char}
  {opcode : Opcode}

theorem readInstruction_of_op? (hmnemonic : isSymbol mnemonic.toList)
    (hbehind : Stops isSymbolChar behind)
    (hop : registry.op? (Opcode.dialectStem ++ mnemonic) = some (.instruction opcode)) :
    readInstruction registry (mnemonic.toList ++ behind) =
      readBehindMnemonic opcode (mnemonic.toList ++ behind) behind := by
  rw [readInstruction, readSymbol_append hmnemonic hbehind]
  simp only [String.ofList_toList, hop, readBehindMnemonic]

theorem readInstruction_of_forall_ne (hmnemonic : isSymbol mnemonic.toList)
    (hbehind : Stops isSymbolChar behind)
    (hop : ∀ opcode, registry.op? (Opcode.dialectStem ++ mnemonic) ≠ some (.instruction opcode)) :
    readInstruction registry (mnemonic.toList ++ behind) =
      .error ⟨mnemonic.toList ++ behind,
        .refused (.unknownOp (Opcode.dialectStem ++ mnemonic))⟩ := by
  rw [readInstruction, readSymbol_append hmnemonic hbehind]
  simp only [String.ofList_toList]

/-- With the registry of the dialect, the instruction of a statement is the one that its symbol is
the mnemonic of. -/
theorem readInstruction_riscv (hmnemonic : isSymbol mnemonic.toList)
    (hbehind : Stops isSymbolChar behind) :
    let code := mnemonic.toList ++ behind
    readInstruction .riscv code =
      match Opcode.ofMnemonic? mnemonic with
      | some opcode => readBehindMnemonic opcode code behind
      | none => .error ⟨code, .refused (.unknownOp (Opcode.dialectStem ++ mnemonic))⟩ := by
  cases h : Opcode.ofMnemonic? mnemonic with
  | some opcode =>
    have hop := Grammar.op?_riscv.2 (Opcode.ofMnemonic?_eq_some.1 h)
    exact readInstruction_of_op? hmnemonic hbehind hop
  | none =>
    refine readInstruction_of_forall_ne hmnemonic hbehind fun opcode hop => ?_
    rw [Opcode.ofMnemonic?_eq_some.2 (Grammar.op?_riscv.1 hop)] at h
    cases h

end

end Assembly

/-! ### The registry -/

namespace Registry

variable {name : String} {opcode : Opcode}

theorem op?_riscv_instruction :
    riscv.op? name = some (.instruction opcode) ↔ Opcode.ofName? name = some opcode := by
  rw [Assembly.Grammar.op?_riscv, Opcode.ofName?_eq_some]

theorem op?_riscv_label : riscv.op? name = some .label ↔ name = "riscv.label" := by
  rw [Assembly.Grammar.op?_riscv]
  constructor
  · rintro ⟨⟩
    rfl
  · rintro rfl
    exact .label

theorem op?_riscv_directive : riscv.op? name = some .directive ↔ name = "riscv.directive" := by
  rw [Assembly.Grammar.op?_riscv]
  constructor
  · rintro ⟨⟩
    rfl
  · rintro rfl
    exact .directive

theorem op?_riscv_eq_none : riscv.op? name = none ↔
    Opcode.ofName? name = none ∧ name ≠ "riscv.label" ∧ name ≠ "riscv.directive" := by
  rw [Option.eq_none_iff_forall_ne_some, Option.eq_none_iff_forall_ne_some]
  constructor
  · intro h
    exact ⟨fun opcode hname => h _ (op?_riscv_instruction.2 hname),
      fun hname => h _ (op?_riscv_label.2 hname), fun hname => h _ (op?_riscv_directive.2 hname)⟩
  · rintro ⟨hname, hlabel, hdirective⟩ kind hkind
    cases kind with
    | instruction opcode => exact hname opcode (op?_riscv_instruction.1 hkind)
    | label => exact hlabel (op?_riscv_label.1 hkind)
    | directive => exact hdirective (op?_riscv_directive.1 hkind)

/-- A name that is none of those of the dialect is not found in either way. -/
theorem op?_riscv_of_forall_ne (hcatalog : ∀ opcode : Opcode, name ≠ opcode.name)
    (halias : name ≠ "riscv.sltui") (hlabel : name ≠ "riscv.label")
    (hdirective : name ≠ "riscv.directive") :
    riscv.op? name = none ∧ Opcode.ofName? name = none := by
  have hnone : Opcode.ofName? name = none := by
    rw [Option.eq_none_iff_forall_ne_some]
    intro opcode h
    cases Opcode.ofName?_eq_some.1 h with
    | catalog => exact hcatalog opcode rfl
    | otherName hmem => exact halias ((Opcode.mem_aliases_iff.1 hmem).1.trans (by decide))
  exact ⟨op?_riscv_eq_none.2 ⟨hnone, hlabel, hdirective⟩, hnone⟩

open Assembly Text in
/-- The registry of the dialect and the catalog agree. Under every name they have the same
instruction, or neither has one; besides, the registry has labels and directives under one name
each. Names other than these two, those of the catalog and the alias are not found in either way. So
a statement is read as the instruction that the catalog has for its mnemonic, and if it has none the
statement is refused; and each instruction is found under its name and its mnemonic. -/
theorem op?_riscv_agrees :
    (∀ name opcode, riscv.op? name = some (.instruction opcode) ↔
      Opcode.ofName? name = some opcode) ∧
    (∀ name, riscv.op? name = some .label ↔ name = "riscv.label") ∧
    (∀ name, riscv.op? name = some .directive ↔ name = "riscv.directive") ∧
    (∀ name, (∀ opcode : Opcode, name ≠ opcode.name) → name ≠ "riscv.sltui" →
      name ≠ "riscv.label" → name ≠ "riscv.directive" →
        riscv.op? name = none ∧ Opcode.ofName? name = none) ∧
    (∀ mnemonic behind, isSymbol mnemonic.toList → Stops isSymbolChar behind →
      let code := mnemonic.toList ++ behind
      readInstruction .riscv code =
        match Opcode.ofMnemonic? mnemonic with
        | some opcode => readBehindMnemonic opcode code behind
        | none => .error ⟨code, .refused (.unknownOp (Opcode.dialectStem ++ mnemonic))⟩) ∧
    ∀ opcode : Opcode, Opcode.ofName? opcode.name = some opcode ∧
      Opcode.ofMnemonic? opcode.mnemonic = some opcode :=
  ⟨fun _ _ => op?_riscv_instruction, fun _ => op?_riscv_label, fun _ => op?_riscv_directive,
    fun _ => op?_riscv_of_forall_ne, fun _ _ => readInstruction_riscv,
    fun opcode => ⟨opcode.ofName?_name, opcode.ofMnemonic?_mnemonic⟩⟩

open Assembly in
/-- A second stem is a part of the mnemonic. The alias is read as the instruction that it means. -/
theorem op?_riscv_agrees_alias :
    (riscv.op? "riscv.riscv.addi" = none ∧ Opcode.ofName? "riscv.riscv.addi" = none) ∧
    readInstruction .riscv "sltui a0, a1, 5".toList =
      readBehindMnemonic .sltiu "sltui a0, a1, 5".toList " a0, a1, 5".toList := by
  have hcatalog : ∀ opcode : Opcode, "riscv.riscv.addi" ≠ opcode.name := by
    intro opcode
    cases opcode <;> decide
  refine ⟨op?_riscv_agrees.2.2.2.1 _ hcatalog (by decide) (by decide) (by decide), ?_⟩
  exact op?_riscv_agrees.2.2.2.2.1 "sltui" " a0, a1, 5".toList (by decide)
    (Text.stops_cons.2 (by decide))

end Registry

end RiscvDialect
