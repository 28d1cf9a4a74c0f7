import RiscvDialect.Proofs.Assembly.RoundTrip
import RiscvDialect.Proofs.Assembly.Soundness
import RiscvDialect.Proofs.Generic.RoundTrip

/-!
# What is read is well formed

A registry decides which names are known and what they stand for. It has no say in what an op may
be: every op is built from its values by the same builders, which refuse all that the dialect does
not allow. So a program that was read with any registry can be written, and the registry of the
dialect reads it again, although it may not know the names that the program was first read under.

## Main definitions

* `Attribute.WellFormed`, `Op.WellFormed`: what the dialect allows

## Main statements

* `wellFormed_and_canonical`: what any registry reads, and what becomes of it when it is written
-/

namespace RiscvDialect

/-- A value that the dialect allows. -/
def Attribute.WellFormed : Attribute → Prop
  | .register r => r.index.val ≤ 31
  | .label l => isSymbol l.name.toList
  | .integer i => 1 ≤ i.width ∧ i.width ≤ 64
  | .string _ => True

/-- An op that the dialect allows. Its operands are those of its opcode, and a directive has no
defect. -/
def Op.WellFormed : Op → Prop
  | .instruction i =>
    i.operands.shape = i.opcode.shape ∧ ∀ entry ∈ i.attributes, entry.2.WellFormed
  | .label l => isSymbol l.name.toList
  | .directive d => Directive.defect? d.name d.value = none

theorem Attribute.wellFormed (value : Attribute) : value.WellFormed := by
  cases value with
  | register r => exact Nat.le_of_lt_succ r.index.isLt
  | label l => exact l.isSymbol_name
  | integer i => exact ⟨i.width_pos, i.width_le⟩
  | string => trivial

/-- Ops carry the proofs that they are well formed. -/
theorem Op.wellFormed (op : Op) : op.WellFormed := by
  cases op with
  | instruction i => exact ⟨i.shape_operands, fun entry _ => entry.2.wellFormed⟩
  | label l => exact l.isSymbol_name
  | directive d => exact d.defect?_eq_none

/-- A program with wide integers is read back from assembly as it is. -/
theorem Assembly.parse_assembly_of_isWide {style : AssemblyStyle}
    (hindent : ∀ c ∈ style.indent.toList, Text.isSpace c) {p : Program}
    (hwide : ∀ op ∈ p, op.IsWide) : parse .riscv (Program.assembly style p) = .ok p := by
  rw [parse_assembly_eq_ok Registry.knowsDialect_riscv hindent, eq_comm]
  exact Program.widen_eq_self_iff.2 hwide

/-- Whatever is read, with any registry, is well formed, and what is read from assembly has integers
of 64 bits only. It can be written in the generic format, and if it was read from assembly, in
assembly as well; the registry of the dialect reads it back from there, and what would be written
next is what was written before. -/
theorem wellFormed_and_canonical (registry : Registry) (text : String) :
    (∀ p, Generic.parseProgram registry text = .ok p →
      (∀ op ∈ p, op.WellFormed) ∧ Generic.parseProgram .riscv (Program.generic p) = .ok p) ∧
    (∀ op, Generic.parseOp registry text = .ok op →
      op.WellFormed ∧ Generic.parseOp .riscv op.generic = .ok op) ∧
    (∀ p, Assembly.parse registry text = .ok p →
      (∀ op ∈ p, op.WellFormed ∧ op.IsWide) ∧
      Generic.parseProgram .riscv (Program.generic p) = .ok p ∧
      ∀ style : AssemblyStyle, (∀ c ∈ style.indent.toList, Text.isSpace c) →
        Assembly.parse .riscv (Program.assembly style p) = .ok p ∧
        (Assembly.parse .riscv (Program.assembly style p)).map (Program.assembly style) =
          .ok (Program.assembly style p)) := by
  refine ⟨fun p _ => ?_, fun op _ => ?_, fun p hp => ?_⟩
  · exact ⟨fun op _ => op.wellFormed, Generic.Grammar.parseProgram_generic p⟩
  · exact ⟨op.wellFormed, Generic.Grammar.parseOp_generic op⟩
  · have hwide := Assembly.isWide_of_parse hp
    refine ⟨fun op hop => ⟨op.wellFormed, hwide op hop⟩,
      Generic.Grammar.parseProgram_generic p, fun style hindent => ?_⟩
    have hread := Assembly.parse_assembly_of_isWide hindent hwide
    exact ⟨hread, by rw [hread, Except.map]⟩

/-- Ops that were read under names of other registries are read back under their own. -/
theorem wellFormed_and_canonical_renamed :
    (Generic.parseProgram (Registry.empty.extend [.op "stop" (.instruction .nop)])
        "module \x7b \"stop\"() \x7d" = .ok [.instruction ⟨.nop, .noOperands, rfl⟩] ∧
      Generic.parseProgram .riscv (Program.generic [.instruction ⟨.nop, .noOperands, rfl⟩]) =
        .ok [.instruction ⟨.nop, .noOperands, rfl⟩]) ∧
    (Generic.parseOp (Registry.empty.extend [.op "stop" (.instruction .nop)]) "\"stop\" ()" =
        .ok (.instruction ⟨.nop, .noOperands, rfl⟩) ∧
      Generic.parseOp .riscv (Op.generic (.instruction ⟨.nop, .noOperands, rfl⟩)) =
        .ok (.instruction ⟨.nop, .noOperands, rfl⟩)) ∧
    Assembly.parse (Registry.empty.extend [.op "riscv.plus" (.instruction .addi)])
        "\tplus a0, x11, 0x5 # sum" =
      .ok [.instruction ⟨.addi, .rdRs1Imm ⟨10⟩ ⟨11⟩ (.full 5), rfl⟩] ∧
    (Assembly.parse .riscv (Program.assembly { indent := "  " }
        [.instruction ⟨.addi, .rdRs1Imm ⟨10⟩ ⟨11⟩ (.full 5), rfl⟩])).map
        (Program.assembly { indent := "  " }) =
      .ok (Program.assembly { indent := "  " }
        [.instruction ⟨.addi, .rdRs1Imm ⟨10⟩ ⟨11⟩ (.full 5), rfl⟩]) := by
  have hprogram : Generic.parseProgram (Registry.empty.extend [.op "stop" (.instruction .nop)])
      "module \x7b \"stop\"() \x7d" = .ok [.instruction ⟨.nop, .noOperands, rfl⟩] := by
    decide +kernel
  refine ⟨⟨hprogram, ((wellFormed_and_canonical _ _).1 _ hprogram).2⟩,
    ⟨rfl, ((wellFormed_and_canonical (Registry.empty.extend [.op "stop" (.instruction .nop)])
      "\"stop\" ()").2.1 _ rfl).2⟩, rfl, ?_⟩
  exact (((wellFormed_and_canonical
    (Registry.empty.extend [.op "riscv.plus" (.instruction .addi)])
    "\tplus a0, x11, 0x5 # sum").2.2 _ rfl).2.2 { indent := "  " }
      (List.all_eq_true.1 (by decide))).2

end RiscvDialect
