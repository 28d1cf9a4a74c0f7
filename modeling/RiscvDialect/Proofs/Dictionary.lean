import Mathlib.Tactic.Simproc.ExistsAndEq
import RiscvDialect.Program
import RiscvDialect.Proofs.Operands
import RiscvDialect.Reading

/-!
# Dictionaries and the ops built from them

An op is built from a dictionary exactly when the entries of the dictionary are the values that the
op carries, in any order. Nothing else can be said of a dictionary that fits: it has no further
keys, no key twice, and no value of another kind.

## Main definitions

* `Op.kind`: what an op is, without its values

## Main statements

* `Dictionary.checkKeys_eq_ok`: when the keys of a dictionary pass
* `Dictionary.fits_iff_perm`: a dictionary that has given fields, and no others, is a
  rearrangement of them
* `OperandsWith.build_eq_ok`: the operands of a shape, slot by slot
* `OpKind.build_eq_ok`: the dictionaries from which an op is built
-/

namespace RiscvDialect

/-! ### Keys -/

namespace Dictionary

variable {entries fields : Dictionary} {op key : String} {keys seen : List String}

theorem checkKeysFrom_eq_ok : checkKeysFrom op keys seen entries = .ok () ↔
    (entries.map Prod.fst).Nodup ∧ ∀ k ∈ entries.map Prod.fst, k ∈ keys ∧ k ∉ seen := by
  induction entries generalizing seen with
  | nil => simp [checkKeysFrom]
  | cons entry rest ih =>
    obtain ⟨k, value⟩ := entry
    rw [checkKeysFrom]
    split
    · next hk => simp [hk]
    · next hk =>
      split
      · next hs => simp [hs]
      · next hs =>
        simp only [ih, List.map_cons, List.nodup_cons, List.mem_cons, not_or, forall_eq_or_imp]
        constructor
        · rintro ⟨hn, hrest⟩
          exact ⟨⟨fun hmem => (hrest k hmem).2.1 rfl, hn⟩, ⟨Decidable.not_not.1 hk, hs⟩,
            fun k' hk' => ⟨(hrest k' hk').1, (hrest k' hk').2.2⟩⟩
        · rintro ⟨⟨hnot, hn⟩, -, hrest⟩
          exact ⟨hn, fun k' hk' =>
            ⟨(hrest k' hk').1, fun heq => hnot (heq ▸ hk'), (hrest k' hk').2⟩⟩

/-- The keys pass if none comes twice and all of them are keys of the op. -/
theorem checkKeys_eq_ok : checkKeys op keys entries = .ok () ↔
    (entries.map Prod.fst).Nodup ∧ ∀ k ∈ entries.map Prod.fst, k ∈ keys := by
  simp [checkKeys, checkKeysFrom_eq_ok]

theorem require_eq_ok {value : Attribute} :
    require entries op key = .ok value ↔ entries.lookup key = some value := by
  rw [require]
  split
  · next v hv => simp [hv]
  · next hnone => simp [hnone]

/-- A dictionary that has the given fields and no other keys is the fields in some order. -/
theorem fits_iff_perm (op : String) (hf : (fields.map Prod.fst).Nodup) :
    (checkKeys op (fields.map Prod.fst) entries = .ok () ∧
      ∀ field ∈ fields, entries.lookup field.1 = some field.2) ↔ entries.Perm fields := by
  rw [checkKeys_eq_ok]
  constructor
  · rintro ⟨⟨hn, hkeys⟩, hfields⟩
    refine (List.perm_ext_iff_of_nodup (nodup_of_nodup_names hn) (nodup_of_nodup_names hf)).2
      fun entry => ⟨fun hmem => ?_, fun hmem => (lookup_eq_some_iff_mem hn).1 (hfields _ hmem)⟩
    obtain ⟨field, hfield, hkey⟩ := List.mem_map.1 (hkeys _ (List.mem_map_of_mem hmem))
    have hvalue : field.2 = entry.2 := Option.some.inj <|
      (hfields field hfield).symm.trans (hkey ▸ (lookup_eq_some_iff_mem hn).2 hmem)
    exact Prod.ext hkey hvalue ▸ hfield
  · intro hp
    have hn : (entries.map Prod.fst).Nodup := (hp.map Prod.fst).nodup_iff.2 hf
    exact ⟨⟨hn, fun k hk => (hp.map Prod.fst).mem_iff.1 hk⟩,
      fun field hfield => (lookup_eq_some_iff_mem hn).2 (hp.mem_iff.2 hfield)⟩

end Dictionary

/-! ### Values of a known kind -/

namespace Attribute

variable {op key : String} {value : Attribute}

theorem toRegister_eq_ok {r : Register} :
    value.toRegister op key = .ok r ↔ value = .register r := by
  cases value <;> simp [toRegister]

theorem toInteger_eq_ok {i : SizedInt} :
    value.toInteger op key = .ok i ↔ value = .integer i := by
  cases value <;> simp [toInteger]

theorem toLabel_eq_ok {l : Label} : value.toLabel op key = .ok l ↔ value = .label l := by
  cases value <;> simp [toLabel]

theorem toText_eq_ok {s : String} : value.toText op key = .ok s ↔ value = .string s := by
  cases value <;> simp [toText]

end Attribute

theorem Offset.ofAttribute_eq_ok {value : Attribute} {o : Offset} :
    ofAttribute value = .ok o ↔ value = o.toAttribute := by
  cases value <;> cases o <;> simp [ofAttribute, toAttribute]

/-! ### Operands -/

/-- The slot is answered with the operand when asked for a value of the operand's kind. -/
def Operand.Answers {ε : Type} (register : Slot → Except ε Register)
    (immediate : Slot → Except ε SizedInt) (offset : Slot → Except ε Offset) (slot : Slot) :
    Operand → Prop
  | .register r => register slot = .ok r
  | .immediate i => immediate slot = .ok i
  | .offset o => offset slot = .ok o

/-- Operands are built if each of their slots is answered with what they hold. -/
theorem OperandsWith.build_eq_ok {ε : Type} {register : Slot → Except ε Register}
    {immediate : Slot → Except ε SizedInt} {offset : Slot → Except ε Offset} {shape : Shape}
    {o : { operands : Operands // operands.shape = shape }} :
    build register immediate offset shape = .ok o ↔
      ∀ filled ∈ Operands.toList o.val, filled.2.Answers register immediate offset filled.1 := by
  obtain ⟨operands, rfl⟩ := o
  cases operands <;>
    simp [build, shape, Operands.toList, Operand.Answers, Except.bind_eq_ok, pure, Except.pure,
      Subtype.ext_iff]

/-! ### Building ops -/

namespace Instruction

variable {opcode : Opcode} {entries : Dictionary} {i : Instruction}

/-- The values of an instruction are those of its operands. -/
theorem attributes_eq_fields (i : Instruction) : i.attributes = i.operands.fields := rfl

/-- The keys of an instruction are the names of its slots. -/
@[simp] theorem map_fst_attributes (i : Instruction) :
    i.attributes.map Prod.fst = i.opcode.shape.slots.map Slot.name := by
  rw [attributes_eq_fields, Operands.map_fst_fields, i.shape_operands]

theorem mem_attributes {field : String × Attribute} : field ∈ i.attributes ↔
    ∃ filled ∈ i.operands.toList, field = (filled.1.name, filled.2.toAttribute) := by
  simp [attributes, Operands.attributes, eq_comm]

/-- A dictionary answers a slot with an operand if it holds the operand under the slot's name. -/
theorem answers_iff_lookup {op : String} {slot : Slot} {operand : Operand} :
    operand.Answers
      (fun slot => do (← entries.require op slot.name).toRegister op slot.name)
      (fun slot => do (← entries.require op slot.name).toInteger op slot.name)
      (fun slot => do Offset.ofAttribute (← entries.require op slot.name)) slot ↔
    entries.lookup slot.name = some operand.toAttribute := by
  cases operand <;>
    simp [Operand.Answers, Operand.toAttribute, Except.bind_eq_ok, Dictionary.require_eq_ok,
      Attribute.toRegister_eq_ok, Attribute.toInteger_eq_ok, Offset.ofAttribute_eq_ok]

/-- An instruction is built from its own values in any order, and from nothing else. -/
theorem ofDictionary_eq_ok :
    ofDictionary opcode entries = .ok i ↔ i.opcode = opcode ∧ entries.Perm i.attributes := by
  have hperm : entries.Perm i.attributes ↔
      entries.checkKeys i.opcode.name (i.opcode.shape.slots.map Slot.name) = .ok () ∧
        ∀ filled ∈ i.operands.toList,
          entries.lookup filled.1.name = some filled.2.toAttribute := by
    rw [← Dictionary.fits_iff_perm i.opcode.name (by simp [Shape.nodup_names]), map_fst_attributes]
    refine and_congr_right fun _ => ⟨fun h filled hmem => ?_, fun h field hmem => ?_⟩
    · exact h _ (mem_attributes.2 ⟨filled, hmem, rfl⟩)
    · obtain ⟨filled, hfilled, rfl⟩ := mem_attributes.1 hmem
      exact h filled hfilled
  rw [ofDictionary]
  simp only [Except.bind_eq_ok, pure, Except.pure, Except.ok.injEq]
  constructor
  · rintro ⟨_, hkeys, filled, hbuild, rfl⟩
    exact ⟨rfl, hperm.2 ⟨hkeys, fun pair hmem =>
      answers_iff_lookup.1 (OperandsWith.build_eq_ok.1 hbuild pair hmem)⟩⟩
  · rintro ⟨rfl, h⟩
    obtain ⟨hkeys, hlookup⟩ := hperm.1 h
    refine ⟨(), hkeys, ⟨i.operands, i.shape_operands⟩, ?_, rfl⟩
    exact OperandsWith.build_eq_ok.2 fun pair hmem => answers_iff_lookup.2 (hlookup pair hmem)

end Instruction

/-- A label is built from the dictionary that holds it and nothing else. -/
theorem Label.ofDictionary_eq_ok {entries : Dictionary} {l : Label} :
    ofDictionary entries = .ok l ↔ entries.Perm l.attributes := by
  rw [← Dictionary.fits_iff_perm opName (by simp [attributes])]
  simp only [ofDictionary, attributes, Except.bind_eq_ok, Dictionary.require_eq_ok,
    Attribute.toLabel_eq_ok]
  constructor
  · rintro ⟨_, hkeys, _, hlabel, rfl⟩
    exact ⟨hkeys, by simp [hlabel]⟩
  · rintro ⟨hkeys, hfields⟩
    exact ⟨(), hkeys, _, hfields ("label", .label l) (by simp), rfl⟩

theorem Directive.ofNameValue_eq_ok {name value : String} {d : Directive} :
    ofNameValue name value = .ok d ↔ d.name = name ∧ d.value = value := by
  constructor
  · intro h
    rw [ofNameValue] at h
    split at h
    · cases h; exact ⟨rfl, rfl⟩
    · simp at h
  · rintro ⟨rfl, rfl⟩
    exact ofNameValue_name_value d

/-- A directive is built from its two parts, in either order, and from nothing else. -/
theorem Directive.ofDictionary_eq_ok {entries : Dictionary} {d : Directive} :
    ofDictionary entries = .ok d ↔ entries.Perm d.attributes := by
  rw [← Dictionary.fits_iff_perm opName (by simp [attributes])]
  simp only [ofDictionary, attributes, Except.bind_eq_ok, Dictionary.require_eq_ok,
    Attribute.toText_eq_ok, Directive.ofNameValue_eq_ok]
  constructor
  · rintro ⟨_, hkeys, _, hname, _, hvalue, _, rfl, _, rfl, rfl, rfl⟩
    exact ⟨hkeys, by simp [hname, hvalue]⟩
  · rintro ⟨hkeys, hfields⟩
    have hname := hfields ("directive", .string d.name) (by simp)
    have hvalue := hfields ("value", .string d.value) (by simp)
    exact ⟨(), hkeys, _, hname, _, hvalue, _, rfl, _, rfl, rfl, rfl⟩

/-! ### Kinds of ops -/

/-- What an op is, without its values. -/
def Op.kind : Op → OpKind
  | .instruction i => .instruction i.opcode
  | .label _ => .label
  | .directive _ => .directive

/-- An op is built from a dictionary if it is of the kind asked for and the dictionary holds its
values in some order. -/
theorem OpKind.build_eq_ok {kind : OpKind} {entries : Dictionary} {op : Op} :
    kind.build entries = .ok op ↔ op.kind = kind ∧ entries.Perm op.attributes := by
  cases kind <;> cases op <;>
    simp [build, Op.kind, Op.attributes, Functor.map, Except.map_eq_ok,
      Instruction.ofDictionary_eq_ok, Label.ofDictionary_eq_ok, Directive.ofDictionary_eq_ok]

end RiscvDialect
