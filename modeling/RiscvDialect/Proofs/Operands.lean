import Mathlib.Data.List.Forall2
import RiscvDialect.Dictionary
import RiscvDialect.Operands
import RiscvDialect.Proofs.Lookup

/-!
# Operands by role

Each slot has a role: it is for the destination, a source, an immediate or an offset. The operands
can be asked for by role, and they can be listed with their slots, as the dictionary of an
instruction lists them. The roles split that list. What is found under a role is what stands in its
slots, in their order, so nothing is left out and nothing is found under two roles. Since a
destination comes first and a constant last, the list is what is found under the roles, one after
the other.

Three of the roles have a single slot. What is found under such a role is the value under the name
of the slot, and it is there for the shapes that have the slot.

## Main definitions

* `Slot.role`: the role of what stands in a slot
* `Role.values`: what is found under a role
* `Operands.fields`: the values of the operands by key
* `Operands.StoredUnder`: a result that is the value under a key

## Main statements

* `Operands.values_eq`: what is found under a role stands in its slots
* `Operands.storedUnder_name`: what is found under a role with one slot
* `Operands.accessors_exact`: the operands by role and the operands by key
-/

namespace RiscvDialect

/-! ### Slots -/

theorem Slot.name_injective {s t : Slot} (h : s.name = t.name) : s = t := by
  cases s <;> cases t <;> first | rfl | exact absurd h (by decide)

theorem Shape.nodup_names (shape : Shape) : (shape.slots.map Slot.name).Nodup :=
  List.Pairwise.map _ (fun _ _ hne heq => hne (Slot.name_injective heq)) shape.nodup_slots

/-- The slots of a shape are found by their names. -/
theorem Shape.isSome_slot?_name {shape : Shape} {slot : Slot} :
    (shape.slot? slot.name).isSome ↔ slot ∈ shape.slots := by
  simp only [slot?, List.find?_isSome, beq_iff_eq]
  constructor
  · rintro ⟨other, hmem, hname⟩
    rwa [← Slot.name_injective hname]
  · exact fun hmem => ⟨slot, hmem, rfl⟩

/-! ### Values -/

/-- The register, if a value is one. -/
def Attribute.register? : Attribute → Option Register
  | .register r => some r
  | _ => none

@[simp] theorem Attribute.register?_register (r : Register) :
    (Attribute.register r).register? = some r := rfl

@[simp] theorem Attribute.register?_integer (i : SizedInt) :
    (Attribute.integer i).register? = none := rfl

theorem Offset.toAttribute_injective : Function.Injective Offset.toAttribute := by
  rintro (i | l) (i' | l') h <;> cases h <;> rfl

@[simp] theorem Offset.register?_toAttribute (o : Offset) : o.toAttribute.register? = none := by
  cases o <;> rfl

/-- The kind of slot that holds the operand. -/
def Operand.kind : Operand → SlotKind
  | .register _ => .register
  | .immediate _ => .immediate
  | .offset _ => .offset

/-- Each slot holds an operand of its kind. -/
theorem Operands.kind_of_mem_toList {operands : Operands} {filled : Slot × Operand}
    (h : filled ∈ operands.toList) : filled.2.kind = filled.1.kind := by
  cases operands <;> simp only [toList, List.mem_cons, List.not_mem_nil, or_false] at h <;>
    rcases h with rfl | rfl | rfl <;> rfl

/-- An operand is written as a value that the slots of its kind accept. -/
theorem Operand.accepts_kind (operand : Operand) :
    operand.kind.accepts operand.toAttribute.kind := by
  rcases operand with r | i | (i | l) <;> rfl

/-! ### Roles -/

/-- What an operand is there for. -/
inductive Role where
  | destination
  | source
  | immediate
  | offset
  deriving DecidableEq, Repr

/-- All roles, in the order in which their operands are written. -/
def Role.all : List Role := [.destination, .source, .immediate, .offset]

/-- The role of what stands in a slot. -/
def Slot.role : Slot → Role
  | .rd => .destination
  | .rs | .rt | .rs1 | .rs2 => .source
  | .immediate => .immediate
  | .offset => .offset

/-- Only sources have several slots. -/
theorem Slot.eq_of_role {slot other : Slot} (hrole : slot.role ≠ .source)
    (h : other.role = slot.role) : other = slot := by
  cases slot <;> cases other <;> simp_all [role]

/-- What the operands have under a role, as values. -/
def Role.values (operands : Operands) : Role → List Attribute
  | .destination => operands.rd.toList.map .register
  | .source => operands.sources.map .register
  | .immediate => operands.immediate.toList.map .integer
  | .offset => operands.offset.toList.map Offset.toAttribute

namespace Operands

variable {operands : Operands} {slot : Slot} {value : Attribute}

/-- What is found under a role is what stands in its slots, in their order. -/
theorem values_eq (operands : Operands) (role : Role) :
    role.values operands = (operands.attributes.filter (·.1.role = role)).map Prod.snd := by
  cases role <;> cases operands <;> rfl

/-- What is found under the role of a slot is what stands in the slot, if it is no source. -/
theorem mem_values_role_iff (hrole : slot.role ≠ .source) :
    value ∈ slot.role.values operands ↔ (slot, value) ∈ operands.attributes := by
  rw [values_eq, List.mem_map]
  constructor
  · rintro ⟨⟨other, _⟩, hmem, rfl⟩
    obtain ⟨hmem, hother⟩ := List.mem_filter.1 hmem
    rwa [← Slot.eq_of_role hrole (by simpa using hother)]
  · exact fun hmem => ⟨_, List.mem_filter.2 ⟨hmem, by simp⟩, rfl⟩

/-- The values are what is found under the roles, one after the other. -/
theorem map_snd_attributes (operands : Operands) :
    operands.attributes.map Prod.snd = Role.all.flatMap fun role => role.values operands := by
  cases operands <;> rfl

/-! ### Keys -/

/-- The values of the operands by key, in the order of the slots. -/
def fields (operands : Operands) : Dictionary :=
  operands.attributes.map fun (slot, value) => (slot.name, value)

theorem map_fst_attributes (operands : Operands) :
    operands.attributes.map Prod.fst = operands.shape.slots := by
  rw [← map_fst_toList, attributes, List.map_map]
  rfl

theorem mem_fields_iff :
    (slot.name, value) ∈ operands.fields ↔ (slot, value) ∈ operands.attributes := by
  rw [fields, List.mem_map]
  constructor
  · rintro ⟨⟨slot', value'⟩, hmem, heq⟩
    obtain ⟨hname, rfl⟩ := Prod.mk.inj heq
    rwa [← Slot.name_injective hname]
  · exact fun hmem => ⟨_, hmem, rfl⟩

theorem map_fst_fields (operands : Operands) :
    operands.fields.map Prod.fst = operands.shape.slots.map Slot.name := by
  rw [← map_fst_attributes, fields, List.map_map, List.map_map]
  rfl

theorem nodup_keys (operands : Operands) : (operands.fields.map Prod.fst).Nodup := by
  rw [map_fst_fields]
  exact operands.shape.nodup_names

/-- The keys are the names of the slots, in order, and each slot accepts its value. -/
theorem forall₂_slots_fields (operands : Operands) :
    List.Forall₂ (fun slot field => field.1 = slot.name ∧ slot.kind.accepts field.2.kind)
      operands.shape.slots operands.fields := by
  rw [← map_fst_toList, fields, attributes, List.map_map, List.forall₂_map_left_iff,
    List.forall₂_map_right_iff, List.forall₂_same]
  intro filled hfilled
  refine ⟨rfl, ?_⟩
  rw [← kind_of_mem_toList hfilled]
  exact filled.2.accepts_kind

/-! ### Roles with one slot -/

/-- A result is the value of the operands under a key. It is there exactly if the shape has a slot
of that name. -/
structure StoredUnder {α : Type} (operands : Operands) (key : String)
    (toAttribute : α → Attribute) (result : Option α) : Prop where
  eq_some_iff : ∀ a, result = some a ↔ operands.fields.lookup key = some (toAttribute a)
  isSome_iff : result.isSome ↔ (operands.shape.slot? key).isSome

section

variable {α : Type} {toAttribute : α → Attribute} {result : Option α}

theorem eq_some_iff_mem (hrole : slot.role ≠ .source)
    (hvalues : slot.role.values operands = result.toList.map toAttribute)
    (hinj : Function.Injective toAttribute) {a : α} :
    result = some a ↔ (slot, toAttribute a) ∈ operands.attributes := by
  rw [← mem_values_role_iff hrole, hvalues, List.mem_map_of_injective hinj, Option.mem_toList]

/-- What is found under a role with one slot is the value under the name of the slot. -/
theorem storedUnder_name (slot : Slot) (hrole : slot.role ≠ .source)
    (hvalues : slot.role.values operands = result.toList.map toAttribute)
    (hinj : Function.Injective toAttribute) :
    StoredUnder operands slot.name toAttribute result where
  eq_some_iff a := by
    rw [lookup_eq_some_iff_mem operands.nodup_keys, mem_fields_iff,
      eq_some_iff_mem hrole hvalues hinj]
  isSome_iff := by
    rw [Shape.isSome_slot?_name, ← map_fst_attributes, List.mem_map, Option.isSome_iff_exists]
    constructor
    · rintro ⟨a, ha⟩
      exact ⟨_, (eq_some_iff_mem hrole hvalues hinj).1 ha, rfl⟩
    · rintro ⟨⟨_, value⟩, hmem, rfl⟩
      rw [← mem_values_role_iff hrole, hvalues] at hmem
      obtain ⟨a, ha, -⟩ := List.mem_map.1 hmem
      exact ⟨a, Option.mem_toList.1 ha⟩

end

theorem storedUnder_rd (operands : Operands) :
    operands.StoredUnder "rd" .register operands.rd :=
  storedUnder_name .rd (by decide) rfl fun _ _ => Attribute.register.inj

theorem storedUnder_immediate (operands : Operands) :
    operands.StoredUnder "immediate" .integer operands.immediate :=
  storedUnder_name .immediate (by decide) rfl fun _ _ => Attribute.integer.inj

/-- The offset is what stands in the slot of that name. -/
theorem offset_eq_some_iff {o : Offset} :
    operands.offset = some o ↔ (.offset, o.toAttribute) ∈ operands.attributes :=
  eq_some_iff_mem (by decide) rfl Offset.toAttribute_injective

theorem storedUnder_offset (operands : Operands) :
    operands.StoredUnder "offset" Offset.toAttribute operands.offset :=
  storedUnder_name .offset (by decide) rfl Offset.toAttribute_injective

/-- The sources are the registers under all keys but that of the destination. -/
theorem sources_eq (operands : Operands) : operands.sources =
    (operands.fields.filter (·.1 ≠ "rd")).filterMap (·.2.register?) := by
  cases operands <;>
    simp [sources, fields, attributes, toList, Slot.name, Operand.toAttribute]

/-! ### Roles and keys -/

/-- The operands by role and the operands by key. The keys are the names of the slots in their
order, and the values are of the kinds that the slots accept. The destination, the immediate and the
offset are the values under their keys, if the shape has such slots, and the sources are all other
registers. Every value is found under one role, that of its slot: the roles split the list of the
values. -/
theorem accessors_exact (operands : Operands) :
    List.Forall₂ (fun slot field => field.1 = slot.name ∧ slot.kind.accepts field.2.kind)
      operands.shape.slots operands.fields ∧
    operands.StoredUnder "rd" .register operands.rd ∧
    operands.sources = (operands.fields.filter (·.1 ≠ "rd")).filterMap (·.2.register?) ∧
    operands.StoredUnder "immediate" .integer operands.immediate ∧
    operands.StoredUnder "offset" Offset.toAttribute operands.offset ∧
    (∀ role : Role, role.values operands =
      (operands.attributes.filter (·.1.role = role)).map Prod.snd) ∧
    operands.attributes.map Prod.snd = Role.all.flatMap (·.values operands) :=
  ⟨forall₂_slots_fields operands, storedUnder_rd operands, sources_eq operands,
    storedUnder_immediate operands, storedUnder_offset operands, values_eq operands,
    map_snd_attributes operands⟩

end Operands

end RiscvDialect
