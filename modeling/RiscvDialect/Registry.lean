import RiscvDialect.NameTable
import RiscvDialect.Program
import RiscvDialect.Text.Literal

/-!
# Registries

A registry says which names a reader knows: names of attributes with a parameter, and names of
ops. The two kinds of names do not clash with each other. An entry, once made, stays as it is.

## Main definitions

* `Registry`: the known names
* `Registry.register`, `Registry.registerAll`: make one entry, or many in a row
* `Registry.describeAttribute?`: the entry of an attribute in words
* `Registry.dialect`: the entries of the dialect
* `Registry.riscv`: the registry with these entries
-/

namespace RiscvDialect

/-- The names that a reader knows, where attributes with a parameter are of the kinds `κ`. Unless
said otherwise these are the kinds of the dialect. -/
structure Registry (κ : Type := ParameterKind) where
  /-- The names of attributes with a parameter. -/
  attributes : NameTable κ
  /-- The names of ops. -/
  ops : NameTable OpKind

/-- An entry that a registry may be asked to make. -/
inductive Registration (κ : Type := ParameterKind) where
  /-- An attribute under a name. -/
  | attr (name : String) (kind : κ)
  /-- An op under a name. -/
  | op (name : String) (kind : OpKind)
  deriving DecidableEq, Repr

namespace Registry

variable {κ : Type}

/-- The registry that knows no name. -/
def empty : Registry := ⟨.empty, .empty⟩

/-- The attribute known under a name. -/
def attribute? (r : Registry κ) (name : String) : Option κ :=
  r.attributes.get? name

/-- The op known under a name. -/
def op? (r : Registry κ) (name : String) : Option OpKind :=
  r.ops.get? name

/-- The entry of an attribute in words, if there is one. It shows the name, as a literal, and leaves
out how the attribute is read. -/
def describeAttribute? (r : Registry κ) (name : String) : Option String :=
  (r.attribute? name).map fun _ => "AttrDescriptor \x7b name: " ++ Text.literal name ++ ", .. \x7d"

/-- Make one entry. A name that is taken is refused. -/
def register (r : Registry κ) : Registration κ → Except DialectError (Registry κ)
  | .attr name kind =>
    match h : r.attributes.get? name with
    | none => .ok { r with attributes := r.attributes.insert name kind h }
    | some _ => .error (.alreadyRegistered name)
  | .op name kind =>
    match h : r.ops.get? name with
    | none => .ok { r with ops := r.ops.insert name kind h }
    | some _ => .error (.alreadyRegistered name)

/-- Make entries in a row, up to the first that is refused. The result is the registry with the
entries made until then, and the refusal if there was one. -/
def registerAll (r : Registry κ) : List (Registration κ) → Registry κ × Option DialectError
  | [] => (r, none)
  | entry :: rest =>
    match r.register entry with
    | .ok r' => r'.registerAll rest
    | .error e => (r, some e)

/-- The entries of the dialect: its attributes, the catalog, the aliases, labels and directives. -/
def dialect : List Registration :=
  [.attr ParameterKind.register.name .register, .attr ParameterKind.label.name .label]
    ++ Opcode.all.map (fun opcode => .op opcode.name (.instruction opcode))
    ++ Opcode.aliases.map (fun (name, opcode) => .op name (.instruction opcode))
    ++ [.op Label.opName .label, .op Directive.opName .directive]

/-- The registry with the entries made that come before the first refusal. -/
def extend (r : Registry κ) (entries : List (Registration κ)) : Registry κ :=
  (r.registerAll entries).1

/-- The registry with the entries of the dialect. -/
def riscv : Registry :=
  empty.extend dialect

end Registry

end RiscvDialect
