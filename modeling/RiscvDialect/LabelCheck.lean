import RiscvDialect.Program

/-!
# Checking labels

A label should be defined once, and a jump to a label should find it defined, unless labels from
elsewhere are allowed.

## Main definitions

* `LabelProblem`: what can be wrong with a label
* `Program.labelProblems`: everything that is wrong with the labels of a program
-/

namespace RiscvDialect

/-- Something wrong with a label of a program. -/
inductive LabelProblem where
  /-- The op at `index` defines a label that the op at `first` has defined before. -/
  | redefined (index : Nat) (label : String) (first : Nat)
  /-- The op at `index`, of name `op`, refers to a label that is not defined. -/
  | undefined (index : Nat) (op : String) (label : String)
  deriving DecidableEq, Repr

namespace LabelProblem

/-- The place of the op with the problem. -/
def index : LabelProblem → Nat
  | .redefined index .. => index
  | .undefined index .. => index

/-- The problem in words. -/
def message : LabelProblem → String
  | .redefined _ label first => s!"Label '{label}' is already defined at op{first}"
  | .undefined _ op label => s!"'{op}' refers to undefined label '{label}'"

/-- The place of the op with the problem, in words. -/
def location (problem : LabelProblem) : String :=
  s!"op{problem.index}"

/-- The problem in words, with its place. -/
def display (problem : LabelProblem) : String :=
  s!"{problem.location}: {problem.message}"

end LabelProblem

/-- The label that an op refers to. -/
def Op.labelReference? (op : Op) : Option Label :=
  op.instruction?.bind fun i => i.operands.offset.bind Offset.label?

namespace Program

/-- The labels defined a second time by the ops from `index` on, where `defined` has the labels
defined before, each with the place of its first definition. -/
def redefinitionsFrom (index : Nat) (defined : List (String × Nat)) : Program → List LabelProblem
  | [] => []
  | .label l :: later =>
    match defined.lookup l.name with
    | some first => .redefined index l.name first :: redefinitionsFrom (index + 1) defined later
    | none => redefinitionsFrom (index + 1) ((l.name, index) :: defined) later
  | _ :: later => redefinitionsFrom (index + 1) defined later

/-- The references to labels outside `defined` by the ops from `index` on. -/
def undefinedFrom (index : Nat) (defined : List String) : Program → List LabelProblem
  | [] => []
  | op :: later =>
    match op.labelReference? with
    | some l =>
      if l.name ∈ defined then undefinedFrom (index + 1) defined later
      else .undefined index op.name l.name :: undefinedFrom (index + 1) defined later
    | none => undefinedFrom (index + 1) defined later

/-- Everything wrong with the labels of a program: the repeated definitions, and then the
references to labels without a definition, unless these are allowed to be external. -/
def labelProblems (p : Program) (allowExternal : Bool) : List LabelProblem :=
  redefinitionsFrom 0 [] p ++
    if allowExternal then [] else undefinedFrom 0 (p.labels.map Label.name) p

end Program

end RiscvDialect
