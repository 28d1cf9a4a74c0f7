import Mathlib.Data.Finset.Card
import RiscvDialect.LabelCheck
import RiscvDialect.Proofs.Operands

/-!
# What the label check finds

The check goes over a program twice. The first time it keeps the place of the first definition of
each label and finds the definitions that come later; the second time it finds the references to
labels that were not kept. What it finds at an op depends on the op and on the labels of the whole
program only, so each list is what the ops, taken one by one, contribute to it.

Both lists are in the order of the ops, but one comes after the other. They are in order together
only if no undefined label is referred to before a label is defined again.

## Main definitions

* `Program.FirstDefines`: the place of the first definition of a label
* `Program.Redefines`, `Program.Misses`: what there is to be found in a program
* `Program.ReportsRedefinition`, `Program.ReportsMiss`: how it is reported, with the place and the
  words
* `Program.Noted`: the labels kept are those defined so far

## Main statements

* `Program.labelProblems_eq`: the problems, op by op
* `Program.length_redefinitionsFrom`: the number of repeated definitions
* `Program.labelProblems_exact`: the problems of a program, their number, and when there are none
* `Program.inOrder_labelProblems_iff`: when they are in the order of the ops
-/

namespace RiscvDialect

/-! ### Definitions and references -/

/-- Whether an op defines the label of the given name. -/
def Op.defines (name : String) (op : Op) : Bool :=
  op.label?.any (·.name == name)

theorem Op.defines_iff {name : String} {op : Op} :
    op.defines name ↔ ∃ l, op = .label l ∧ l.name = name := by
  cases op <;> simp [defines, label?]

namespace Program

/-- The op at `first` is the first one to define the label of the given name. -/
structure FirstDefines (p : Program) (name : String) (first : Nat) : Prop where
  defines_first : ∃ l, p[first]? = some (.label l) ∧ l.name = name
  not_before : ∀ i < first, ∀ l, p[i]? = some (.label l) → l.name ≠ name

/-- An op defines a label that an earlier op has defined. -/
inductive Redefines (p : Program) : LabelProblem → Prop where
  | redefined {index first : Nat} {l : Label} (hindex : p[index]? = some (.label l))
    (hfirst : p.FirstDefines l.name first) (hlt : first < index) :
    Redefines p (.redefined index l.name first)

/-- The offset of an instruction is a label that no op defines, be it before or after. -/
inductive Misses (p : Program) : LabelProblem → Prop where
  | undefined {index : Nat} {i : Instruction} {l : Label}
    (hindex : p[index]? = some (.instruction i))
    (hoffset : (.offset, .label l) ∈ i.operands.attributes)
    (hmissing : ∀ m, Op.label m ∈ p → m.name ≠ l.name) :
    Misses p (.undefined index i.name l.name)

/-- A problem is reported as a label that the op at `index` defines again. The report is located at
this op, and names the label and the op that defines it first. -/
structure ReportsRedefinition (p : Program) (problem : LabelProblem) (index first : Nat)
    (l : Label) : Prop where
  label : p[index]? = some (.label l)
  firstDefines : p.FirstDefines l.name first
  first_lt : first < index
  index_eq : problem.index = index
  location : problem.location = "op" ++ toString index
  message : problem.message =
    "Label '" ++ l.name ++ "' is already defined at op" ++ toString first

/-- A problem is reported as a label that the instruction at `index` refers to and no op defines.
The report is located at the instruction, and names its op and the label. -/
structure ReportsMiss (p : Program) (problem : LabelProblem) (index : Nat) (i : Instruction)
    (l : Label) : Prop where
  instruction : p[index]? = some (.instruction i)
  offset : (.offset, .label l) ∈ i.operands.attributes
  missing : ∀ m, Op.label m ∈ p → m.name ≠ l.name
  index_eq : problem.index = index
  location : problem.location = "op" ++ toString index
  message : problem.message = "'" ++ i.name ++ "' refers to undefined label '" ++ l.name ++ "'"

variable {p before later : Program} {problem : LabelProblem}

theorem Redefines.exists_reports (h : p.Redefines problem) :
    ∃ index first l, p.ReportsRedefinition problem index first l := by
  obtain @⟨index, first, l, hindex, hfirst, hlt⟩ := h
  exact ⟨index, first, l, hindex, hfirst, hlt, rfl, rfl, rfl⟩

theorem Misses.exists_reports (h : p.Misses problem) :
    ∃ index i l, p.ReportsMiss problem index i l := by
  obtain @⟨index, i, l, hindex, hoffset, hmissing⟩ := h
  exact ⟨index, i, l, hindex, hoffset, hmissing, rfl, rfl, rfl⟩

theorem findIdx?_defines_eq_some {name : String} {first : Nat} :
    p.findIdx? (Op.defines name) = some first ↔ p.FirstDefines name first := by
  rw [List.findIdx?_eq_some_iff_getElem]
  constructor
  · rintro ⟨hlt, hdefines, hbefore⟩
    obtain ⟨l, hl, hname⟩ := Op.defines_iff.1 hdefines
    refine ⟨⟨l, by rw [List.getElem?_eq_getElem hlt, hl], hname⟩, fun i hi m hm heq => ?_⟩
    obtain ⟨_, hget⟩ := List.getElem?_eq_some_iff.1 hm
    exact hbefore i hi (Op.defines_iff.2 ⟨m, hget, heq⟩)
  · rintro ⟨⟨l, hl, hname⟩, hbefore⟩
    obtain ⟨hlt, hget⟩ := List.getElem?_eq_some_iff.1 hl
    refine ⟨hlt, Op.defines_iff.2 ⟨l, hget, hname⟩, fun i hi hdefines => ?_⟩
    obtain ⟨m, hm, heq⟩ := Op.defines_iff.1 hdefines
    exact hbefore i hi m (by rw [List.getElem?_eq_getElem (hi.trans hlt), hm]) heq

/-! ### The problems, op by op -/

/-- The problem with an op and its place, if it defines a label again. -/
def redefinition? (p : Program) (placed : Op × Nat) : Option LabelProblem :=
  placed.1.label?.bind fun l =>
    ((p.findIdx? (Op.defines l.name)).filter (· < placed.2)).map (.redefined placed.2 l.name)

/-- The problem with an op and its place, if it refers to a label outside `defined`. -/
def miss? (defined : List String) (placed : Op × Nat) : Option LabelProblem :=
  placed.1.labelReference?.bind fun l =>
    if l.name ∈ defined then none else some (.undefined placed.2 placed.1.name l.name)

/-- The names kept are those defined by the ops so far, each with the place of its first
definition. -/
def Noted (before : Program) (defined : List (String × Nat)) : Prop :=
  ∀ name, defined.lookup name = before.findIdx? (Op.defines name)

theorem noted_nil : Noted [] [] :=
  fun _ => rfl

variable {defined : List (String × Nat)}

/-- A label that is defined for the first time is kept. -/
theorem Noted.append_new (h : Noted before defined) {l : Label}
    (hl : defined.lookup l.name = none) :
    Noted (before ++ [.label l]) ((l.name, before.length) :: defined) := by
  intro name
  rw [List.findIdx?_append, ← h name]
  by_cases hname : l.name = name
  · subst hname
    simp [hl, Op.defines, Op.label?]
  · have hne : (name == l.name) = false := by simpa using Ne.symm hname
    simp [List.lookup_cons, hne, Op.defines, Op.label?, hname]

/-- No other op changes what is kept. -/
theorem Noted.append_known (h : Noted before defined) {op : Op}
    (hop : ∀ l, op = .label l → defined.lookup l.name ≠ none) : Noted (before ++ [op]) defined := by
  intro name
  rw [List.findIdx?_append, ← h name]
  by_cases hdefines : op.defines name
  · obtain ⟨l, rfl, rfl⟩ := Op.defines_iff.1 hdefines
    obtain ⟨first, hfirst⟩ := Option.ne_none_iff_exists'.1 (hop l rfl)
    simp [hfirst]
  · simp [hdefines]

/-- A label is defined again if it has been kept. -/
theorem redefinition?_label (h : Noted before defined) (l : Label) (later : Program) :
    redefinition? (before ++ .label l :: later) (.label l, before.length) =
      (defined.lookup l.name).map (.redefined before.length l.name) := by
  have hself : Op.defines l.name (.label l) := Op.defines_iff.2 ⟨l, rfl, rfl⟩
  simp only [redefinition?, Op.label?, Option.bind_some, List.findIdx?_append, ← h l.name,
    List.findIdx?_cons, hself, if_true]
  cases hlookup : defined.lookup l.name with
  | none => simp
  | some first =>
    have hfirst : before.findIdx? (Op.defines l.name) = some first := h l.name ▸ hlookup
    obtain ⟨hlt, -⟩ := List.findIdx?_eq_some_iff_getElem.1 hfirst
    simp [hlt]

theorem redefinitionsFrom_eq (h : Noted before defined) (later : Program) :
    redefinitionsFrom before.length defined later =
      (later.zipIdx before.length).filterMap (redefinition? (before ++ later)) := by
  -- an op moves from `later` to the end of `before`, so the whole program stays the same
  induction later generalizing before defined with
  | nil => rfl
  | cons op later ih =>
    have hlater {defined' : List (String × Nat)} (h' : Noted (before ++ [op]) defined') :
        redefinitionsFrom (before.length + 1) defined' later =
          (later.zipIdx (before.length + 1)).filterMap (redefinition? (before ++ op :: later)) := by
      simpa using ih h'
    rw [List.zipIdx_cons, List.filterMap_cons]
    cases op with
    | label l =>
      rw [redefinition?_label h, redefinitionsFrom]
      cases hlookup : defined.lookup l.name with
      | none => exact hlater (h.append_new hlookup)
      | some first =>
        have hknown : Noted (before ++ [.label l]) defined :=
          h.append_known fun m hm => by cases hm; simp [hlookup]
        simp only [Option.map_some, hlater hknown]
    | instruction i => exact hlater (h.append_known (by simp))
    | directive d => exact hlater (h.append_known (by simp))

theorem undefinedFrom_eq (index : Nat) (defined : List String) (p : Program) :
    undefinedFrom index defined p = (p.zipIdx index).filterMap (miss? defined) := by
  induction p generalizing index with
  | nil => rfl
  | cons op later ih =>
    rw [undefinedFrom, List.zipIdx_cons, List.filterMap_cons, miss?, ih]
    cases op.labelReference? with
    | none => rfl
    | some l => by_cases hl : l.name ∈ defined <;> simp [hl]

/-- Every op contributes what is wrong with it. -/
theorem labelProblems_eq (p : Program) (allowExternal : Bool) :
    p.labelProblems allowExternal = p.zipIdx.filterMap (redefinition? p) ++
      if allowExternal then [] else p.zipIdx.filterMap (miss? (p.labels.map Label.name)) := by
  rw [labelProblems, undefinedFrom_eq]
  congr 1
  exact redefinitionsFrom_eq noted_nil p

/-! ### What is found -/

theorem index_of_redefinition? {placed : Op × Nat} (h : redefinition? p placed = some problem) :
    problem.index = placed.2 := by
  obtain ⟨l, -, h⟩ := Option.bind_eq_some_iff.1 h
  obtain ⟨first, -, rfl⟩ := Option.map_eq_some_iff.1 h
  rfl

theorem index_of_miss? {names : List String} {placed : Op × Nat}
    (h : miss? names placed = some problem) : problem.index = placed.2 := by
  obtain ⟨l, -, h⟩ := Option.bind_eq_some_iff.1 h
  split at h
  · simp at h
  · cases h
    rfl

/-- What the ops contribute at their own places is in the order of the ops. -/
theorem pairwise_filterMap_zipIdx {f : Op × Nat → Option LabelProblem} (p : Program)
    (hf : ∀ placed problem, f placed = some problem → problem.index = placed.2) :
    (p.zipIdx.filterMap f).Pairwise (·.index < ·.index) := by
  have hplaces : p.zipIdx.Pairwise (·.2 < ·.2) := by
    rw [← List.pairwise_map (f := Prod.snd), List.zipIdx_map_snd]
    exact List.pairwise_lt_range' 1
  refine hplaces.filterMap f fun a b hab x hx y hy => ?_
  rw [hf a x hx, hf b y hy]
  exact hab

/-- The repeated definitions are found, and nothing else. -/
theorem mem_redefinitions_iff :
    problem ∈ p.zipIdx.filterMap (redefinition? p) ↔ p.Redefines problem := by
  simp only [List.mem_filterMap, List.mem_zipIdx_iff_getElem?]
  constructor
  · rintro ⟨⟨op, index⟩, hindex, h⟩
    obtain ⟨l, hl, h⟩ := Option.bind_eq_some_iff.1 h
    obtain ⟨first, hkept, rfl⟩ := Option.map_eq_some_iff.1 h
    obtain ⟨hfirst, hlt⟩ := Option.filter_eq_some_iff.1 hkept
    cases op with
    | label m =>
      cases hl
      exact .redefined hindex (findIdx?_defines_eq_some.1 hfirst) (by simpa using hlt)
    | instruction i => cases hl
    | directive d => cases hl
  · rintro @⟨index, first, l, hindex, hfirst, hlt⟩
    refine ⟨(.label l, index), hindex, ?_⟩
    simp [redefinition?, Op.label?, findIdx?_defines_eq_some.2 hfirst, hlt]

theorem name_mem_labels {name : String} :
    name ∈ p.labels.map Label.name ↔ ∃ l, Op.label l ∈ p ∧ l.name = name := by
  simp only [labels, List.mem_map, List.mem_filterMap]
  constructor
  · rintro ⟨l, ⟨op, hop, hl⟩, hname⟩
    cases op <;> cases hl
    exact ⟨l, hop, hname⟩
  · rintro ⟨l, hl, hname⟩
    exact ⟨l, ⟨_, hl, rfl⟩, hname⟩

theorem labelReference?_eq_some {op : Op} {l : Label} : op.labelReference? = some l ↔
    ∃ i, op = .instruction i ∧ (.offset, .label l) ∈ i.operands.attributes := by
  have hoffset (i : Instruction) : (i.operands.offset.bind Offset.label? = some l) ↔
      (.offset, .label l) ∈ i.operands.attributes := by
    rw [show Attribute.label l = (Offset.label l).toAttribute from rfl,
      ← Operands.offset_eq_some_iff, Option.bind_eq_some_iff]
    constructor
    · rintro ⟨o, ho, hl⟩
      cases o <;> cases hl
      exact ho
    · exact fun h => ⟨_, h, rfl⟩
  cases op <;> simp [Op.labelReference?, Op.instruction?, hoffset]

/-- The references to labels without a definition are found, and nothing else. -/
theorem mem_misses_iff :
    problem ∈ p.zipIdx.filterMap (miss? (p.labels.map Label.name)) ↔ p.Misses problem := by
  simp only [List.mem_filterMap, List.mem_zipIdx_iff_getElem?]
  constructor
  · rintro ⟨⟨op, index⟩, hindex, h⟩
    obtain ⟨l, hl, h⟩ := Option.bind_eq_some_iff.1 h
    obtain ⟨i, rfl, hoffset⟩ := labelReference?_eq_some.1 hl
    split at h
    · simp at h
    · next hnot =>
      cases h
      exact .undefined hindex hoffset fun m hm heq => hnot (name_mem_labels.2 ⟨m, hm, heq⟩)
  · rintro @⟨index, i, l, hindex, hoffset, hmissing⟩
    have hnot : l.name ∉ p.labels.map Label.name := fun hmem =>
      let ⟨m, hm, heq⟩ := name_mem_labels.1 hmem
      hmissing m hm heq
    refine ⟨(.instruction i, index), hindex, ?_⟩
    simp only [miss?, labelReference?_eq_some.2 ⟨i, rfl, hoffset⟩, Option.bind_some, if_neg hnot,
      Op.name]

/-! ### How much is found -/

theorem mem_map_fst_iff_lookup {name : String} :
    name ∈ defined.map Prod.fst ↔ (defined.lookup name).isSome := by
  simp [List.lookup_isSome_iff]

/-- Every label is either kept or found to be repeated. -/
theorem length_redefinitionsFrom (index : Nat) (defined : List (String × Nat)) (p : Program) :
    (redefinitionsFrom index defined p).length +
        (defined.map Prod.fst ++ p.labels.map Label.name).toFinset.card =
      p.labels.length + (defined.map Prod.fst).toFinset.card := by
  induction p generalizing index defined with
  | nil => simp [redefinitionsFrom, labels]
  | cons op later ih =>
    cases op with
    | instruction i => exact ih (index + 1) defined
    | directive d => exact ih (index + 1) defined
    | label l =>
      have hlabels : labels (.label l :: later) = l :: labels later := rfl
      rw [redefinitionsFrom, hlabels, List.map_cons,
        List.toFinset_eq_of_perm _ _ List.perm_middle, List.toFinset_cons]
      cases hlookup : defined.lookup l.name with
      | none =>
        -- one more name is kept, and the names altogether are the same
        have hnew : l.name ∉ (defined.map Prod.fst).toFinset := by
          rw [List.mem_toFinset, mem_map_fst_iff_lookup, hlookup]
          simp
        have hlater := ih (index + 1) ((l.name, index) :: defined)
        rw [List.map_cons, List.cons_append, List.toFinset_cons, List.toFinset_cons,
          Finset.card_insert_of_notMem hnew] at hlater
        dsimp only at hlater ⊢
        rw [List.length_cons]
        omega
      | some first =>
        -- one more problem is found, and the name is no new one
        have hknown : l.name ∈
            (defined.map Prod.fst ++ (labels later).map Label.name).toFinset := by
          rw [List.mem_toFinset, List.mem_append, mem_map_fst_iff_lookup, hlookup]
          exact .inl rfl
        have hlater := ih (index + 1) defined
        dsimp only
        rw [Finset.insert_eq_of_mem hknown, List.length_cons, List.length_cons]
        omega

/-- Whether an op refers to a label that the program does not define. -/
def missesLabel (p : Program) (op : Op) : Bool :=
  op.labelReference?.any (·.name ∉ p.labels.map Label.name)

theorem missesLabel_iff {op : Op} : p.missesLabel op ↔ ∃ i l, op = .instruction i ∧
    (.offset, .label l) ∈ i.operands.attributes ∧ ∀ m, Op.label m ∈ p → m.name ≠ l.name := by
  have hname (l : Label) : l.name ∉ p.labels.map Label.name ↔
      ∀ m, Op.label m ∈ p → m.name ≠ l.name := by
    simp only [name_mem_labels, not_exists, not_and, ne_eq]
  have hreference : p.missesLabel op ↔
      ∃ l, op.labelReference? = some l ∧ l.name ∉ p.labels.map Label.name := by
    rw [missesLabel]
    cases op.labelReference? <;> simp
  simp only [hreference, labelReference?_eq_some, hname]
  exact ⟨fun ⟨l, ⟨i, hi, hl⟩, h⟩ => ⟨i, l, hi, hl, h⟩, fun ⟨i, l, hi, hl, h⟩ => ⟨l, ⟨i, hi, hl⟩, h⟩⟩

theorem isSome_miss? (placed : Op × Nat) :
    (miss? (p.labels.map Label.name) placed).isSome = p.missesLabel placed.1 := by
  rw [miss?, missesLabel]
  cases placed.1.labelReference? with
  | none => rfl
  | some l =>
    rw [Option.bind_some, Option.any_some]
    split
    · next hl => exact (decide_eq_false (not_not_intro hl)).symm
    · next hl => exact (decide_eq_true hl).symm

theorem length_misses (p : Program) :
    (p.zipIdx.filterMap (miss? (p.labels.map Label.name))).length = p.countP p.missesLabel :=
  calc
    _ = p.zipIdx.countP (p.missesLabel ∘ Prod.fst) := by
      rw [List.length_filterMap_eq_countP]
      simp only [isSome_miss?]
      rfl
    _ = (p.zipIdx.map Prod.fst).countP p.missesLabel := List.countP_map.symm
    _ = p.countP p.missesLabel := by rw [List.zipIdx_map_fst]

/-- There are as many problems as labels beyond the different ones and references to labels without
a definition. -/
theorem length_labelProblems (p : Program) (allowExternal : Bool) :
    (p.labelProblems allowExternal).length =
      (p.labels.length - (p.labels.map Label.name).toFinset.card) +
        if allowExternal then 0 else p.countP p.missesLabel := by
  have hrepeated := length_redefinitionsFrom 0 [] p
  simp only [List.map_nil, List.nil_append, List.toFinset_nil, Finset.card_empty] at hrepeated
  rw [labelProblems, List.length_append, undefinedFrom_eq, apply_ite List.length, length_misses,
    List.length_nil]
  omega

/-- All labels are different if there are as many names as labels. -/
theorem nodup_names_iff : (p.labels.map Label.name).Nodup ↔
    p.labels.length - (p.labels.map Label.name).toFinset.card = 0 := by
  have hle := List.toFinset_card_le (p.labels.map Label.name)
  rw [← List.dedup_eq_self, ← (List.dedup_sublist _).length_eq, ← List.card_toFinset,
    List.length_map] at *
  omega

theorem countP_missesLabel_eq_zero : p.countP p.missesLabel = 0 ↔
    ∀ i l, Op.instruction i ∈ p → (.offset, .label l) ∈ i.operands.attributes →
      ∃ m, Op.label m ∈ p ∧ m.name = l.name := by
  simp only [List.countP_eq_zero, missesLabel_iff, not_exists, not_and, not_forall]
  constructor
  · intro h i l hi hoffset
    obtain ⟨m, hm, heq⟩ := h _ hi i l rfl hoffset
    exact ⟨m, hm, not_not.1 heq⟩
  · rintro h _ hi i l rfl hoffset
    obtain ⟨m, hm, heq⟩ := h i l hi hoffset
    exact ⟨m, hm, not_not_intro heq⟩

/-- The number of problems does not depend on the order of the ops. -/
theorem length_labelProblems_perm {q : Program} (h : p.Perm q) (allowExternal : Bool) :
    (p.labelProblems allowExternal).length = (q.labelProblems allowExternal).length := by
  have hlabels : p.labels.Perm q.labels := h.filterMap _
  have hnames : (p.labels.map Label.name).toFinset = (q.labels.map Label.name).toFinset :=
    List.toFinset_eq_of_perm _ _ (hlabels.map _)
  have hmisses : p.missesLabel = q.missesLabel := by
    funext op
    simp only [missesLabel, (hlabels.map Label.name).mem_iff]
  rw [length_labelProblems, length_labelProblems, hlabels.length_eq, hnames, hmisses,
    h.countP_eq]

/-! ### The problems of a program -/

/-- The problems are the repeated definitions in the order of the ops, followed, unless labels may
be external, by the references to labels without a definition in the order of the ops. Each is
reported at its op: a repeated definition with the label and the op that defines it first, and a
reference with the name of the op and the label. There are none if all labels are different and,
unless they may be external, all labels referred to are defined. Their number is that of the labels
beyond the different ones and of the references without a definition, and no rearrangement of the
ops changes it. -/
theorem labelProblems_exact (p : Program) (allowExternal : Bool) :
    (∃ repeated missing, p.labelProblems allowExternal = repeated ++ missing ∧
      repeated.Pairwise (·.index < ·.index) ∧
      (∀ problem, problem ∈ repeated ↔ p.Redefines problem) ∧
      (∀ problem ∈ repeated, ∃ index first l, p.ReportsRedefinition problem index first l) ∧
      missing.Pairwise (·.index < ·.index) ∧
      (∀ problem, problem ∈ missing ↔ allowExternal = false ∧ p.Misses problem) ∧
      ∀ problem ∈ missing, ∃ index i l, p.ReportsMiss problem index i l) ∧
    (p.labelProblems allowExternal = [] ↔ (p.labels.map Label.name).Nodup ∧
      (allowExternal = true ∨
        ∀ i l, Op.instruction i ∈ p → (.offset, .label l) ∈ i.operands.attributes →
          ∃ m, Op.label m ∈ p ∧ m.name = l.name)) ∧
    (p.labelProblems allowExternal).length =
      (p.labels.length - (p.labels.map Label.name).toFinset.card) +
        (if allowExternal then 0 else p.countP p.missesLabel) ∧
    ∀ q : Program, p.Perm q →
      (p.labelProblems allowExternal).length = (q.labelProblems allowExternal).length := by
  have hmissing (problem : LabelProblem) :
      problem ∈ (if allowExternal then [] else
        p.zipIdx.filterMap (miss? (p.labels.map Label.name))) ↔
        allowExternal = false ∧ p.Misses problem := by
    cases allowExternal with
    | true => simp
    | false => simpa using mem_misses_iff
  refine ⟨⟨_, _, labelProblems_eq p allowExternal, ?_, fun problem => mem_redefinitions_iff,
    fun problem h => (mem_redefinitions_iff.1 h).exists_reports, ?_, hmissing,
    fun problem h => ((hmissing problem).1 h).2.exists_reports⟩, ?_,
    length_labelProblems p allowExternal, fun q h => length_labelProblems_perm h allowExternal⟩
  · exact pairwise_filterMap_zipIdx p fun _ _ => index_of_redefinition?
  · cases allowExternal with
    | true => exact .nil
    | false => exact pairwise_filterMap_zipIdx p fun _ _ => index_of_miss?
  · rw [← List.length_eq_zero_iff, length_labelProblems, Nat.add_eq_zero_iff, nodup_names_iff,
      ← countP_missesLabel_eq_zero]
    cases allowExternal <;> simp

/-- Turning a program around leaves it with as many problems, but they are other ones. -/
theorem labelProblems_exact_reverse :
    let p : Program := [.label ⟨"a", rfl⟩,
      .instruction ⟨.jal, .rdOff ⟨1⟩ (.label ⟨"b", rfl⟩), rfl⟩, .label ⟨"a", rfl⟩]
    p.Perm p.reverse ∧
      p.labelProblems false = [.redefined 2 "a" 0, .undefined 1 "riscv.jal" "b"] ∧
      (p.labelProblems false).map LabelProblem.display =
        ["op2: Label 'a' is already defined at op0",
          "op1: 'riscv.jal' refers to undefined label 'b'"] ∧
      (p.labelProblems false).length = (labelProblems p.reverse false).length := by
  intro p
  have hperm : p.Perm p.reverse := p.reverse_perm.symm
  exact ⟨hperm, by decide, by decide, (labelProblems_exact p false).2.2.2 _ hperm⟩

/-- The problems come in the order of the ops exactly if labels may be external or no reference to a
label without a definition comes before a repeated definition. -/
theorem inOrder_labelProblems_iff (p : Program) (allowExternal : Bool) :
    (p.labelProblems allowExternal).Pairwise (·.index ≤ ·.index) ↔
      allowExternal = true ∨
        ∀ again missing, p.Redefines again → p.Misses missing → again.index ≤ missing.index := by
  have hrepeated : (p.zipIdx.filterMap (redefinition? p)).Pairwise (·.index ≤ ·.index) :=
    (pairwise_filterMap_zipIdx p fun _ _ => index_of_redefinition?).imp Nat.le_of_lt
  have hmissing :
      (p.zipIdx.filterMap (miss? (p.labels.map Label.name))).Pairwise (·.index ≤ ·.index) :=
    (pairwise_filterMap_zipIdx p fun _ _ => index_of_miss?).imp Nat.le_of_lt
  rw [labelProblems_eq, List.pairwise_append]
  simp only [mem_redefinitions_iff]
  cases allowExternal with
  | true => simp [hrepeated]
  | false =>
    simp only [Bool.false_eq_true, if_false, mem_misses_iff, hrepeated, hmissing, true_and,
      false_or]
    exact ⟨fun h again missing ha hm => h again ha missing hm,
      fun h again ha missing hm => h again missing ha hm⟩

/-- A label that is never defined, before one that is defined twice. The reference, which comes
first, is found last. -/
theorem not_inOrder_labelProblems :
    ¬ ∀ (p : Program) (allowExternal : Bool),
      (p.labelProblems allowExternal).Pairwise (·.index ≤ ·.index) := by
  intro h
  have hpairs := h [.instruction ⟨.jal, .rdOff ⟨1⟩ (.label ⟨"exit", rfl⟩), rfl⟩,
    .label ⟨"a", rfl⟩, .label ⟨"a", rfl⟩] false
  exact absurd hpairs (by decide)

end Program

end RiscvDialect
