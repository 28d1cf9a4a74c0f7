import RiscvDialect.Assembly.Parser
import RiscvDialect.Generic.Parser
import RiscvDialect.Proofs.Registry

/-!
# A larger registry reads no less

A reader that asks for a name and is told that there is none fails for good. It does not try to read
the text in another way, so a name that is known only to a larger registry cannot lead it elsewhere.
What was read with a registry is therefore read in the same way with every larger one, whatever
the attributes are that the two have registered.

Assembly has no attributes, and its readers ask for names of ops only. They do not tell registries
apart that know the same ops.

## Main definitions

* `Below`: one result is kept by another

## Main statements

* `Generic.readAttribute_below`, `Generic.readOp_below`, `Generic.readProgram_below`: the readers
  of the generic format
* `Assembly.readLines_below`, `Assembly.readLines_congr`: the reader of assembly
* `parse_mono`: all of them together
-/

namespace RiscvDialect

/-! ### Results that are kept -/

/-- If `x` has a value, `y` has it too. If `x` has failed, `y` may do what it likes. -/
def Below {ε α : Type} (x y : Except ε α) : Prop :=
  ∀ a, x = .ok a → y = .ok a

namespace Below

variable {ε δ α β : Type} {x y : Except ε α}

theorem refl (x : Except ε α) : Below x x :=
  fun _ h => h

theorem error (e : ε) (y : Except ε α) : Below (.error e) y :=
  fun _ h => nomatch h

/-- Steps in a row keep their result if each of them does. -/
theorem bind {f g : α → Except ε β} (h : Below x y) (hfg : ∀ a, Below (f a) (g a)) :
    Below (x >>= f) (y >>= g) := by
  intro b hb
  obtain ⟨a, hx, hf⟩ := Except.bind_eq_ok.1 hb
  exact Except.bind_eq_ok.2 ⟨a, h a hx, hfg a b hf⟩

theorem map (f : α → β) (h : Below x y) : Below (x.map f) (y.map f) := by
  intro b hb
  obtain ⟨a, hx, hf⟩ := Except.map_eq_ok.1 hb
  exact Except.map_eq_ok.2 ⟨a, h a hx, hf⟩

theorem mapError (f : ε → δ) (h : Below x y) : Below (x.mapError f) (y.mapError f) := by
  intro a ha
  cases x with
  | error e => cases ha
  | ok b =>
    rw [h b rfl]
    exact ha

end Below

namespace Registry

variable {κ : Type} {r r' : Registry κ} {name : String}

theorem attribute?_of_le (h : r ≤ r') {kind : κ} (hkind : r.attribute? name = some kind) :
    r'.attribute? name = some kind :=
  h (.attr name kind) hkind

theorem op?_of_le (h : r ≤ r') {kind : OpKind} (hkind : r.op? name = some kind) :
    r'.op? name = some kind :=
  h (.op name kind) hkind

end Registry

/-! ### The generic format -/

namespace Generic

variable {κ : Type} [ParameterReader κ] {r r' : Registry κ}

theorem readParameter_below (h : r ≤ r') (text body : List Char) :
    Below (readParameter r text body) (readParameter r' text body) := by
  unfold readParameter
  split
  · exact .refl _
  · cases hkind : r.attribute? _ with
    | none => exact .error _ _
    | some kind =>
      rw [Registry.attribute?_of_le h hkind]
      exact .refl _

theorem readAttribute_below (h : r ≤ r') (text : List Char) :
    Below (readAttribute r text) (readAttribute r' text) := by
  unfold readAttribute
  split
  · exact readParameter_below h _ _
  · exact .refl _
  · exact .refl _

theorem readEntry_below (h : r ≤ r') (text : List Char) :
    Below (readEntry r text) (readEntry r' text) :=
  (Below.refl _).bind fun _ => (Below.refl _).bind fun _ =>
    (readAttribute_below h _).bind fun _ => .refl _

/-- The sign after an entry says how to go on, and it does not depend on the registry. -/
theorem readEntries_below (h : r ≤ r') (text : List Char) :
    Below (readEntries r text) (readEntries r' text) := by
  fun_induction readEntries r text with
  | case1 => exact .error _ _
  | case2 text entry later hentry ih =>
    have hentry' := readEntry_below h _ _ hentry
    have hmore : readEntries r' text =
        (readEntries r' (skipBlank later)).map fun read => (entry :: read.1, read.2) := by
      rw [readEntries]
      split <;> simp_all
    rw [hmore]
    exact ih.map _
  | case3 text entry rest hentry =>
    have hentry' := readEntry_below h _ _ hentry
    have hlast : readEntries r' text = .ok ([entry], rest) := by
      rw [readEntries]
      split <;> simp_all
    rw [hlast]
    exact .refl _
  | case4 => exact .error _ _

theorem readDictionary_below (h : r ≤ r') (text : List Char) :
    Below (readDictionary r text) (readDictionary r' text) := by
  unfold readDictionary
  split
  · split
    · exact .refl _
    · exact readEntries_below h _
  · exact .refl _

theorem readOp_below (h : r ≤ r') (text : List Char) :
    Below (readOp r text) (readOp r' text) := by
  refine (Below.refl _).bind fun start => ?_
  -- the name is looked up first, and what comes after it is read only if it is known
  refine Below.bind ?_ fun _ => (Below.refl _).bind fun _ => (Below.refl _).bind fun _ =>
    (readDictionary_below h _).bind fun _ => .refl _
  cases hkind : r.op? start.1 with
  | none => exact .error _ _
  | some kind =>
    rw [Registry.op?_of_le h hkind]
    exact .refl _

/-- Each op is read before it matters what comes after it. -/
theorem readOps_below (h : r ≤ r') (text : List Char) :
    Below (readOps r text) (readOps r' text) := by
  fun_induction readOps r text with
  | case1 => exact .error _ _
  | case2 rest =>
    rw [readOps]
    exact .refl _
  | case3 => exact .error _ _
  | case4 text hnil hbrace op rest hop ih =>
    have hop' := readOp_below h _ _ hop
    have hmore : readOps r' text =
        (readOps r' (skipBlank rest)).map fun read => (op :: read.1, read.2) := by
      rw [readOps]
      · split <;> simp_all
      · exact hnil
      · exact hbrace
    rw [hmore]
    exact ih.map _

theorem readProgram_below (h : r ≤ r') (text : List Char) :
    Below (readProgram r text) (readProgram r' text) := by
  unfold readProgram
  split
  · exact .refl _
  · exact (Below.refl _).bind fun _ => readOps_below h _

/-- A whole text is read as its start is. -/
theorem parseWhole_below {α : Type} {read read' : List Char → Except Fault (α × List Char)}
    (h : ∀ text, Below (read text) (read' text)) (text : String) :
    Below (parseWhole read text) (parseWhole read' text) :=
  ((h _).bind fun _ => .refl _).mapError _

end Generic

/-! ### Assembly -/

namespace Assembly

variable {κ τ : Type} {r r' : Registry κ}

theorem requireOp_below (h : r ≤ r') (name : String) (code : List Char) :
    Below (requireOp r name code) (requireOp r' name code) := by
  unfold requireOp
  cases hkind : r.op? name with
  | none => exact .error _ _
  | some kind =>
    rw [Registry.op?_of_le h hkind]
    exact .refl _

theorem readDirective_below (h : r ≤ r') (code body : List Char) :
    Below (readDirective r code body) (readDirective r' code body) :=
  (requireOp_below h _ _).bind fun _ => .refl _

theorem readInstruction_below (h : r ≤ r') (code : List Char) :
    Below (readInstruction r code) (readInstruction r' code) := by
  unfold readInstruction
  split
  · exact .refl _
  · next mnemonic rest _ =>
    dsimp only
    cases hkind : r.op? (Opcode.dialectStem ++ String.ofList mnemonic) with
    | none => exact .error _ _
    | some kind =>
      rw [Registry.op?_of_le h hkind]
      exact .refl _

/-- Which kind of statement it is does not depend on the registry. -/
theorem readStatement_below (h : r ≤ r') (code : List Char) :
    Below (readStatement r code) (readStatement r' code) := by
  unfold readStatement
  split
  · exact (requireOp_below h _ _).bind fun _ => .refl _
  · split
    · exact (readDirective_below h _ _).map _
    · exact (readInstruction_below h _).map _

theorem readLine_below (h : r ≤ r') (start : Text.Position) (line : List Char) :
    Below (readLine r start line) (readLine r' start line) := by
  have hcode (code : List Char) : Below (readCode r code) (readCode r' code) :=
    (readStatement_below h code).bind fun _ => .refl _
  unfold readLine
  dsimp only
  split
  · exact .refl _
  · cases hread : readCode r (Text.trim (Text.uncommented line)) with
    | error fault => exact .error _ _
    | ok op =>
      rw [hcode _ op hread]
      exact .refl _

theorem readLines_below (h : r ≤ r') (start : Text.Position) (ls : List Text.Line) :
    Below (readLines r start ls) (readLines r' start ls) := by
  induction ls generalizing start with
  | nil => exact .refl _
  | cons line later ih =>
    exact (readLine_below h start line.content).bind fun _ => (ih _).bind fun _ => .refl _

/-! Registries for attributes of different kinds can know the same ops. -/

theorem readLine_congr {r : Registry κ} {r' : Registry τ} (h : ∀ name, r.op? name = r'.op? name)
    (start : Text.Position) (line : List Char) :
    readLine r start line = readLine r' start line := by
  simp only [readLine, readCode, readStatement, readDirective, readInstruction, requireOp, h]

theorem readLines_congr {r : Registry κ} {r' : Registry τ} (h : ∀ name, r.op? name = r'.op? name)
    (start : Text.Position) (ls : List Text.Line) :
    readLines r start ls = readLines r' start ls := by
  induction ls generalizing start with
  | nil => rfl
  | cons line later ih => simp only [readLines, readLine_congr h, ih]

end Assembly

/-! ### Whole texts -/

/-- What is read from a text with a registry is read from it with every larger one, and it is the
same. Assembly is read alike, be it with a result or with an error, with all registries that know
the same ops. -/
theorem parse_mono {κ : Type} [ParameterReader κ] (text : String) :
    (∀ r r' : Registry κ, r ≤ r' →
      (∀ p, Generic.parseProgram r text = .ok p → Generic.parseProgram r' text = .ok p) ∧
      (∀ op, Generic.parseOp r text = .ok op → Generic.parseOp r' text = .ok op) ∧
      (∀ value, Generic.parseAttribute r text = .ok value →
        Generic.parseAttribute r' text = .ok value) ∧
      (∀ p, Assembly.parse r text = .ok p → Assembly.parse r' text = .ok p)) ∧
    ∀ (r : Registry κ) (τ : Type) (r' : Registry τ), (∀ name, r.op? name = r'.op? name) →
      Assembly.parse r text = Assembly.parse r' text := by
  refine ⟨fun r r' h => ⟨?_, ?_, ?_, ?_⟩, fun r τ r' h => ?_⟩
  · exact Generic.parseWhole_below (Generic.readProgram_below h) text
  · exact Generic.parseWhole_below (Generic.readOp_below h) text
  · exact Generic.parseWhole_below (Generic.readAttribute_below h) text
  · exact Assembly.readLines_below h _ _
  · exact Assembly.readLines_congr h _ _

/-- Texts that use names of their own, read before and after the dialect is registered as well. The
last text is refused, also by a registry that has no kinds of attributes at all. -/
theorem parse_mono_dialect : ∃ r r' : Registry,
    r = Registry.empty.extend [.attr "reg" .register, .op "riscv.copy" (.instruction .mv)] ∧
    r' = r.extend Registry.dialect ∧ r ≤ r' ∧
    Generic.parseProgram r'
        "module \x7b \"riscv.copy\"() \x7b\"rd\" = !reg<a0>, \"rs\" = !reg<x11>\x7d \x7d" =
      .ok [.instruction ⟨.mv, .rdRs ⟨10⟩ ⟨11⟩, rfl⟩] ∧
    Generic.parseOp r' "\"riscv.copy\"() \x7b\"rs\" = !reg<a1>, \"rd\" = !reg<a0>\x7d" =
      .ok (.instruction ⟨.mv, .rdRs ⟨10⟩ ⟨11⟩, rfl⟩) ∧
    Generic.parseAttribute r' "!reg<t6> // last" = .ok (.register ⟨31⟩) ∧
    Assembly.parse r' "copy a0, x11" = .ok [.instruction ⟨.mv, .rdRs ⟨10⟩ ⟨11⟩, rfl⟩] ∧
    (∀ name, r.op? name = (⟨.empty, r.ops⟩ : Registry Empty).op? name) ∧
    Assembly.parse r "copy a0, x32" =
      Assembly.parse (⟨.empty, r.ops⟩ : Registry Empty) "copy a0, x32" := by
  refine ⟨_, _, rfl, rfl, Registry.le_extend _ _, ?_, ?_, ?_, ?_, fun _ => rfl, ?_⟩
  · exact ((parse_mono _).1 _ _ (Registry.le_extend _ _)).1 _ (by decide +kernel)
  · exact ((parse_mono _).1 _ _ (Registry.le_extend _ _)).2.1 _ (by decide +kernel)
  · exact ((parse_mono _).1 _ _ (Registry.le_extend _ _)).2.2.1 _ rfl
  · exact ((parse_mono _).1 _ _ (Registry.le_extend _ _)).2.2.2 _ rfl
  · exact (parse_mono _).2 _ _ _ fun _ => rfl

end RiscvDialect
