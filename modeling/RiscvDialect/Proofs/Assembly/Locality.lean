import RiscvDialect.Proofs.Assembly.Lines

/-!
# Lines are read one by one

Nothing that is read on one line matters to the next. A text of assembly means what its lines mean
as texts of their own, and if a line fails as a text of its own, the text fails as the first such
line does. The report differs in its place only: the lines before are added to the line number, and
their bytes to the offset. Columns are counted in the line anyway.

This holds for every registry, whatever kinds of attributes it is for, since all lines are read with
the same one.

## Main definitions

* `ParseError.onLine`: a report on a line, as one on the text that the line is part of

## Main statements

* `readLine_of_parse_eq_ok`, `readLine_of_parse_eq_error`: a line of a text and a line alone
* `parse_eq_of_lines`: a text and its lines
-/

namespace RiscvDialect

open Text

/-- The report on a line that was read alone, moved to where the line stands in a text. -/
def ParseError.onLine (offset line : Nat) (e : ParseError) : ParseError :=
  { e with position := ⟨offset + e.position.offset, line, e.position.column⟩ }

/-- Where a text starts does not matter to what is wrong with it. Up to the fault it has to be on
one line. -/
theorem Fault.report_onLine {space code : List Char} (hspace : '\n' ∉ space) (hcode : '\n' ∉ code)
    (fault : Fault) (offset line : Nat) :
    fault.report ((⟨offset, line, 1⟩ : Position).advance space) code =
      (fault.report (Position.start.advance space) code).onLine offset line := by
  have hread : '\n' ∉ code.take (code.length - fault.rest.length) :=
    fun h => hcode (List.mem_of_mem_take h)
  simp only [Fault.report, ParseError.onLine, advance_of_notMem_newline hspace,
    advance_of_notMem_newline hread, Position.start, Nat.zero_add, Nat.add_assoc]

namespace Assembly

variable {κ : Type} {registry : Registry κ} {content : List Char}

/-! ### One line -/

/-- A line is read in the same way wherever it starts. -/
theorem readLine_onLine (hcontent : '\n' ∉ content) (offset line : Nat) :
    readLine registry ⟨offset, line, 1⟩ content =
      (readLine registry .start content).mapError (ParseError.onLine offset line) := by
  have hbare : '\n' ∉ uncommented content :=
    fun h => hcontent ((isPrefix_uncommentedFrom _ _).subset h)
  have hspace : '\n' ∉ (uncommented content).takeWhile isSpace :=
    fun h => hbare ((List.takeWhile_prefix _).subset h)
  have hcode : '\n' ∉ trim (uncommented content) :=
    fun h => hbare ((trimStart_suffix _).subset ((isPrefix_trimEnd _).subset h))
  unfold readLine
  dsimp only
  split
  · rfl
  · split
    · rfl
    · next fault _ =>
      rw [Fault.report_onLine hspace hcode]
      rfl

/-- A line that is a text of its own. -/
theorem parse_ofList (hcontent : '\n' ∉ content) :
    parse registry (String.ofList content) =
      (readLine registry .start content).map Option.toList := by
  rw [parse, String.toList_ofList]
  by_cases hne : content = []
  · rw [hne]
    rfl
  · rw [lines_of_notMem_newline hne hcontent, readLines]
    cases readLine registry .start content <;>
      simp [readLines, bind, Except.bind, Except.map, pure, Except.pure]

theorem readLine_of_parse_eq_ok (hcontent : '\n' ∉ content) {p : Program}
    (h : parse registry (String.ofList content) = .ok p) (offset line : Nat) :
    ∃ op?, readLine registry ⟨offset, line, 1⟩ content = .ok op? ∧ op?.toList = p := by
  rw [parse_ofList hcontent, Except.map_eq_ok] at h
  obtain ⟨op?, hread, hp⟩ := h
  exact ⟨op?, by rw [readLine_onLine hcontent, hread]; rfl, hp⟩

theorem readLine_of_parse_eq_error (hcontent : '\n' ∉ content) {e : ParseError}
    (h : parse registry (String.ofList content) = .error e) (offset line : Nat) :
    readLine registry ⟨offset, line, 1⟩ content = .error (e.onLine offset line) := by
  rw [parse_ofList hcontent] at h
  rw [readLine_onLine hcontent]
  cases hread : readLine registry .start content with
  | ok op? =>
    rw [hread] at h
    cases h
  | error e' =>
    rw [hread] at h
    cases h
    rfl

/-! ### All lines -/

/-- The bytes of some lines with their endings. -/
def byteLength (ls : List Line) : Nat :=
  (String.ofList (ls.flatMap Line.text)).utf8ByteSize

theorem byteLength_cons (line : Line) (ls : List Line) :
    byteLength (line :: ls) = (String.ofList line.text).utf8ByteSize + byteLength ls := by
  simp [byteLength, String.utf8ByteSize_append]

/-- A line that is read leaves nothing behind but the start of the next line. -/
theorem readLines_cons {ending : List Char} (hcontent : '\n' ∉ content)
    (hending : ending = ['\n'] ∨ ending = ['\r', '\n']) {p : Program}
    (h : parse registry (String.ofList content) = .ok p) (offset line : Nat) (later : List Line) :
    readLines registry ⟨offset, line, 1⟩ (⟨content, ending⟩ :: later) =
      (readLines registry
        ⟨offset + (String.ofList (Line.text ⟨content, ending⟩)).utf8ByteSize, line + 1, 1⟩
        later).map (p ++ ·) := by
  obtain ⟨op?, hread, rfl⟩ := readLine_of_parse_eq_ok hcontent h offset line
  simp only [readLines, hread, advance_line hcontent hending, bind, Except.bind, pure, Except.pure]
  rfl

theorem readLines_of_forall_ok {ls : List Line} (hls : Lined ls) {programs : List Program}
    (h : List.Forall₂ (fun line p => parse registry (String.ofList line.content) = .ok p) ls
      programs) (offset line : Nat) :
    readLines registry ⟨offset, line, 1⟩ ls = .ok programs.flatten := by
  induction hls generalizing programs offset line with
  | nil =>
    cases h
    rfl
  | last hne hcontent =>
    obtain ⟨p, _, hp, hnil, rfl⟩ := List.forall₂_cons_left_iff.1 h
    cases hnil
    obtain ⟨op?, hread, rfl⟩ := readLine_of_parse_eq_ok hcontent hp offset line
    simp [readLines, hread, bind, Except.bind, pure, Except.pure]
  | ended hcontent hending hlater ih =>
    obtain ⟨p, later, hp, hprograms, rfl⟩ := List.forall₂_cons_left_iff.1 h
    rw [readLines_cons hcontent hending hp, ih hprograms]
    rfl

theorem readLines_of_error {before after : List Line} {failing : Line} {e : ParseError}
    (hls : Lined (before ++ failing :: after))
    (hbefore : ∀ line ∈ before, ∃ p, parse registry (String.ofList line.content) = .ok p)
    (h : parse registry (String.ofList failing.content) = .error e) (offset line : Nat) :
    readLines registry ⟨offset, line, 1⟩ (before ++ failing :: after) =
      .error (e.onLine (offset + byteLength before) (line + before.length)) := by
  induction before generalizing offset line with
  | nil =>
    have hfailing : '\n' ∉ failing.content := by
      cases hls <;> assumption
    rw [List.nil_append, readLines, readLine_of_parse_eq_error hfailing h]
    rfl
  | cons first before ih =>
    rw [List.forall_mem_cons] at hbefore
    obtain ⟨⟨p, hp⟩, hbefore⟩ := hbefore
    rw [List.cons_append] at hls
    generalize hlater : before ++ failing :: after = later at hls
    cases hls with
    | last => simp at hlater
    | ended hcontent hending hls =>
      rw [List.cons_append, hlater, readLines_cons hcontent hending hp, ← hlater,
        ih (hlater ▸ hls) hbefore, byteLength_cons, List.length_cons, Nat.add_assoc,
        Nat.add_comm before.length 1, Nat.add_assoc]
      rfl

/-- If not all lines are read, there is a first one that is not. -/
theorem exists_first_error {ls : List Line} (h : ∃ line ∈ ls.map Line.content,
    ∀ p, parse registry (String.ofList line) ≠ .ok p) :
    ∃ before failing after e, ls = before ++ failing :: after ∧
      (∀ line ∈ before, ∃ p, parse registry (String.ofList line.content) = .ok p) ∧
      parse registry (String.ofList failing.content) = .error e := by
  induction ls with
  | nil => simp at h
  | cons line later ih =>
    cases hparse : parse registry (String.ofList line.content) with
    | error e => exact ⟨[], line, later, e, rfl, by simp, hparse⟩
    | ok p =>
      rw [List.map_cons, List.exists_mem_cons_iff] at h
      have hlater := h.resolve_left fun hnot => hnot p hparse
      obtain ⟨before, failing, after, e, rfl, hbefore, he⟩ := ih hlater
      exact ⟨line :: before, failing, after, e, rfl,
        List.forall_mem_cons.2 ⟨⟨p, hparse⟩, hbefore⟩, he⟩

/-- A text is read as its lines are, one after the other. If they are all read, so is the text, and
its program is that of its lines in their order. If not, the text fails as the first line does that
is not read: the problem and the column are those of the line alone, the line is counted in the
text, and the bytes of the lines before it are added to the offset. -/
theorem parse_eq_of_lines (registry : Registry κ) (text : String) :
    (∀ programs, List.Forall₂ (fun line p => parse registry (String.ofList line) = .ok p)
      (lineContents text.toList) programs → parse registry text = .ok programs.flatten) ∧
    ((∃ line ∈ lineContents text.toList, ∀ p, parse registry (String.ofList line) ≠ .ok p) →
      ∃ before failing after e e', lines text.toList = before ++ failing :: after ∧
        (∀ line ∈ before, ∃ p, parse registry (String.ofList line.content) = .ok p) ∧
        parse registry (String.ofList failing.content) = .error e ∧
        parse registry text = .error e' ∧ e'.message = e.message ∧ e'.cause? = e.cause? ∧
        e'.position = ⟨byteLength before + e.position.offset, before.length + 1,
          e.position.column⟩) := by
  have hls := lined_lines text.toList
  constructor
  · intro programs h
    rw [lineContents, List.forall₂_map_left_iff] at h
    exact readLines_of_forall_ok hls h 0 1
  · intro h
    obtain ⟨before, failing, after, e, hlines, hbefore, he⟩ := exists_first_error h
    refine ⟨before, failing, after, e, e.onLine (byteLength before) (before.length + 1), hlines,
      hbefore, he, ?_, rfl, rfl, rfl⟩
    rw [hlines] at hls
    have hread := readLines_of_error hls hbefore he 0 1
    rw [Nat.zero_add, Nat.add_comm 1] at hread
    rw [parse, hlines]
    exact hread

/-- Two comments, and a line that starts with a colon behind a third one. -/
theorem parse_eq_of_lines_comments :
    parse .riscv "# é\r\n\t# ,\n" = .ok [] ∧ ∃ e, parse .riscv "# é\n\t: x" = .error e := by
  refine ⟨(parse_eq_of_lines .riscv _).1 [[], []] (.cons rfl (.cons rfl .nil)), ?_⟩
  have hcolon (p : Program) : parse .riscv "\t: x" ≠ .ok p := by
    intro h
    have herror : ¬ (parse .riscv "\t: x").isOk := by decide
    rw [h] at herror
    exact herror rfl
  obtain ⟨_, _, _, _, e, _, _, _, h, _⟩ := (parse_eq_of_lines .riscv "# é\n\t: x").2
    ⟨"\t: x".toList, by decide, hcolon⟩
  exact ⟨e, h⟩

end Assembly

end RiscvDialect
