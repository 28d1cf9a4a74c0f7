import RiscvDialect.Proofs.TestFile.Split

/-!
# Where the cases of a test file stand

The lines of a test file behind its header are cut into cases and lines between them. A case is a
program, blank lines and a run of lines of expectations. None of these needs to be well formed: a
program without its closing brace goes on to the last line, and a case may be without expectations.
Nevertheless, the cases follow each other without an overlap, and each line that starts with the
word for a module belongs to a program.

The places of the lines do not occur in the definition of the cases, which takes lines off a list.
They are found by following what is left of the list: it is always the lines from some place on.

## Main definitions

* `TestFile.Marked`: a line of expectations with its text
* `TestFile.Parts`: the parts of a case
* `TestFile.Span`: the places of the parts of a case
* `TestFile.Span.Holds`: a case is what stands in these places
* `TestFile.Segmentation`: the places of all cases

## Main statements

* `TestFile.closed_takeProgram`: where a program ends
* `TestFile.exists_parts`: the parts of a case that is taken off some lines
* `TestFile.Parts.holds`: the places of these parts
* `TestFile.exists_segmentation`: the places of the cases in the lines from some place on
* `TestFile.cases_segmentation`: the places of the cases of a file
-/

namespace RiscvDialect.TestFile

open Text

/-! ### Kinds of lines -/

theorem startsWith_iff {word : String} {line : List Char} :
    startsWith word line ↔ word.toList <+: trim line :=
  List.isPrefixOf_iff_prefix

/-- The text of a line behind its marker, which is a semicolon, or a semicolon and a space. White
space around the line does not count. -/
def Marked (line text : List Char) : Prop :=
  trim line = "; ".toList ++ text ∨ trim line = ';' :: text ∧ text.head? ≠ some ' '

theorem exists_trim_of_isExpectation {line : List Char} (h : isExpectation line) :
    ∃ text, trim line = ';' :: text := by
  obtain ⟨text, htext⟩ := startsWith_iff.1 h
  exact ⟨text, htext.symm⟩

/-- The text of a line of expectations is what stands behind the marker. -/
theorem marked_expectationText {line : List Char} (h : isExpectation line) :
    Marked line (expectationText line) := by
  obtain ⟨text, htext⟩ := exists_trim_of_isExpectation h
  rw [Marked, expectationText, htext]
  cases text with
  | nil => simp
  | cons c text =>
    by_cases hspace : c = ' '
    · simp [hspace]
    · simp [hspace]

theorem not_startsWith_module_of_isExpectation {line : List Char} (h : isExpectation line) :
    ¬ startsWith "module" line := by
  obtain ⟨text, htext⟩ := exists_trim_of_isExpectation h
  rw [startsWith_iff, htext]
  exact fun hmodule => absurd (List.cons_prefix_cons.1 hmodule).1 (by decide)

theorem not_startsWith_module_of_blank {line : List Char} (h : trim line = []) :
    ¬ startsWith "module" line := by
  rw [startsWith_iff, h]
  exact fun hmodule => absurd (List.prefix_nil.1 hmodule) (by decide)

/-! ### What is taken off the lines -/

/-- Some lines at whose end no brace is open, where `depth` braces are open before them, and the
last of which has a closing brace. -/
def ClosedAfter (depth : Int) (ls : List (List Char)) : Prop :=
  depth + openBraces ls ≤ 0 ∧ ∃ line ∈ ls.getLast?, '}' ∈ line

/-- A program ends with its last line if there are lines behind it. -/
theorem closed_takeProgram (depth : Int) (ls : List (List Char))
    (h : (takeProgram depth ls).2 ≠ []) : ClosedAfter depth (takeProgram depth ls).1 := by
  fun_induction takeProgram depth ls with
  | case1 => exact absurd rfl h
  | case2 depth line later after hend =>
    have hone : openBraces [line] = braceBalance line := Int.add_zero _
    exact ⟨by rw [hone]; exact hend.1, line, rfl, hend.2⟩
  | case3 depth line later after hopen program rest hcut ih =>
    rw [hcut] at ih
    obtain ⟨hclosed, last, hlast, hbrace⟩ := ih h
    refine ⟨by rwa [openBraces, ← Int.add_assoc], last, ?_, hbrace⟩
    rw [Option.mem_def] at hlast ⊢
    rw [List.getLast?_cons, hlast, Option.getD_some]

/-- The parts of a case, with the lines behind it: a program, blank lines and lines of expectations,
of each as many as there are. -/
structure Parts (program blank expected rest : List (List Char)) : Prop where
  startsWith_module : ∃ line ∈ program.head?, startsWith "module" line
  /-- The program does not end before its last line. -/
  openAfter : OpenAfter ('}' ∈ ·) 0 program
  /-- The program ends with its last line if there are lines behind it. -/
  closed : blank ++ (expected ++ rest) ≠ [] → ClosedAfter 0 program
  blank : ∀ line ∈ blank, trim line = []
  not_blank : ∀ line ∈ (expected ++ rest).head?, trim line ≠ []
  marked : ∀ line ∈ expected, isExpectation line
  not_isExpectation : ∀ line ∈ rest.head?, ¬ isExpectation line

/-- The parts of the case that is taken off some lines. -/
theorem exists_parts {line : List Char} (hmodule : startsWith "module" line)
    (later : List (List Char)) :
    let cut := takeProgram 0 (line :: later)
    ∃ blank expected rest, cut.2 = blank ++ (expected ++ rest) ∧
      takeExpected cut.2 = (expected.map expectationText, rest) ∧
      Parts cut.1 blank expected rest := by
  intro cut
  let isBlank : List Char → Bool := fun line => (trim line).isEmpty
  have hexpected := List.takeWhile_append_dropWhile (p := isExpectation)
    (l := cut.2.dropWhile isBlank)
  have hblank := List.takeWhile_append_dropWhile (p := isBlank) (l := cut.2)
  refine ⟨cut.2.takeWhile isBlank, (cut.2.dropWhile isBlank).takeWhile isExpectation,
    (cut.2.dropWhile isBlank).dropWhile isExpectation, by rw [hexpected, hblank], rfl, ?_⟩
  exact {
    startsWith_module := by
      obtain ⟨program, hprogram⟩ := exists_takeProgram_cons 0 line later
      exact ⟨line, by rw [hprogram]; rfl, hmodule⟩
    openAfter := openAfter_takeProgram 0 _
    closed := by
      rw [hexpected, hblank]
      exact closed_takeProgram 0 _
    blank := fun line hline => List.isEmpty_iff.1 (List.mem_takeWhile_imp (p := isBlank) hline)
    not_blank := by
      rw [hexpected]
      exact fun line hline hempty => not_of_mem_head?_dropWhile hline (List.isEmpty_iff.2 hempty)
    marked := fun line hline => List.mem_takeWhile_imp hline
    not_isExpectation := fun line hline => not_of_mem_head?_dropWhile hline }

/-! ### The places of a case -/

/-- The places of the parts of a case in some lines. Each part goes from one place up to the line
before the next. -/
structure Span where
  /-- The first line of the program. -/
  first : Nat
  /-- The first line behind the program. -/
  behind : Nat
  /-- The first line behind the blank lines that follow the program. -/
  marked : Nat
  /-- The first line behind the expectations. -/
  stop : Nat

namespace Span

/-- The lines of the program. -/
def program (span : Span) (lines : List (List Char)) : List (List Char) :=
  lines.extract span.first span.behind

/-- The blank lines behind the program. -/
def blank (span : Span) (lines : List (List Char)) : List (List Char) :=
  lines.extract span.behind span.marked

/-- The lines of expectations. -/
def expected (span : Span) (lines : List (List Char)) : List (List Char) :=
  lines.extract span.marked span.stop

/-- A case is what stands in some places. The program has at least one line, and no part goes beyond
the last of all lines. -/
structure Holds (lines : List (List Char)) (command : String) (span : Span) (test : TestCase) :
    Prop where
  first_lt_behind : span.first < span.behind
  behind_le_marked : span.behind ≤ span.marked
  marked_le_stop : span.marked ≤ span.stop
  stop_le_length : span.stop ≤ lines.length
  parts : Parts (span.program lines) (span.blank lines) (span.expected lines)
    (lines.drop span.stop)
  command_eq : test.command = command
  program_eq : test.program = joinLines (span.program lines)
  expected_eq : ∃ texts, List.Forall₂ Marked (span.expected lines) texts ∧
    test.expected = joinLines texts

end Span

section

variable {lines part rest program blank expected : List (List Char)} {line : List Char}
  {start stop i : Nat}

theorem extract_of_drop_eq (h : lines.drop start = part ++ rest) :
    lines.extract start (start + part.length) = part := by
  rw [List.extract_eq_take_drop, h, Nat.add_sub_cancel_left, List.take_left' rfl]

theorem drop_of_drop_eq (h : lines.drop start = part ++ rest) :
    lines.drop (start + part.length) = rest := by
  rw [← List.drop_drop, h, List.drop_left' rfl]

theorem mem_extract (hstart : start ≤ i) (hstop : i < stop) (hline : line ∈ lines[i]?) :
    line ∈ lines.extract start stop := by
  rw [List.extract_eq_take_drop, List.mem_iff_getElem?]
  refine ⟨i - start, ?_⟩
  rw [List.getElem?_take, if_pos (by omega), List.getElem?_drop, Nat.add_sub_cancel' hstart]
  exact hline

/-- What the lines are from some place on tells the places of the parts. -/
theorem Parts.holds (h : Parts program blank expected rest) (command : String)
    (hdrop : lines.drop start = program ++ (blank ++ (expected ++ rest))) :
    ∃ span : Span, span.first = start ∧ lines.drop span.stop = rest ∧
      span.Holds lines command
        ⟨command, joinLines program, joinLines (expected.map expectationText)⟩ := by
  let span : Span := ⟨start, start + program.length, start + program.length + blank.length,
    start + program.length + blank.length + expected.length⟩
  have hblank := drop_of_drop_eq hdrop
  have hexpected := drop_of_drop_eq hblank
  have hrest : lines.drop span.stop = rest := drop_of_drop_eq hexpected
  have hprogram : span.program lines = program := extract_of_drop_eq hdrop
  have hblanks : span.blank lines = blank := extract_of_drop_eq hblank
  have hexpecteds : span.expected lines = expected := extract_of_drop_eq hexpected
  obtain ⟨first, hfirst, -⟩ := h.startsWith_module
  have hpos : 0 < program.length := List.length_pos_iff.2 fun hnil => by simp [hnil] at hfirst
  have hlength := congrArg List.length hdrop
  simp only [List.length_append, List.length_drop] at hlength
  refine ⟨span, rfl, hrest, ?_⟩
  exact {
    first_lt_behind := Nat.lt_add_of_pos_right hpos
    behind_le_marked := Nat.le_add_right _ _
    marked_le_stop := Nat.le_add_right _ _
    stop_le_length := by
      change start + program.length + blank.length + expected.length ≤ lines.length
      omega
    parts := by rwa [hprogram, hblanks, hexpecteds, hrest]
    command_eq := rfl
    program_eq := by rw [hprogram]
    expected_eq := by
      refine ⟨expected.map expectationText, ?_, rfl⟩
      rw [hexpecteds, List.forall₂_map_right_iff, List.forall₂_same]
      exact fun line hline => marked_expectationText (h.marked line hline) }

/-- No program starts between the program of a case and the next case. -/
theorem Span.Holds.not_startsWith_module {command : String} {span : Span} {test : TestCase}
    (h : span.Holds lines command test) (hbehind : span.behind ≤ i) (hstop : i < span.stop)
    (hline : line ∈ lines[i]?) : ¬ startsWith "module" line := by
  by_cases hmarked : i < span.marked
  · exact not_startsWith_module_of_blank
      (h.parts.blank line (mem_extract hbehind hmarked hline))
  · exact not_startsWith_module_of_isExpectation
      (h.parts.marked line (mem_extract (by omega) hstop hline))

end

/-! ### The places of all cases -/

/-- The places of all cases from some place in some lines on. Cases do not overlap, and each line
that starts with the word for a module starts a case or is inside the program of a case. -/
structure Segmentation (lines : List (List Char)) (command : String) (start : Nat)
    (tests : List TestCase) (spans : List Span) : Prop where
  holds : List.Forall₂ (Span.Holds lines command) spans tests
  start_le : ∀ span ∈ spans, start ≤ span.first
  ordered : spans.Pairwise fun earlier later => earlier.stop ≤ later.first
  complete : ∀ i, start ≤ i → ∀ line ∈ lines[i]?, startsWith "module" line →
    ∃ span ∈ spans, span.first = i ∨ span.first < i ∧ i < span.behind

section

variable {lines : List (List Char)} {command : String} {start : Nat} {tests : List TestCase}
  {spans : List Span}

/-- There are no cases behind the last line. -/
theorem Segmentation.nil (h : lines.length ≤ start) : Segmentation lines command start [] [] where
  holds := .nil
  start_le := by simp
  ordered := .nil
  complete i hstart line hline := by
    rw [List.getElem?_eq_none (by omega)] at hline
    exact absurd hline (Option.not_mem_none line)

/-- A line that starts no program is passed. -/
theorem Segmentation.skip (h : Segmentation lines command (start + 1) tests spans)
    (hline : ∀ line ∈ lines[start]?, ¬ startsWith "module" line) :
    Segmentation lines command start tests spans where
  holds := h.holds
  start_le span hspan := (Nat.le_succ start).trans (h.start_le span hspan)
  ordered := h.ordered
  complete i hstart line hmem hmodule := by
    have hne : start ≠ i := fun heq => hline line (heq ▸ hmem) hmodule
    exact h.complete i (by omega) line hmem hmodule

/-- A case and the cases behind it. -/
theorem Segmentation.cons {span : Span} {test : TestCase} (hspan : span.Holds lines command test)
    (h : Segmentation lines command span.stop tests spans) :
    Segmentation lines command span.first (test :: tests) (span :: spans) where
  holds := .cons hspan h.holds
  start_le := by
    have := hspan.first_lt_behind
    have := hspan.behind_le_marked
    have := hspan.marked_le_stop
    refine List.forall_mem_cons.2 ⟨Nat.le_refl _, fun later hlater => ?_⟩
    have := h.start_le later hlater
    omega
  ordered := List.pairwise_cons.2 ⟨h.start_le, h.ordered⟩
  complete i hstart line hline hmodule := by
    by_cases hstop : span.stop ≤ i
    · obtain ⟨later, hlater, hplace⟩ := h.complete i hstop line hline hmodule
      exact ⟨later, List.mem_cons_of_mem span hlater, hplace⟩
    · have hbehind : i < span.behind := by
        by_contra hle
        exact hspan.not_startsWith_module (by omega) (by omega) hline hmodule
      exact ⟨span, List.mem_cons_self, by omega⟩

/-- The cases in the lines from some place on have their places there. -/
theorem exists_segmentation (lines : List (List Char)) (command : String) (ls : List (List Char)) :
    ∀ start, lines.drop start = ls →
      ∃ spans, Segmentation lines command start (casesFrom command ls) spans := by
  fun_induction casesFrom command ls with
  | case1 => exact fun start hdrop => ⟨[], .nil (List.drop_eq_nil_iff.1 hdrop)⟩
  | case2 line rest hmodule cut expected ih =>
    intro start hdrop
    obtain ⟨blank, marked, behind, hsplit, hexpected, hparts⟩ := exists_parts hmodule rest
    have hlines : lines.drop start = cut.1 ++ (blank ++ (marked ++ behind)) := by
      rw [hdrop, ← hsplit, takeProgram_append]
    obtain ⟨span, rfl, hbehind, hspan⟩ := hparts.holds command hlines
    have htaken : expected = (marked.map expectationText, behind) := hexpected
    rw [htaken] at ih ⊢
    obtain ⟨spans, hspans⟩ := ih span.stop hbehind
    exact ⟨span :: spans, .cons hspan hspans⟩
  | case3 line rest hmodule ih =>
    intro start hdrop
    have hline : lines.drop start = [line] ++ rest := hdrop
    obtain ⟨spans, hspans⟩ := ih (start + 1) (drop_of_drop_eq hline)
    refine ⟨spans, hspans.skip ?_⟩
    rw [← List.head?_drop, hdrop]
    rintro _ ⟨⟩
    exact hmodule

end

/-- A file without a header has no cases. Otherwise the kind of test is the first header, without
the white space around it, and the cases are in the lines behind it. Each has a place there: the
lines of its program, of which there is at least one, and behind blank lines the longest run of
lines of expectations. The places do not overlap, and each line that starts with the word for a
module starts a case or is inside the program of a case. -/
theorem cases_segmentation (content : String) :
    let lines := lineContents content.toList
    ((∀ line ∈ lines, ¬ startsWith "test " line) → cases content = []) ∧
    ∀ before header after, lines = before ++ header :: after →
      (∀ line ∈ before, ¬ startsWith "test " line) → startsWith "test " header →
      ∃ spans, Segmentation lines (String.ofList (trim header)) (before.length + 1)
        (cases content) spans := by
  intro lines
  refine ⟨fun hnone => ?_, fun before header after hlines hbefore hheader => ?_⟩
  · have hdrop : lines.dropWhile (fun line => !startsWith "test " line) = [] :=
      List.dropWhile_eq_nil_iff.2 fun line hline => by simpa using hnone line hline
    rw [cases, hdrop]
  · have hdrop : lines.dropWhile (fun line => !startsWith "test " line) = header :: after := by
      rw [hlines, List.dropWhile_append_of_pos fun line hline => by simpa using hbefore line hline,
        List.dropWhile_cons_of_neg (by simpa using hheader)]
    have hafter : lines.drop (before.length + 1) = after := by
      rw [hlines, ← List.drop_drop, List.drop_left, List.drop_one, List.tail_cons]
    rw [cases, hdrop]
    exact exists_segmentation lines _ after _ hafter

/-- A program whose last closing brace is missing takes the expectations behind it for lines of its
own. -/
theorem cases_segmentation_unclosed :
    let text := "; none\n test cat \nmodule \x7b\n\x7d\n\n;a\n; b\n\n; c\nmodule \x7b\n; d"
    cases "module \x7b\n\x7d" = [] ∧
      ∃ spans, Segmentation (lineContents text.toList) "test cat" 2 (cases text) spans :=
  ⟨(cases_segmentation _).1 (by decide),
    (cases_segmentation _).2 ["; none".toList] " test cat ".toList
      ["module \x7b".toList, ['}'], [], ";a".toList, "; b".toList, [], "; c".toList,
        "module \x7b".toList, "; d".toList] (by decide) (by decide) (by decide)⟩

end RiscvDialect.TestFile
