import RiscvDialect.Proofs.Assembly.Reading
import RiscvDialect.Proofs.Generic.Reading
import RiscvDialect.Proofs.Text.Comment
import RiscvDialect.Proofs.Text.Position

/-!
# Where failures are reported

A reader that fails gives back the part of its text that it could not read, and the report counts
how much of the text stands before this part. The count means something because the part is an end
of the text that the reader was given, and because this text, be it a whole text or the statement on
one of its lines, is a piece of the whole.

## Main definitions

* `ParseError.StandsIn`: a report that belongs to a text

## Main statements

* `ParseError.standsIn_report`: a failure in a piece of a text
* `Generic.standsIn_of_parseWhole`, `Assembly.standsIn_of_parse`: failures to read whole texts
* `standsIn_of_error`: all reports belong to their text
-/

namespace RiscvDialect

open Text

/-- A report that belongs to a text. Its place is between two characters of the text, with the bytes
in front of it, its line counted by the newlines and its column by the characters behind the last of
these. What was found there stands in the text at this place. -/
structure ParseError.StandsIn (e : ParseError) (text : String) : Prop where
  offset_le : e.position.offset ≤ text.utf8ByteSize
  isValid_offset : String.Pos.Raw.IsValid text ⟨e.position.offset⟩
  exists_before : ∃ before unread after : String, text = before ++ unread ++ after ∧
    e.position.offset = before.utf8ByteSize ∧
    e.position.line = 1 + before.toList.count '\n' ∧
    e.position.column = 1 + (before.toList.rtakeWhile (· ≠ '\n')).length ∧
    ∀ what found, e.problem = .expected what found → found = describeFound unread.toList

namespace ParseError

/-- A report that stands behind some text belongs to all texts that go on with what was found. -/
theorem standsIn_of_position {e : ParseError} {text : String} {before unread after : List Char}
    (hposition : e.position = Position.start.advance before)
    (htext : text.toList = before ++ (unread ++ after))
    (hfound : ∀ what found, e.problem = .expected what found → found = describeFound unread) :
    e.StandsIn text := by
  obtain rfl : text = String.ofList before ++ (String.ofList unread ++ String.ofList after) := by
    rw [← String.toList_inj]
    simpa using htext
  rw [Position.start_advance] at hposition
  refine ⟨?_, ?_, _, _, _, (String.append_assoc ..).symm, ?_⟩
  · rw [hposition, String.utf8ByteSize_append]
    exact Nat.le_add_right _ _
  · rw [hposition]
    exact isValid_utf8ByteSize _ _
  · simpa [hposition] using hfound

/-- A failure in a piece of a text is reported where the piece could not be read. -/
theorem standsIn_report {text : String} {before piece after : List Char} {fault : Fault}
    (htext : text.toList = before ++ (piece ++ after)) (h : fault.rest <:+ piece) :
    (fault.report (Position.start.advance before) piece).StandsIn text := by
  obtain ⟨read, rfl⟩ := h
  have htext' : text.toList = (before ++ read) ++ (fault.rest ++ after) := by simp [htext]
  refine standsIn_of_position ?_ htext' fun what found hproblem => ?_
  · simp [Fault.report]
  · unfold Fault.report at hproblem
    dsimp only at hproblem
    split at hproblem
    · cases hproblem
      rfl
    · cases hproblem
    · cases hproblem

/-- The wording of a report is that of its cause. -/
theorem message_eq_of_cause? {e : ParseError} {cause : DialectError} (h : e.cause? = some cause) :
    e.message = cause.message := by
  unfold cause? at h
  unfold message
  split at h
  · next hproblem =>
    cases h
    rw [hproblem]
  · simp at h

end ParseError

/-! ### Whole texts -/

variable {e : ParseError} {text : String}

theorem Generic.standsIn_of_parseWhole {α : Type}
    {read : List Char → Except Fault (α × List Char)}
    (hread : ∀ text, StaysIn text Prod.snd (read text)) (h : parseWhole read text = .error e) :
    e.StandsIn text := by
  obtain ⟨fault, hfault, rfl⟩ := exists_fault_of_parseWhole hread h
  have htext : text.toList = [] ++ (text.toList ++ []) := by simp
  exact ParseError.standsIn_report htext hfault

namespace Assembly

variable {registry : Registry}

/-- The statement on a line is a piece of the line, right after the white space at its start. -/
theorem exists_line_eq (line : List Char) : ∃ after, line =
    (uncommented line).takeWhile isSpace ++ (trim (uncommented line) ++ after) := by
  obtain ⟨comment, hcomment⟩ := isPrefix_uncommentedFrom .outside line
  obtain ⟨space, -, hbare⟩ := exists_trim_append (uncommented line)
  refine ⟨space ++ comment, ?_⟩
  calc line = uncommented line ++ comment := hcomment.symm
    _ = ((uncommented line).takeWhile isSpace ++ (trim (uncommented line) ++ space)) ++ comment :=
      congrArg (· ++ comment) hbare
    _ = _ := by simp only [List.append_assoc]

theorem standsIn_of_readLine {before line after : List Char}
    (htext : text.toList = before ++ (line ++ after))
    (h : readLine registry (Position.start.advance before) line = .error e) : e.StandsIn text := by
  unfold readLine at h
  dsimp only at h
  split at h
  · cases h
  · split at h
    · cases h
    · next fault hfault =>
      cases h
      have hstays := readCode_staysIn registry (trim (uncommented line))
      rw [hfault] at hstays
      obtain ⟨behind, hline⟩ := exists_line_eq line
      rw [hline, List.append_assoc, List.append_assoc, ← List.append_assoc before] at htext
      rw [← Position.advance_append]
      exact ParseError.standsIn_report htext hstays

theorem standsIn_of_readLines {before : List Char} {ls : List Line}
    (htext : text.toList = before ++ ls.flatMap Line.text)
    (h : readLines registry (Position.start.advance before) ls = .error e) : e.StandsIn text := by
  induction ls generalizing before with
  | nil => cases h
  | cons line later ih =>
    rw [List.flatMap_cons] at htext
    rw [readLines] at h
    obtain hline | ⟨op?, -, h⟩ := Except.bind_eq_error.1 h
    · rw [Line.text, List.append_assoc] at htext
      exact standsIn_of_readLine htext hline
    · obtain hlater | ⟨ops, -, h⟩ := Except.bind_eq_error.1 h
      · rw [← Position.advance_append] at hlater
        exact ih (by rw [htext, List.append_assoc]) hlater
      · cases h

theorem standsIn_of_parse (h : parse registry text = .error e) : e.StandsIn text := by
  have htext : text.toList = [] ++ (lines text.toList).flatMap Line.text := by simp
  exact standsIn_of_readLines htext h

end Assembly

/-! ### All reports -/

/-- Whatever text cannot be read, the report on it belongs to it, and says what its cause says. The
readers stay in the text that they are given, with any names that the registry knows. -/
theorem standsIn_of_error (registry : Registry) :
    (∀ text e, Generic.parseProgram registry text = .error e ∨
        Generic.parseOp registry text = .error e ∨
        Generic.parseAttribute registry text = .error e ∨
        Assembly.parse registry text = .error e →
      e.StandsIn text ∧ ∀ cause, e.cause? = some cause → e.message = cause.message) ∧
    ∀ text, StaysIn text Prod.snd (Generic.readProgram registry text) ∧
      StaysIn text Prod.snd (Generic.readOp registry text) ∧
      StaysIn text Prod.snd (Generic.readAttribute registry text) ∧
      StaysIn text Prod.snd (Assembly.readStatement registry text) := by
  refine ⟨fun text e h => ⟨?_, fun _ => ParseError.message_eq_of_cause?⟩, fun text =>
    ⟨Generic.readProgram_staysIn registry text, Generic.readOp_staysIn registry text,
      Generic.readAttribute_staysIn registry text, Assembly.readStatement_staysIn registry text⟩⟩
  rcases h with h | h | h | h
  · exact Generic.standsIn_of_parseWhole (Generic.readProgram_staysIn registry) h
  · exact Generic.standsIn_of_parseWhole (Generic.readOp_staysIn registry) h
  · exact Generic.standsIn_of_parseWhole (Generic.readAttribute_staysIn registry) h
  · exact Assembly.standsIn_of_parse h

/-- A colon on the second line, behind a comment with a character of two bytes, and an integer that
is too wide. -/
theorem standsIn_of_error_colon :
    (Assembly.parse .riscv "# é\r\n\t: x" = .error ⟨⟨7, 2, 2⟩, .expected "mnemonic" "': x'"⟩ ∧
      ParseError.StandsIn ⟨⟨7, 2, 2⟩, .expected "mnemonic" "': x'"⟩ "# é\r\n\t: x") ∧
    Generic.parseAttribute .riscv "\n0 : i65" = .error ⟨⟨5, 2, 5⟩, .refused (.integerWidth 65)⟩ ∧
      ParseError.StandsIn ⟨⟨5, 2, 5⟩, .refused (.integerWidth 65)⟩ "\n0 : i65" ∧
      ParseError.message ⟨⟨5, 2, 5⟩, .refused (.integerWidth 65)⟩ =
        DialectError.message (.integerWidth 65) := by
  have hcolon : Assembly.parse .riscv "# é\r\n\t: x" =
      .error ⟨⟨7, 2, 2⟩, .expected "mnemonic" "': x'"⟩ := by rfl
  have hwidth : Generic.parseAttribute .riscv "\n0 : i65" =
      .error ⟨⟨5, 2, 5⟩, .refused (.integerWidth 65)⟩ := by rfl
  have hreport := (standsIn_of_error .riscv).1 _ _ (.inr (.inr (.inl hwidth)))
  exact ⟨⟨hcolon, ((standsIn_of_error .riscv).1 _ _ (.inr (.inr (.inr hcolon)))).1⟩, hwidth,
    hreport.1, hreport.2 _ rfl⟩

end RiscvDialect
