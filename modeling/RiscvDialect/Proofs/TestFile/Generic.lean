import RiscvDialect.Proofs.Assembly.RoundTrip
import RiscvDialect.Proofs.Generic.RoundTrip
import RiscvDialect.TestFile

/-!
# Generic texts, line by line

A program in the generic format has a line for the opening of the module, one for each op, and one
for the closing brace. The lines of ops keep the braces balanced whatever their strings hold: braces
in quotes do not count, and a quote or a backslash inside a string is escaped, so that the scan for
quotes stays in step. A newline inside a string is escaped, too. So no brace and no line of a string
is taken for one of the program.

## Main definitions

* `TestFile.Inert`: a part of a line that the scan for braces passes over
* `TestFile.moduleLines`: the lines of a program

## Main statements

* `TestFile.braceBalance_of_stringBody`: strings do not matter to the count of braces
* `TestFile.inert_generic`: the text of an op is passed over
* `TestFile.lineContents_generic`, `TestFile.joinLines_moduleLines`: a program is its lines
-/

namespace RiscvDialect.TestFile

open Text Generic

/-! ### Braces -/

theorem braceBalance_open (text : List Char) :
    braceBalance ('{' :: text) = braceBalance text + 1 := by
  simp [braceBalance, unquoted, unquotedFrom, QuoteState.step]
  omega

theorem braceBalance_close (text : List Char) :
    braceBalance ('}' :: text) = braceBalance text - 1 := by
  simp [braceBalance, unquoted, unquotedFrom, QuoteState.step]
  omega

theorem braceBalance_append_of_forall_ne {part : List Char}
    (h : ∀ c ∈ part, c ≠ '"' ∧ c ≠ '{' ∧ c ≠ '}') (text : List Char) :
    braceBalance (part ++ text) = braceBalance text := by
  induction part with
  | nil => rfl
  | cons c part ih =>
    rw [List.forall_mem_cons] at h
    obtain ⟨⟨hquote, hopen, hclose⟩, hpart⟩ := h
    rw [← ih hpart]
    simp [braceBalance, unquoted, unquotedFrom, QuoteState.step, hquote, hopen, hclose]

/-- After a string, a scan is outside of all quotes again. -/
theorem unquotedFrom_of_stringBody {text value rest : List Char}
    (h : Grammar.StringBody text value rest) :
    unquotedFrom .inside text = unquotedFrom .outside rest := by
  induction h with
  | close rest => simp [unquotedFrom, QuoteState.step]
  | plain hquote hbackslash _ ih =>
    simpa [unquotedFrom, QuoteState.step, hquote, hbackslash] using ih
  | escape _ _ ih => simpa [unquotedFrom, QuoteState.step] using ih

/-- A string in quotes does not matter to the balance of braces. -/
theorem braceBalance_of_stringBody {text value rest : List Char}
    (h : Grammar.StringBody text value rest) :
    braceBalance ('"' :: text) = braceBalance rest := by
  have hquote : unquoted ('"' :: text) = '"' :: unquoted rest := by
    rw [unquoted, unquoted, ← unquotedFrom_of_stringBody h]
    rfl
  rw [braceBalance, hquote]
  rfl

/-! ### Parts of lines -/

/-- A part of a line that the scan for braces passes over: it leaves as many braces open as before,
and is outside of all quotes again. -/
structure Inert (part : List Char) : Prop where
  newline_notMem : '\n' ∉ part
  braceBalance_append : ∀ text, braceBalance (part ++ text) = braceBalance text

variable {part later : List Char}

theorem inert_of_forall_ne (h : ∀ c ∈ part, c ≠ '\n' ∧ c ≠ '"' ∧ c ≠ '{' ∧ c ≠ '}') :
    Inert part where
  newline_notMem hmem := (h _ hmem).1 rfl
  braceBalance_append := braceBalance_append_of_forall_ne fun c hc => (h c hc).2

theorem inert_of_isOperandChar (h : ∀ c ∈ part, Assembly.IsOperandChar c) : Inert part := by
  refine inert_of_forall_ne fun c hc => ?_
  have hchar := h c hc
  refine ⟨?_, ?_, ?_, ?_⟩ <;> rintro rfl <;> exact absurd hchar (by decide)

theorem Inert.append (h : Inert part) (hlater : Inert later) : Inert (part ++ later) where
  newline_notMem := by simp [h.newline_notMem, hlater.newline_notMem]
  braceBalance_append text := by
    rw [List.append_assoc, h.braceBalance_append, hlater.braceBalance_append]

theorem Inert.braces (h : Inert part) : Inert ('{' :: (part ++ ['}'])) where
  newline_notMem := by simp [h.newline_notMem]
  braceBalance_append text := by
    rw [List.cons_append, List.append_assoc, braceBalance_open, h.braceBalance_append,
      List.singleton_append, braceBalance_close]
    omega

theorem newline_notMem_escapeChar (c : Char) : '\n' ∉ escapeChar c := by
  unfold escapeChar
  split_ifs with hquote hbackslash hnewline
  · decide
  · decide
  · decide
  · decide
  · simpa using Ne.symm hnewline

theorem inert_quote (s : String) : Inert (quote s).toList where
  newline_notMem := by
    simp [quote, newline_notMem_escapeChar]
  braceBalance_append text := by
    have hbody := Grammar.stringBody_flatMap_escapeChar s.toList text
    simpa [quote] using braceBalance_of_stringBody hbody

theorem inert_intercalate {texts : List String} (h : ∀ text ∈ texts, Inert text.toList) :
    Inert (", ".intercalate texts).toList := by
  induction texts with
  | nil => exact inert_of_forall_ne (by simp)
  | cons text later ih =>
    rw [List.forall_mem_cons] at h
    cases later with
    | nil => simpa using h.1
    | cons next later =>
      rw [String.intercalate_cons_cons, String.toList_append, String.toList_append]
      exact (h.1.append (inert_of_forall_ne (by simp))).append (ih h.2)

/-! ### Ops -/

theorem inert_parameter (kind : ParameterKind) {parameter : String} (h : Inert parameter.toList) :
    Inert ("!" ++ kind.name ++ ParameterKind.bracket parameter).toList := by
  have hname : Inert kind.name.toList := by
    cases kind <;> exact inert_of_forall_ne (by simp [ParameterKind.name])
  simp only [ParameterKind.bracket, String.toList_append]
  exact ((inert_of_forall_ne (by simp)).append hname).append
    (((inert_of_forall_ne (by simp)).append h).append (inert_of_forall_ne (by simp)))

theorem inert_toString_int (i : Int) : Inert (toString i).toList :=
  inert_of_isOperandChar fun _ => Assembly.isOperandChar_of_mem_toString

theorem inert_generic_attribute (value : Attribute) : Inert value.generic.toList := by
  cases value with
  | register r =>
    have hname : Inert (RegisterStyle.write .abi r).toList :=
      inert_of_isOperandChar fun _ => Assembly.isOperandChar_of_mem_write
    exact inert_parameter .register hname
  | label l =>
    exact inert_parameter .label
      (inert_of_isOperandChar fun _ hc => .inl (isSymbolChar_of_mem l.isSymbol_name hc))
  | integer i =>
    simp only [Attribute.generic, SizedInt.generic, String.toList_append]
    exact ((inert_toString_int _).append (inert_of_forall_ne (by simp))).append
      (inert_toString_int i.width)
  | string s => exact inert_quote s

theorem inert_entryText (entry : String × Attribute) :
    Inert (Dictionary.entryText entry).toList := by
  simp only [Dictionary.entryText, String.toList_append]
  exact ((inert_quote entry.1).append (inert_of_forall_ne (by simp))).append
    (inert_generic_attribute entry.2)

theorem inert_generic_dictionary (entries : Dictionary) :
    Inert (Dictionary.generic entries).toList := by
  have hentries : Inert (", ".intercalate (entries.map Dictionary.entryText)).toList := by
    refine inert_intercalate fun text htext => ?_
    obtain ⟨entry, -, rfl⟩ := List.mem_map.1 htext
    exact inert_entryText entry
  simpa [Dictionary.generic] using hentries.braces

theorem inert_generic (op : Op) : Inert op.generic.toList := by
  rw [Op.generic, String.toList_append, String.toList_append]
  refine ((inert_quote op.name).append (inert_of_forall_ne (by simp))).append ?_
  split
  · exact inert_of_forall_ne (by simp)
  · rw [String.toList_append]
    exact (inert_of_forall_ne (by simp)).append (inert_generic_dictionary op.attributes)

theorem endsSolid_generic (op : Op) : Assembly.EndsSolid op.generic.toList := by
  rw [Op.generic]
  split
  · exact ⟨(quote op.name).toList ++ ['('], ')', by simp, by decide⟩
  · have hend : Assembly.EndsSolid (Dictionary.generic op.attributes).toList :=
      ⟨_, '}', by rw [Dictionary.generic, String.toList_append]; rfl, by decide⟩
    simp only [String.toList_append]
    exact (hend.append _).append _

/-! ### Programs -/

/-- The line of an op. -/
def opLine (op : Op) : List Char :=
  ' ' :: ' ' :: op.generic.toList

/-- The lines of a program. -/
def moduleLines (p : Program) : List (List Char) :=
  "module \x7b".toList :: p.map opLine ++ [['}']]

theorem inert_opLine (op : Op) : Inert (opLine op) := by
  have hindent : Inert [' ', ' '] := inert_of_forall_ne (by simp)
  exact hindent.append (inert_generic op)

/-- The lines of a program hold no newline, and end where they seem to. -/
theorem moduleLines_intact {p : Program} {line : List Char} (h : line ∈ moduleLines p) :
    '\n' ∉ line ∧ Assembly.EndsSolid line := by
  rw [moduleLines, List.mem_append, List.mem_cons, List.mem_map, List.mem_singleton] at h
  rcases h with (rfl | ⟨op, -, rfl⟩) | rfl
  · exact ⟨by decide, "module ".toList, '{', rfl, by decide⟩
  · exact ⟨(inert_opLine op).newline_notMem, (endsSolid_generic op).append [' ', ' ']⟩
  · exact ⟨by decide, [], '}', rfl, by decide⟩

theorem toList_generic (p : Program) :
    p.generic.toList = endLines ("module \x7b".toList :: p.map opLine) ++ ['}'] := by
  simp [Program.generic, endLines, String.toList_join, List.flatMap_map, opLine]

theorem lineContents_generic (p : Program) : lineContents p.generic.toList = moduleLines p := by
  rw [toList_generic, lineContents_endLines_append fun line hline => ?_]
  · rfl
  · have h := moduleLines_intact (List.mem_append_left _ hline)
    exact ⟨h.1, h.2.stops_reverse⟩

/-- Some lines, each behind a newline. -/
def behindNewlines (ls : List (List Char)) : List Char :=
  ls.flatMap fun line => '\n' :: line

/-- All lines but the first stand behind newlines. -/
theorem toList_joinLines_cons (line : List Char) (later : List (List Char)) :
    (joinLines (line :: later)).toList = line ++ behindNewlines later := by
  induction later generalizing line with
  | nil => simp [joinLines, behindNewlines]
  | cons next later ih =>
    have hnext := ih next
    rw [joinLines, List.map_cons] at hnext
    rw [joinLines, List.map_cons, List.map_cons, String.intercalate_cons_cons, String.toList_append,
      hnext]
    simp [behindNewlines]

theorem joinLines_append_singleton (ls : List (List Char)) (last : List Char) :
    joinLines (ls ++ [last]) = String.ofList (endLines ls ++ last) := by
  induction ls with
  | nil => simp [joinLines]
  | cons line ls ih =>
    obtain ⟨next, later, hlater⟩ := List.exists_cons_of_ne_nil (List.append_ne_nil_of_right_ne_nil
      ls (List.cons_ne_nil last []))
    rw [joinLines, hlater] at ih
    rw [joinLines, List.cons_append, hlater, List.map_cons, List.map_cons,
      String.intercalate_cons_cons, ← List.map_cons, ih, endLines_cons]
    simp [String.ofList_append, String.append_assoc]

theorem joinLines_moduleLines (p : Program) : joinLines (moduleLines p) = p.generic := by
  rw [moduleLines, joinLines_append_singleton, ← toList_generic, String.ofList_toList]

/-! ### Files -/

/-- The cases of a file are in the lines after its header. -/
theorem cases_of_lineContents {content : String} {later : List (List Char)}
    (h : lineContents content.toList = "test cat".toList :: later) :
    cases content = casesFrom "test cat" later := by
  have hcommand : String.ofList (trim "test cat".toList) = "test cat" := by decide
  rw [cases, h, List.dropWhile_cons_of_neg (by decide)]
  dsimp only
  rw [hcommand]

end RiscvDialect.TestFile
