import RiscvDialect.Proofs.Generic.RoundTrip
import RiscvDialect.Proofs.Generic.Tokens
import RiscvDialect.Proofs.TestFile.Generic
import RiscvDialect.TestFile.Run

/-!
# Normalized program texts

A program text is normalized to its lines without the white space around them and without those that
are empty then. White space of any kind is removed, but what is removed at the ends of lines is
either blank or part of a comment: tokens stay on their lines and have no white space at their ends,
and a comment ends with its line. So the tokens are spread over the normalized text as they were
before, and the program is the same.

To see this, the text is normalized from its end to its start. What is left of a part of the text
then depends on this part only, up to the white space at the start of the line on which it starts.

## Main definitions

* `tidy`: a part of a text, normalized up to its start
* `normalLines`: the lines of a normalized text

## Main statements

* `trimStart_tidy`: normalizing from the end
* `Generic.Grammar.blank_tidy`, `Generic.Grammar.spread_tidy`: tokens stay where they are
* `normalizeProgramText_preserves`: a normalized text has the same program
-/

namespace RiscvDialect

open Text TestFile

/-! ### Normalizing from the end -/

/-- Nothing more stands on the line on which the text starts. -/
def endsLine (text : List Char) : Bool :=
  text.head?.all (· == '\n')

/-- A part of a text without the white space around its lines and without its empty lines. The white
space at its start stays, since its first line may start before it. -/
def tidy : List Char → List Char
  | [] => []
  | c :: text =>
    let rest := tidy text
    if c = '\n' then
      if trimStart rest = [] then [] else '\n' :: trimStart rest
    else if isSpace c ∧ endsLine rest then rest
    else c :: rest

theorem endsLine_iff {text : List Char} : endsLine text ↔ ∀ c ∈ text.head?, c = '\n' := by
  cases text <;> simp [endsLine]

theorem tidy_newline (text : List Char) : tidy ('\n' :: text) =
    if trimStart (tidy text) = [] then [] else '\n' :: trimStart (tidy text) := by
  rw [tidy, if_pos rfl]

theorem tidy_cons {c : Char} (hc : c ≠ '\n') (text : List Char) : tidy (c :: text) =
    if isSpace c ∧ endsLine (tidy text) then tidy text else c :: tidy text := by
  rw [tidy, if_neg hc]

theorem tidy_cons_of_not_isSpace {c : Char} (hc : isSpace c = false) (text : List Char) :
    tidy (c :: text) = c :: tidy text := by
  have hnewline : c ≠ '\n' := by rintro rfl; exact absurd hc (by decide)
  rw [tidy_cons hnewline, if_neg (by simp [hc])]

theorem endsLine_tidy_newline (text : List Char) : endsLine (tidy ('\n' :: text)) := by
  rw [tidy_newline]
  split <;> simp [endsLine]

/-! ### Lines -/

/-- The lines that are left of some lines when a text is normalized. -/
def normalLines (ls : List (List Char)) : List (List Char) :=
  (ls.map trim).filter (!·.isEmpty)

theorem normalLines_cons (line : List Char) (later : List (List Char)) :
    normalLines (line :: later) =
      if trim line = [] then normalLines later else trim line :: normalLines later := by
  by_cases h : trim line = [] <;> simp [normalLines, h]

/-- The lines that are left are not empty and lose nothing more. -/
theorem trim_of_mem_normalLines {ls : List (List Char)} {line : List Char}
    (h : line ∈ normalLines ls) : line ≠ [] ∧ trim line = line ∧ ∃ l ∈ ls, line = trim l := by
  obtain ⟨hmem, hne⟩ := List.mem_filter.1 h
  obtain ⟨l, hl, rfl⟩ := List.mem_map.1 hmem
  exact ⟨by simpa using hne, trim_trim l, l, hl, rfl⟩

/-- Lines that are not empty stand behind newlines if there are any. -/
theorem behindNewlines_normalLines (ls : List (List Char)) :
    behindNewlines (normalLines ls) =
      if (joinLines (normalLines ls)).toList = [] then []
      else '\n' :: (joinLines (normalLines ls)).toList := by
  cases hls : normalLines ls with
  | nil => rfl
  | cons line later =>
    have hne := (trim_of_mem_normalLines (hls ▸ List.mem_cons_self)).1
    rw [toList_joinLines_cons, if_neg (by simp [hne])]
    simp [behindNewlines]

/-- What is left of a text, as of its lines. Only the first line keeps the white space at its
start. -/
def tidyLines : List (List Char) → List Char
  | [] => []
  | line :: later => trimEnd line ++ behindNewlines (normalLines later)

/-- The first line that is left starts where the white space at the start of the text ends. -/
theorem trimStart_tidyLines (ls : List (List Char)) :
    trimStart (tidyLines ls) = (joinLines (normalLines ls)).toList := by
  cases ls with
  | nil => rfl
  | cons line later =>
    rw [tidyLines, normalLines_cons]
    split
    · next h =>
      rw [trim_eq_nil_iff.1 h, List.nil_append]
      cases hlater : normalLines later with
      | nil => rfl
      | cons next rest =>
        have hmem : next ∈ normalLines later := hlater ▸ List.mem_cons_self
        obtain ⟨hne, htrim, -⟩ := trim_of_mem_normalLines hmem
        have hstart : Stops isSpace (next ++ behindNewlines rest) :=
          (stops_append_of_ne_nil hne).2 (trim_eq_self_iff.1 htrim).1
        have hnewline : isSpace '\n' := by decide
        rw [toList_joinLines_cons, ← dropWhile_of_stops hstart]
        exact List.dropWhile_cons_of_pos hnewline
    · next h =>
      rw [← trimStart_trimEnd] at h ⊢
      rw [toList_joinLines_cons, trimStart, List.dropWhile_append,
        if_neg (by simpa [trimStart] using h), trimStart]

/-- A line is over where nothing of it is left. -/
theorem endsLine_append_behindNewlines {line : List Char} (hline : '\n' ∉ line)
    (ls : List (List Char)) : endsLine (line ++ behindNewlines ls) ↔ line = [] := by
  cases line with
  | nil => cases ls <;> simp [endsLine, behindNewlines]
  | cons c line =>
    rw [List.mem_cons, not_or] at hline
    simp [endsLine, Ne.symm hline.1]

/-- Normalizing from the end is normalizing line by line. -/
theorem tidy_eq_tidyLines (text : List Char) : tidy text = tidyLines (lineContents text) := by
  have hnewline : ∀ rest : List Char, tidy rest = tidyLines (lineContents rest) →
      tidy ('\n' :: rest) = tidyLines ([] :: lineContents rest) := by
    intro rest ih
    rw [tidy_newline, ih, trimStart_tidyLines, ← behindNewlines_normalLines]
    rfl
  unfold lineContents at *
  fun_induction lines text with
  | case1 => rfl
  | case2 rest ih =>
    have hreturn : isSpace '\r' := by decide
    rw [tidy_cons (by decide), if_pos ⟨hreturn, endsLine_tidy_newline rest⟩]
    exact hnewline rest ih
  | case3 rest ih => exact hnewline rest ih
  | case4 c rest hreturn hc hlines ih =>
    have hrest : rest = [] := by
      rw [← flatMap_text_lines rest, hlines]
      rfl
    rw [hrest, tidy_cons hc]
    by_cases hspace : isSpace c <;>
      simp [tidy, endsLine, tidyLines, trimEnd, normalLines, behindNewlines, hspace]
  | case5 c rest hreturn hc line later hlines ih =>
    have hline : '\n' ∉ trimEnd line.content := fun h =>
      (lined_lines rest).newline_notMem line (hlines ▸ List.mem_cons_self)
        ((isPrefix_trimEnd _).subset h)
    have hends := endsLine_append_behindNewlines hline (normalLines (later.map Line.content))
    rw [hlines] at ih
    rw [tidy_cons hc, ih]
    simp only [List.map_cons, tidyLines, hends, trimEnd_cons c]
    split
    · next h => rw [h.2]
    · rfl

theorem trimStart_tidy (text : String) :
    trimStart (tidy text.toList) = ("\n".intercalate (normalizeProgramText text)).toList := by
  rw [tidy_eq_tidyLines, trimStart_tidyLines]
  rfl

/-! ### Tokens -/

theorem tidy_append {part : List Char} (hnewline : '\n' ∉ part) (hend : Assembly.EndsSolid part)
    (text : List Char) : tidy (part ++ text) = part ++ tidy text := by
  induction part with
  | nil => exact absurd rfl hend.ne_nil
  | cons c part ih =>
    rw [List.mem_cons, not_or] at hnewline
    cases part with
    | nil =>
      have hc : isSpace c = false := by simpa using hend.stops_reverse
      exact tidy_cons_of_not_isSpace hc text
    | cons d part =>
      have hd : d ≠ '\n' := fun h => hnewline.2 (h ▸ List.mem_cons_self)
      have hlater : Assembly.EndsSolid (d :: part) := by
        refine Assembly.endsSolid_of_stops_reverse (List.cons_ne_nil d part) ?_
        have hstops := hend.stops_reverse
        rwa [List.reverse_cons, stops_append_of_ne_nil (by simp)] at hstops
      rw [List.cons_append, tidy_cons (Ne.symm hnewline.1), ih hnewline.2 hlater,
        if_neg (by simp [endsLine, hd])]
      rfl

/-- A part of a line may lose white space. -/
theorem exists_tidy_append {part : List Char} (hpart : '\n' ∉ part) (text : List Char) :
    ∃ kept, '\n' ∉ kept ∧ tidy (part ++ text) = kept ++ tidy text := by
  induction part with
  | nil => exact ⟨[], List.not_mem_nil, rfl⟩
  | cons c part ih =>
    rw [List.mem_cons, not_or] at hpart
    obtain ⟨kept, hkept, heq⟩ := ih hpart.2
    rw [List.cons_append, tidy_cons (Ne.symm hpart.1), heq]
    split
    · exact ⟨kept, hkept, rfl⟩
    · exact ⟨c :: kept, by simpa using ⟨hpart.1, hkept⟩, rfl⟩

namespace Generic.Grammar

variable {text rest : List Char}

theorem isSpace_of_isBlankChar {c : Char} (h : isBlankChar c) : isSpace c := by
  rcases isBlankChar_iff.1 h with rfl | rfl | rfl | rfl <;> decide

theorem blank_trimStart (h : Blank text rest) (hrest : Stops isSpace rest) :
    Blank (trimStart text) rest := by
  induction h with
  | nothing =>
    rw [trimStart_eq_self_iff.2 hrest]
    exact .nothing _
  | space hc _ ih =>
    rw [trimStart, List.dropWhile_cons_of_pos (isSpace_of_isBlankChar hc)]
    exact ih hrest
  | comment hbody hend hlater =>
    rw [trimStart_eq_self_iff.2 (stops_cons.2 (by decide))]
    exact .comment hbody hend hlater

/-- Blanks stay blank. A comment stays on its line, and white space that is removed is blank, or it
is the end of a comment. -/
theorem blank_tidy (h : Blank text rest) (hrest : Stops isSpace (tidy rest)) :
    Blank (tidy text) (tidy rest) := by
  induction h with
  | nothing => exact .nothing _
  | @space c text rest hc _ ih =>
    by_cases hnewline : c = '\n'
    · have hblank := blank_trimStart (ih hrest) hrest
      rw [hnewline, tidy_newline]
      split
      · next h => exact h ▸ hblank
      · exact .space (by decide) hblank
    · rw [tidy_cons hnewline]
      split
      · exact ih hrest
      · exact .space hc (ih hrest)
  | @comment body text rest hbody hend _ ih =>
    obtain ⟨kept, hkept, heq⟩ := exists_tidy_append hbody text
    rw [tidy_cons_of_not_isSpace (by decide), tidy_cons_of_not_isSpace (by decide), heq]
    refine .comment hkept ?_ (ih hrest)
    cases text with
    | nil => simp [tidy]
    | cons c text =>
      obtain rfl : c = '\n' := hend c (by simp)
      exact endsLine_iff.1 (endsLine_tidy_newline text)

/-- Tokens stay where they are. -/
theorem spread_tidy {tokens : List (List Char)} (h : Spread tokens text [])
    (htokens : ∀ token ∈ tokens, Solid token) : Spread tokens (tidy text) [] := by
  generalize hrest : ([] : List Char) = rest at h ⊢
  induction h with
  | nil hblank =>
    subst hrest
    exact .nil (blank_tidy hblank stops_nil)
  | @cons token _ later _ _ hblank _ ih =>
    rw [List.forall_mem_cons] at htokens
    obtain ⟨⟨hnewline, hstart, hend⟩, hlater⟩ := htokens
    have hkept := tidy_append hnewline hend later
    have hblank := blank_tidy hblank (hkept ▸ hstart (tidy later))
    rw [hkept] at hblank
    exact .cons hblank (ih hlater hrest)

/-- A normalized text has the tokens that it had before. -/
theorem spread_normalizeProgramText {token : List Char} {tokens : List (List Char)} {text : String}
    (h : Spread (token :: tokens) text.toList [])
    (htokens : ∀ token' ∈ token :: tokens, Solid token') :
    Spread (token :: tokens) ("\n".intercalate (normalizeProgramText text)).toList [] := by
  have hspread := spread_tidy h htokens
  rw [← trimStart_tidy]
  cases hspread with
  | cons hblank hlater =>
    exact .cons (blank_trimStart hblank ((htokens token List.mem_cons_self).stops_append _)) hlater

end Generic.Grammar

open Generic Generic.Grammar

/-! ### Normalized texts -/

theorem parseProgram_normalizeProgramText {text : String} {p : Program}
    (h : parseProgram .riscv text = .ok p) :
    parseProgram .riscv ("\n".intercalate (normalizeProgramText text)) = .ok p := by
  rw [parseProgram_eq_ok, Registry.knows_riscv] at h ⊢
  obtain ⟨inner, hnested, hspread, hreplay⟩ := exists_tokens_of_programText h
  exact hreplay (spread_normalizeProgramText hspread (nested_moduleTokens hnested).solid)

/-- Lines with newlines between them come back. -/
theorem lineContents_joinLines {ls : List (List Char)}
    (h : ∀ line ∈ ls, line ≠ [] ∧ '\n' ∉ line ∧ Stops isSpace line.reverse) :
    lineContents (joinLines ls).toList = ls := by
  rcases List.eq_nil_or_concat ls with rfl | ⟨init, last, rfl⟩
  · rfl
  · rw [List.concat_eq_append] at h ⊢
    obtain ⟨hne, hnewline, -⟩ := h last (by simp)
    have hinit : ∀ line ∈ init, '\n' ∉ line ∧ Stops isSpace line.reverse := fun line hline =>
      (h line (List.mem_append_left _ hline)).2
    rw [joinLines_append_singleton, String.toList_ofList, lineContents_endLines_append hinit,
      lineContents_of_notMem_newline hne hnewline]

theorem normalLines_normalLines (ls : List (List Char)) :
    normalLines (normalLines ls) = normalLines ls := by
  have hmap : (normalLines ls).map trim = normalLines ls := by
    conv_rhs => rw [← List.map_id (normalLines ls)]
    exact List.map_congr_left fun line hline => (trim_of_mem_normalLines hline).2.1
  rw [normalLines, hmap, List.filter_eq_self]
  intro line hline
  simpa using (trim_of_mem_normalLines hline).1

theorem normalizeProgramText_idem (text : String) :
    normalizeProgramText ("\n".intercalate (normalizeProgramText text)) =
      normalizeProgramText text := by
  have hlines : ∀ line ∈ normalLines (lineContents text.toList),
      line ≠ [] ∧ '\n' ∉ line ∧ Stops isSpace line.reverse := by
    intro line hline
    obtain ⟨hne, htrim, l, hl, rfl⟩ := trim_of_mem_normalLines hline
    exact ⟨hne, fun h => newline_notMem_of_mem_lineContents hl (trim_subset l h),
      (trim_eq_self_iff.1 htrim).2⟩
  have hnormal : ∀ t : String,
      normalizeProgramText t = (normalLines (lineContents t.toList)).map String.ofList :=
    fun _ => rfl
  have hjoin : "\n".intercalate (normalizeProgramText text) =
      joinLines (normalLines (lineContents text.toList)) := rfl
  rw [hjoin, hnormal, lineContents_joinLines hlines, normalLines_normalLines, hnormal]

/-! ### Texts of tests -/

/-- White space at the start of a text is removed with that of the first line. -/
theorem trimStart_tidy_append {space : List Char} (hspace : ∀ c ∈ space, isSpace c)
    (text : List Char) : trimStart (tidy (space ++ text)) = trimStart (tidy text) := by
  induction space with
  | nil => rfl
  | cons c space ih =>
    rw [List.forall_mem_cons] at hspace
    have htrim : ∀ rest, trimStart (c :: rest) = trimStart rest := fun rest =>
      List.dropWhile_cons_of_pos hspace.1
    rw [← ih hspace.2, List.cons_append]
    by_cases hc : c = '\n'
    · rw [hc] at htrim ⊢
      rw [tidy_newline]
      split
      · next h => rw [h]; rfl
      · rw [htrim]
        exact trimStart_eq_self_iff.2 stops_dropWhile
    · rw [tidy_cons hc]
      split
      · rfl
      · exact htrim _

/-- White space at the end of a text is removed. -/
theorem tidy_append_of_isSpace {space : List Char} (hspace : ∀ c ∈ space, isSpace c)
    (text : List Char) : tidy (text ++ space) = tidy text := by
  induction text with
  | nil =>
    induction space with
    | nil => rfl
    | cons c space ih =>
      rw [List.forall_mem_cons] at hspace
      have hnil : tidy space = [] := ih hspace.2
      simp [tidy, hnil, hspace.1, endsLine, trimStart]
  | cons c text ih => rw [List.cons_append, tidy, ih, tidy]

theorem normalizeProgramText_trim (text : String) :
    "\n".intercalate (normalizeProgramText (String.ofList (trim text.toList))) =
      "\n".intercalate (normalizeProgramText text) := by
  obtain ⟨before, after, hbefore, hafter, htext⟩ := exists_trim text.toList
  rw [← String.toList_inj, ← trimStart_tidy, ← trimStart_tidy, String.toList_ofList]
  conv_rhs => rw [htext, trimStart_tidy_append hbefore, tidy_append_of_isSpace hafter]

/-- A test that passes expects its program, as far as normalized lines tell. -/
theorem exists_of_runCat {test : TestCase} (h : test.runCat = .ok ()) :
    ∃ p, test.readProgram = .ok p ∧
      normalizeProgramText (Program.generic p) = normalizeProgramText test.expected := by
  rw [TestCase.runCat, Except.bind_eq_ok] at h
  obtain ⟨p, hp, h⟩ := h
  refine ⟨p, hp, ?_⟩
  by_contra hne
  simp [hne, throw, throwThe, MonadExceptOf.throw, bind, Except.bind] at h

/-- A normalized text is read as the program that it was read as before, and is normalized once and
for all. So the expectations of a test of the printer, if it passes, are themselves a text of the
program that the test is about. -/
theorem normalizeProgramText_preserves (text : String) (test : TestCase) :
    (∀ p, parseProgram .riscv text = .ok p →
      parseProgram .riscv ("\n".intercalate (normalizeProgramText text)) = .ok p) ∧
    normalizeProgramText ("\n".intercalate (normalizeProgramText text)) =
      normalizeProgramText text ∧
    (test.runCat = .ok () → ∃ p, test.readProgram = .ok p ∧
      parseProgram .riscv ("\n".intercalate (normalizeProgramText test.expected)) = .ok p ∧
      ∀ q, parseProgram .riscv test.program = .ok q → q = p) := by
  refine ⟨fun p => parseProgram_normalizeProgramText, normalizeProgramText_idem text, fun h => ?_⟩
  obtain ⟨p, hp, hexpected⟩ := exists_of_runCat h
  refine ⟨p, hp, ?_, fun q hq => ?_⟩
  · rw [← hexpected]
    exact parseProgram_normalizeProgramText (parseProgram_generic p)
  · have htrimmed := parseProgram_normalizeProgramText (Except.mapError_eq_ok.1 hp)
    have hwhole := parseProgram_normalizeProgramText hq
    rw [normalizeProgramText_trim, hwhole] at htrimmed
    exact Except.ok.inj htrimmed

/-- The indentation goes, and the string of a directive stays, although it looks like a comment. -/
theorem normalizeProgramText_preserves_directive :
    parseProgram .riscv ("module \x7b\n" ++
        "\"riscv.directive\"() \x7b\"directive\" = \"ascii\", \"value\" = \"// \x7d\"\x7d\n\x7d") =
      .ok [.directive ⟨"ascii", "// \x7d", by decide⟩] := by
  let p : Program := [.directive ⟨"ascii", "// \x7d", by decide⟩]
  obtain ⟨hread, -⟩ := normalizeProgramText_preserves p.generic ⟨"test cat", "", ""⟩
  have htext : "\n".intercalate (normalizeProgramText p.generic) = "module \x7b\n" ++
      "\"riscv.directive\"() \x7b\"directive\" = \"ascii\", \"value\" = \"// \x7d\"\x7d\n\x7d" := by
    decide +kernel
  rw [← htext]
  exact hread p (parseProgram_generic p)

end RiscvDialect
