import RiscvDialect.Proofs.Generic.Tokens
import RiscvDialect.Proofs.TestFile.Generic

/-!
# Where a program in a test file ends

A test file is cut into programs by counting braces line by line. The counts leave out what stands
in quotes, but not what stands in comments. So a program is cut off too early exactly if, after some
line other than its last that has a closing brace, no brace is open by this count. The tokens of a
program do not let this happen: between the brace that opens the module and the one that closes it,
some brace is open after every token. A comment can do it, and only one that has a closing brace: an
opening brace in a comment makes the count larger, which does no harm to a program with nothing
after it.

## Main definitions

* `TestFile.slashComment`: the comment of a line
* `TestFile.openBraces`: the count of the braces that are open after some lines
* `TestFile.OpenAfter`: a brace is open after every line that is checked, but the last

## Main statements

* `TestFile.toInt_ofInt_braces`: the counts of a file fit in 32 bits
* `TestFile.openAfter_takeProgram`: a program does not end before its last line
* `TestFile.takeProgram_eq_iff`: when all lines are one program
* `TestFile.covered_of_blank`, `TestFile.covered_of_nested`: blanks and tokens leave braces open
* `TestFile.cases_module`: when a module is the program of a test file
-/

namespace RiscvDialect

open Text Generic.Grammar

namespace TestFile

/-! ### Comments -/

/-- The part of a line from its first two slashes outside quotes on, when a scan starts in
`state`. -/
def slashCommentFrom (state : QuoteState) : List Char → List Char
  | [] => []
  | c :: rest =>
    if state = .outside ∧ c = '/' ∧ rest.head? = some '/' then c :: rest
    else slashCommentFrom (state.step c) rest

/-- The part of a line from the start of its comment on, in the generic format. -/
def slashComment (line : List Char) : List Char :=
  slashCommentFrom .outside line

/-! ### Counting braces -/

/-- The number of braces that some lines open and leave open, by the count of the splitting. -/
def openBraces : List (List Char) → Int
  | [] => 0
  | line :: later => braceBalance line + openBraces later

theorem unquotedFrom_sublist (state : QuoteState) (line : List Char) :
    (unquotedFrom state line).Sublist line := by
  induction line generalizing state with
  | nil => exact List.Sublist.refl []
  | cons c line ih =>
    rw [unquotedFrom]
    split
    · exact (ih _).cons_cons c
    · exact (ih _).cons c

theorem unquoted_sublist (line : List Char) : (unquoted line).Sublist line :=
  unquotedFrom_sublist .outside line

theorem natAbs_braceBalance_le (line : List Char) :
    (braceBalance line).natAbs ≤ line.length := by
  have hopen := (unquoted line).count_le_length (a := '{')
  have hclose := (unquoted line).count_le_length (a := '}')
  have hlength := (unquoted_sublist line).length_le
  rw [braceBalance]
  omega

theorem natAbs_openBraces_le (ls : List (List Char)) :
    (openBraces ls).natAbs ≤ ls.flatten.length := by
  induction ls with
  | nil => exact Nat.le_refl 0
  | cons line later ih =>
    have hline := natAbs_braceBalance_le line
    rw [openBraces, List.flatten_cons, List.length_append]
    omega

/-- A number whose size is below `2 ^ 31` is the same as a signed number of 32 bits. -/
theorem toInt_ofInt_of_natAbs_le {n : Int} {bound : Nat} (hn : n.natAbs ≤ bound)
    (hbound : bound < 2 ^ 31) : (Int32.ofInt n).toInt = n :=
  Int32.toInt_ofInt_of_le (by omega) (by omega)

/-- In a file of fewer than `2 ^ 31` characters, a counter of 32 bits does not overflow: not within
a line, and not from line to line. -/
theorem toInt_ofInt_braces {content : String} (h : content.length < 2 ^ 31) :
    (∀ line ∈ lineContents content.toList, ∀ part, part <+: line →
      (Int32.ofInt (braceBalance part)).toInt = braceBalance part) ∧
    ∀ ls, ls <:+: lineContents content.toList →
      (Int32.ofInt (openBraces ls)).toInt = openBraces ls := by
  have hlength := (flatten_lineContents_sublist content.toList).length_le
  rw [String.length_toList] at hlength
  refine ⟨fun line hline part hpart => ?_, fun ls hls => ?_⟩
  · have hpartLength := hpart.length_le
    have hlineLength := (List.sublist_flatten_of_mem hline).length_le
    exact toInt_ofInt_of_natAbs_le (natAbs_braceBalance_le part) (by omega)
  · have hlsLength := hls.sublist.flatten.length_le
    exact toInt_ofInt_of_natAbs_le (natAbs_openBraces_le ls) (by omega)

/-- After every line that is `checked`, but the last, a brace is open, where `depth` braces are open
before the lines. -/
def OpenAfter (checked : List Char → Prop) (depth : Int) : List (List Char) → Prop
  | [] => True
  | line :: later => (later ≠ [] → checked line → 0 < depth + braceBalance line) ∧
      OpenAfter checked (depth + braceBalance line) later

section

variable {checked : List Char → Prop} {depth : Int} {ls : List (List Char)}

theorem OpenAfter.mono {depth' : Int} (h : OpenAfter checked depth ls) (hle : depth ≤ depth') :
    OpenAfter checked depth' ls := by
  induction ls generalizing depth depth' with
  | nil => trivial
  | cons line later ih =>
    obtain ⟨hopen, hlater⟩ := h
    refine ⟨fun hne hline => ?_, ih hlater (by omega)⟩
    have := hopen hne hline
    omega

theorem OpenAfter.imp {checked' : List Char → Prop} (h : OpenAfter checked depth ls)
    (himp : ∀ line, checked' line → checked line) : OpenAfter checked' depth ls := by
  induction ls generalizing depth with
  | nil => trivial
  | cons line later ih => exact ⟨fun hne hline => h.1 hne (himp line hline), ih h.2⟩

/-- The lines that are checked, with what is open after each. -/
theorem openAfter_iff : OpenAfter checked depth ls ↔ ∀ before line after,
    ls = before ++ line :: after → after ≠ [] → checked line →
      0 < depth + openBraces (before ++ [line]) := by
  induction ls generalizing depth with
  | nil => simp [OpenAfter]
  | cons first later ih =>
    have hone : openBraces [first] = braceBalance first := Int.add_zero _
    rw [OpenAfter, ih]
    constructor
    · rintro ⟨hfirst, hlater⟩ before line after hls hne hline
      rw [List.cons_eq_append_iff] at hls
      rcases hls with ⟨rfl, hls⟩ | ⟨before, rfl, rfl⟩
      · cases hls
        simpa [hone] using hfirst hne hline
      · simpa [openBraces, Int.add_assoc] using hlater before line after rfl hne hline
    · intro h
      refine ⟨fun hne hline => ?_, fun before line after hls hne hline => ?_⟩
      · simpa [hone] using h [] first later rfl hne hline
      · have hopen := h (first :: before) line after (by rw [hls]; rfl) hne hline
        simpa [openBraces, Int.add_assoc] using hopen

/-- A program does not end before its last line. -/
theorem openAfter_takeProgram (depth : Int) (ls : List (List Char)) :
    OpenAfter ('}' ∈ ·) depth (takeProgram depth ls).1 := by
  fun_induction takeProgram depth ls with
  | case1 => trivial
  | case2 => exact ⟨fun hne => absurd rfl hne, trivial⟩
  | case3 depth line later after hopen program rest hcut ih =>
    rw [hcut] at ih
    refine ⟨fun _ hline => ?_, ih⟩
    by_contra hle
    exact hopen ⟨by omega, hline⟩

/-- All lines are one program if a brace is open after each that has a closing brace. -/
theorem takeProgram_eq_iff :
    takeProgram depth ls = (ls, []) ↔ OpenAfter ('}' ∈ ·) depth ls := by
  refine ⟨fun h => ?_, fun h => ?_⟩
  · have hopen := openAfter_takeProgram depth ls
    rwa [h] at hopen
  · fun_induction takeProgram depth ls with
    | case1 => rfl
    | case2 depth line later after hend =>
      have hlater : later = [] := by
        by_contra hne
        have := h.1 hne hend.2
        omega
      rw [hlater]
    | case3 depth line later after hopen program rest hcut ih =>
      rw [hcut] at ih
      simpa using ih h.2

end

/-! ### Parts of texts -/

/-- Unless a comment has a closing brace, a brace is open after every line of the text that is
checked, but the last. -/
def Covered (checked : List Char → Prop) (depth : Int) (text : List Char) : Prop :=
  (∀ line ∈ lineContents text, '}' ∉ slashComment line) →
    OpenAfter checked depth (lineContents text)

/-- A part of a line that opens as many braces as are given, or closes them if the number is
negative. It has no comment and is outside of all quotes again. -/
structure Counts (braces : Int) (part : List Char) : Prop where
  braceBalance_append : ∀ text, braceBalance (part ++ text) = braces + braceBalance text
  slashComment_append : ∀ text, slashComment (part ++ text) = slashComment text

variable {checked : List Char → Prop} {depth braces : Int} {part text rest : List Char}

/-- A part at the start of the first line. -/
theorem covered_prepend (hcounts : Counts braces part)
    (hchecked : ∀ line, checked (part ++ line) → checked line)
    (hlines : lineContents (part ++ text) =
      match lineContents text with
      | [] => [part]
      | line :: later => (part ++ line) :: later)
    (h : Covered checked (depth + braces) text) : Covered checked depth (part ++ text) := by
  rw [Covered, hlines] at *
  cases htext : lineContents text with
  | nil => exact fun _ => ⟨fun hne => absurd rfl hne, trivial⟩
  | cons line later =>
    rw [htext] at h
    simp only [List.forall_mem_cons, hcounts.slashComment_append] at h ⊢
    intro hcomments
    obtain ⟨hopen, hlater⟩ := h hcomments
    rw [OpenAfter, hcounts.braceBalance_append, ← Int.add_assoc]
    exact ⟨fun hne hline => hopen hne (hchecked line hline), hlater⟩

theorem covered_append (hsolid : Solid part) (hcounts : Counts braces part)
    (hchecked : ∀ line, checked (part ++ line) → checked line)
    (h : Covered checked (depth + braces) text) : Covered checked depth (part ++ text) := by
  have hlines := lineContents_append hsolid.newline_notMem hsolid.endsSolid.ne_nil
    hsolid.endsSolid.stops_reverse text
  exact covered_prepend hcounts hchecked hlines h

/-! ### Blanks -/

theorem slashComment_append_of_forall_ne (h : ∀ c ∈ part, c ≠ '"' ∧ c ≠ '/') (text : List Char) :
    slashComment (part ++ text) = slashComment text := by
  induction part with
  | nil => rfl
  | cons c part ih =>
    rw [List.forall_mem_cons] at h
    obtain ⟨⟨hquote, hslash⟩, hpart⟩ := h
    rw [← ih hpart]
    simp [slashComment, slashCommentFrom, QuoteState.step, hquote, hslash]

theorem counts_of_forall_notMem (h : ∀ c ∈ part, c ∉ ['"', '/', '{', '}']) : Counts 0 part := by
  simp only [List.mem_cons, List.not_mem_nil, or_false, not_or] at h
  refine ⟨fun text => ?_, slashComment_append_of_forall_ne fun c hc => ⟨(h c hc).1, (h c hc).2.1⟩⟩
  rw [braceBalance_append_of_forall_ne fun c hc => ⟨(h c hc).1, (h c hc).2.2⟩, Int.zero_add]

/-- Without a closing brace, a line cannot close more braces than it opens. -/
theorem braceBalance_nonneg {line : List Char} (h : '}' ∉ line) : 0 ≤ braceBalance line := by
  have hclose : (unquoted line).count '}' = 0 :=
    List.count_eq_zero.2 fun hmem => h ((unquoted_sublist line).subset hmem)
  simp [braceBalance, hclose]

theorem covered_newline_iff (hdepth : checked [] → 0 < depth) :
    Covered checked depth ('\n' :: text) ↔ Covered checked depth text := by
  have hempty : depth + braceBalance [] = depth := Int.add_zero depth
  have hcomment : '}' ∉ slashComment [] := List.not_mem_nil
  rw [Covered, lineContents_newline, List.forall_mem_cons, OpenAfter, hempty]
  exact ⟨fun h hcomments => (h ⟨hcomment, hcomments⟩).2,
    fun h hcomments => ⟨fun _ => hdepth, h hcomments.2⟩⟩

/-- A line that has no closing brace in its comment does not have one. -/
theorem covered_comment {body : List Char} (hbody : '\n' ∉ body)
    (hchecked : ∀ part line, '}' ∉ part → checked (part ++ line) → checked line)
    (hdepth : checked [] → 0 < depth) (h : Covered checked depth text) :
    Covered checked depth ('/' :: '/' :: (body ++ '\n' :: text)) := by
  obtain ⟨line, hline, -⟩ := exists_lineContents_append_newline hbody text
  have hlines : lineContents ('/' :: '/' :: (body ++ '\n' :: text)) =
      ('/' :: '/' :: line) :: lineContents text := by
    have hslashes : '\n' ∉ ['/', '/'] ∧ Stops isSpace ['/', '/'].reverse :=
      ⟨by decide, stops_cons.2 (by decide)⟩
    have h := lineContents_append hslashes.1 (by simp) hslashes.2 (body ++ '\n' :: text)
    rwa [hline] at h
  have hcomment : slashComment ('/' :: '/' :: line) = '/' :: '/' :: line := rfl
  rw [Covered, hlines, List.forall_mem_cons, hcomment, OpenAfter]
  rintro ⟨hclose, hcomments⟩
  have hbalance := braceBalance_nonneg hclose
  refine ⟨fun _ hline => ?_, (h hcomments).mono (by omega)⟩
  have hopen := hdepth (hchecked ('/' :: '/' :: line) [] hclose (by rwa [List.append_nil]))
  omega

/-- Blanks and comments do not matter if lines without a closing brace are not checked, or a brace
is open. -/
theorem covered_of_blank (h : Blank text rest)
    (hchecked : ∀ part line, '}' ∉ part → checked (part ++ line) → checked line)
    (hdepth : checked [] → 0 < depth) (hrest : Covered checked depth rest) :
    Covered checked depth text := by
  induction h with
  | nothing => exact hrest
  | @space c text rest hc _ ih =>
    have htext := ih hrest
    by_cases hnewline : c = '\n'
    · rw [hnewline]
      exact (covered_newline_iff hdepth).2 htext
    by_cases hreturn : c = '\r' ∧ text.head? = some '\n'
    · obtain ⟨rfl, hhead⟩ := hreturn
      obtain ⟨later, rfl⟩ := List.head?_eq_some_iff.1 hhead
      exact htext
    · have hchar : c ∉ ['"', '/', '{', '}'] := by
        rcases isBlankChar_iff.1 hc with rfl | rfl | rfl | rfl <;> decide
      have hbrace : '}' ∉ [c] := by
        rw [List.mem_singleton]
        rintro rfl
        exact hchar (by decide)
      refine covered_prepend (counts_of_forall_notMem (List.forall_mem_singleton.2 hchar))
        (fun line => hchecked [c] line hbrace) ?_ (by rwa [Int.add_zero])
      exact lineContents_cons hnewline fun hc hhead => hreturn ⟨hc, hhead⟩
  | @comment body text rest hbody hend _ ih =>
    cases text with
    | nil =>
      have hline : lineContents ('/' :: '/' :: body) = ['/' :: '/' :: body] :=
        lineContents_of_notMem_newline (List.cons_ne_nil _ _) (by simpa using hbody)
      rw [List.append_nil, Covered, hline]
      exact fun _ => ⟨fun hne => absurd rfl hne, trivial⟩
    | cons c text =>
      obtain rfl : c = '\n' := hend c (by simp)
      exact covered_comment hbody hchecked hdepth ((covered_newline_iff hdepth).1 (ih hrest))

/-! ### Tokens -/

theorem slashCommentFrom_of_stringBody {value : List Char} (h : StringBody text value rest) :
    slashCommentFrom .inside text = slashCommentFrom .outside rest := by
  induction h with
  | close rest => simp [slashCommentFrom, QuoteState.step]
  | plain hquote hbackslash _ ih =>
    simpa [slashCommentFrom, QuoteState.step, hquote, hbackslash] using ih
  | escape _ _ ih => simpa [slashCommentFrom, QuoteState.step] using ih

theorem counts_string {body value : List Char}
    (h : ∀ rest, StringBody (body ++ rest) value rest) :
    Counts 0 ('"' :: body) where
  braceBalance_append text := by
    rw [List.cons_append, braceBalance_of_stringBody (h text), Int.zero_add]
  slashComment_append text := by
    rw [slashComment, slashComment, ← slashCommentFrom_of_stringBody (h text)]
    rfl

theorem counts_open : Counts 1 ['{'] where
  braceBalance_append text := by
    rw [List.singleton_append, braceBalance_open, Int.add_comm]
  slashComment_append _ := rfl

theorem counts_close : Counts (-1) ['}'] where
  braceBalance_append text := by
    rw [List.singleton_append, braceBalance_close]
    omega
  slashComment_append _ := rfl

/-- A token, and blanks in front of it, after which a brace is open. -/
theorem covered_token (hdepth : 0 < depth) (hblank : Blank text (part ++ rest))
    (hsolid : Solid part) (hcounts : Counts braces part)
    (hrest : Covered (fun _ => True) (depth + braces) rest) :
    Covered (fun _ => True) depth text :=
  covered_of_blank hblank (fun _ _ _ _ => trivial) (fun _ => hdepth)
    (covered_append hsolid hcounts (fun _ _ => trivial) hrest)

/-- While a brace is open, tokens with their braces in pairs leave it open. -/
theorem covered_of_nested {tokens : List (List Char)} (h : Nested tokens) (hdepth : 0 < depth)
    (hspread : Spread tokens text rest) (hrest : Covered (fun _ => True) depth rest) :
    Covered (fun _ => True) depth text := by
  induction h generalizing depth text rest with
  | nil =>
    cases hspread with
    | nil hblank =>
      exact covered_of_blank hblank (fun _ _ _ _ => trivial) (fun _ => hdepth) hrest
  | word hne hchars _ ih =>
    cases hspread with
    | cons hblank hspread =>
      refine covered_token hdepth hblank (solid_of_isWordChar hne hchars)
        (counts_of_forall_notMem fun c hc => (hchars c hc).2) ?_
      exact ih (by omega) hspread (by rwa [Int.add_zero])
  | string hnewline hbody _ ih =>
    cases hspread with
    | cons hblank hspread =>
      refine covered_token hdepth hblank (solid_string hnewline hbody) (counts_string hbody) ?_
      exact ih (by omega) hspread (by rwa [Int.add_zero])
  | braces _ _ ihinner ihlater =>
    cases hspread with
    | cons hblank hspread =>
      obtain ⟨mid, hinner, hclose⟩ := hspread.of_append
      cases hclose with
      | cons hblank' hlater =>
        refine covered_token hdepth hblank (solid_brace (by simp)) counts_open ?_
        refine ihinner (by omega) hinner ?_
        refine covered_token (by omega) hblank' (solid_brace (by simp)) counts_close ?_
        exact ihlater (by omega) hlater (by rwa [Int.add_neg_cancel_right])

/-! ### Modules -/

/-- The lines of a module are one program, unless a comment has a closing brace. -/
theorem takeProgram_of_readProgram {text : List Char} {p : Program}
    (h : Generic.readProgram .riscv text = .ok (p, []))
    (hcomments : ∀ line ∈ lineContents text, '}' ∉ slashComment line) :
    takeProgram 0 (lineContents text) = (lineContents text, []) := by
  obtain ⟨afterWord, afterOpen, opsText, rfl, hopen, hblank, hops⟩ := opsText_of_readProgram h
  rw [Registry.knows_riscv] at hops
  obtain ⟨tokens, hnested, hspread, -⟩ := hops.tokenized
  have hclose : Covered (fun _ => True) 1 ['}'] := fun _ => ⟨fun hne => absurd rfl hne, trivial⟩
  have hinside : Covered (fun _ => True) 1 afterOpen :=
    covered_of_nested hnested (by decide) (Spread.of_blank hblank hspread) hclose
  -- no brace is open in front of the module, but there is no closing brace either
  have hpart : ∀ part line : List Char, '}' ∉ part → '}' ∈ part ++ line → '}' ∈ line :=
    fun part line hpart hline => (List.mem_append.1 hline).resolve_left hpart
  have hbrace : Covered ('}' ∈ ·) 0 (['{'] ++ afterOpen) :=
    covered_append (solid_brace (by simp)) counts_open (fun line => hpart ['{'] line (by decide))
      fun hcomments => (hinside hcomments).imp fun _ _ => trivial
  have hbefore : Covered ('}' ∈ ·) 0 afterWord := covered_of_blank hopen hpart (by simp) hbrace
  have hmodule : Covered ('}' ∈ ·) 0 ("module".toList ++ afterWord) :=
    covered_append (solid_of_isWordChar (by decide) (by decide))
      (counts_of_forall_notMem (by decide)) (fun line => hpart _ line (by decide)) hbefore
  exact takeProgram_eq_iff.2 (hmodule hcomments)

theorem takeProgram_append (depth : Int) (ls : List (List Char)) :
    (takeProgram depth ls).1 ++ (takeProgram depth ls).2 = ls := by
  fun_induction takeProgram depth ls with
  | case1 => rfl
  | case2 => rfl
  | case3 depth line later after hopen program rest hcut ih =>
    rw [hcut] at ih
    rw [List.cons_append, ih]

theorem exists_takeProgram_cons (depth : Int) (line : List Char) (later : List (List Char)) :
    ∃ program, (takeProgram depth (line :: later)).1 = line :: program := by
  rw [takeProgram]
  split
  · exact ⟨[], rfl⟩
  · exact ⟨_, rfl⟩

/-- The text that the lines of a program are joined to tells whether these are all lines. -/
theorem takeProgram_eq_of_joinLines {depth : Int} {ls : List (List Char)} (hne : ls ≠ [])
    (h : joinLines (takeProgram depth ls).1 = joinLines ls) : takeProgram depth ls = (ls, []) := by
  obtain ⟨line, later, rfl⟩ := List.exists_cons_of_ne_nil hne
  obtain ⟨program, hprogram⟩ := exists_takeProgram_cons depth line later
  have hsplit := takeProgram_append depth (line :: later)
  rw [← String.toList_inj, hprogram, toList_joinLines_cons] at h
  rw [hprogram, List.cons_append, List.cons.injEq] at hsplit
  have hrest : (takeProgram depth (line :: later)).2 = [] := by
    rw [← hsplit.2, toList_joinLines_cons, List.append_cancel_left_eq, behindNewlines,
      behindNewlines, List.flatMap_append, List.self_eq_append_right, List.flatMap_eq_nil_iff] at h
    exact List.eq_nil_iff_forall_not_mem.2 fun line hline => absurd (h line hline) (by simp)
  rw [hrest, List.append_nil] at hsplit
  rw [Prod.ext_iff, hprogram, hrest, hsplit.2]
  exact ⟨rfl, rfl⟩

theorem endsSolid_of_readProgram {text : List Char} {p : Program}
    (h : Generic.readProgram .riscv text = .ok (p, [])) : Assembly.EndsSolid text := by
  obtain ⟨afterWord, afterOpen, opsText, rfl, hopen, hblank, hops⟩ := opsText_of_readProgram h
  rw [Registry.knows_riscv] at hops
  obtain ⟨tokens, -, hspread, -⟩ := hops.tokenized
  obtain ⟨before, hbefore⟩ : ['}'] <:+ "module".toList ++ afterWord :=
    hspread.suffix.trans (hblank.suffix.trans ((List.suffix_cons _ _).trans
      (hopen.suffix.trans (List.suffix_append _ _))))
  exact ⟨before, '}', hbefore.symm, by decide⟩

/-- The lines of a module are the lines of a file after its header. -/
theorem cases_header_append {text : String} (hend : Assembly.EndsSolid text.toList) :
    cases ("test cat\n" ++ text ++ "\n") = casesFrom "test cat" (lineContents text.toList) := by
  have hheader : '\n' ∉ "test cat".toList ∧ Assembly.EndsSolid "test cat".toList :=
    ⟨by decide, "test ca".toList, 't', rfl, by decide⟩
  have hlines : lineContents ("test cat\n" ++ text ++ "\n").toList =
      "test cat".toList :: lineContents text.toList := by
    have hcontent : ("test cat\n" ++ text ++ "\n").toList =
        "test cat".toList ++ '\n' :: (text.toList ++ '\n' :: []) := by simp
    rw [hcontent, lineContents_append_newline hheader.1 hheader.2.stops_reverse,
      lineContents_append_newline_of_ne_nil hend.ne_nil hend.stops_reverse, lineContents_nil,
      List.append_nil]
  exact cases_of_lineContents hlines

/-- A line that starts with a word starts with it without the white space around it. -/
theorem startsWith_append {word : String} (hsolid : Solid word.toList) (line : List Char) :
    startsWith word (word.toList ++ line) := by
  rw [startsWith, trim, trimStart_eq_self_iff.2 (hsolid.stops_append line),
    trimEnd_append hsolid.endsSolid.stops_reverse, List.isPrefixOf_iff_prefix]
  exact List.prefix_append _ _

/-- The cases of a file with a header and a module. -/
theorem cases_module_eq {text : String} {p : Program}
    (h : Generic.readProgram .riscv text.toList = .ok (p, [])) :
    let cut := takeProgram 0 (lineContents text.toList)
    let expected := takeExpected cut.2
    cases ("test cat\n" ++ text ++ "\n") = ⟨"test cat", joinLines cut.1, joinLines expected.1⟩ ::
      casesFrom "test cat" expected.2 := by
  obtain ⟨afterWord, -, -, htext, -⟩ := opsText_of_readProgram h
  have hsolid : Solid "module".toList := solid_of_isWordChar (by decide) (by decide)
  obtain ⟨line, later, hlines⟩ : ∃ line later,
      lineContents text.toList = ("module".toList ++ line) :: later := by
    rw [htext, lineContents_append hsolid.newline_notMem (by decide) hsolid.endsSolid.stops_reverse]
    cases lineContents afterWord with
    | nil => exact ⟨[], [], by rw [List.append_nil]⟩
    | cons line later => exact ⟨line, later, rfl⟩
  rw [cases_header_append (endsSolid_of_readProgram h), hlines, casesFrom,
    if_pos (startsWith_append hsolid line)]

theorem cases_module_of_takeProgram {text : String} {p : Program}
    (h : Generic.readProgram .riscv text.toList = .ok (p, []))
    (hcut : takeProgram 0 (lineContents text.toList) = (lineContents text.toList, [])) :
    cases ("test cat\n" ++ text ++ "\n") =
      [⟨"test cat", joinLines (lineContents text.toList), ""⟩] := by
  have hnil : casesFrom "test cat" [] = [] := by rw [casesFrom]
  have hcases := cases_module_eq h
  rw [hcut] at hcases
  exact hcases.trans (congrArg _ hnil)

/-- A module is a whole program of a test file if its lines are taken together. -/
theorem exists_cases_module_iff {text : String} {p : Program}
    (h : Generic.readProgram .riscv text.toList = .ok (p, [])) :
    (∃ test, cases ("test cat\n" ++ text ++ "\n") = [test] ∧
        test.program = joinLines (lineContents text.toList)) ↔
      takeProgram 0 (lineContents text.toList) = (lineContents text.toList, []) := by
  constructor
  · rintro ⟨test, hcases, hprogram⟩
    rw [cases_module_eq h, List.cons.injEq] at hcases
    rw [← hcases.1] at hprogram
    exact takeProgram_eq_of_joinLines (lineContents_ne_nil (endsSolid_of_readProgram h).ne_nil)
      hprogram
  · intro hcut
    exact ⟨_, cases_module_of_takeProgram h hcut, rfl⟩

/-- A module without ops, but with a comment on its second line. -/
theorem readProgram_comment {body : List Char} (hbody : '\n' ∉ body) :
    Generic.readProgram .riscv ("module \x7b\n//".toList ++ (body ++ ['\n', '}'])) =
      .ok ([], []) := by
  have hopen : Blank (" \x7b\n//".toList ++ (body ++ ['\n', '}']))
      ('{' :: '\n' :: '/' :: '/' :: (body ++ ['\n', '}'])) := .space (by decide) (.nothing _)
  have hclose : Blank ['\n', '}'] ['}'] := .space (by decide) (.nothing _)
  have hcomment : Blank ('\n' :: '/' :: '/' :: (body ++ ['\n', '}'])) ['}'] :=
    .space (by decide) (.comment hbody (by simp) hclose)
  exact readProgram_of_opsText hopen hcomment (.close [])

/-- Let a program be read from a text, from the word for the module at its start to the closing
brace at its end. Behind the header of a test file, this text is a whole program exactly if, after
every line with a closing brace but the last, a brace is open by the count. That is so if no comment
has a closing brace. -/
theorem cases_module {text : String} {p : Program}
    (h : Generic.readProgram .riscv text.toList = .ok (p, [])) :
    ((∃ test, cases ("test cat\n" ++ text ++ "\n") = [test] ∧
        test.program = joinLines (lineContents text.toList)) ↔
      ∀ before line after, lineContents text.toList = before ++ line :: after → after ≠ [] →
        '}' ∈ line → 0 < openBraces (before ++ [line])) ∧
    ((∀ line ∈ lineContents text.toList, '}' ∉ slashComment line) →
      cases ("test cat\n" ++ text ++ "\n") =
        [⟨"test cat", joinLines (lineContents text.toList), ""⟩]) := by
  refine ⟨?_, fun hcomments =>
    cases_module_of_takeProgram h (takeProgram_of_readProgram h hcomments)⟩
  rw [exists_cases_module_iff h, takeProgram_eq_iff, openAfter_iff]
  simp only [Int.zero_add]

/-- An opening brace in a comment is counted, too, but the module goes on to its last line. -/
theorem cases_module_openComment :
    Generic.readProgram .riscv "module \x7b\n// \x7b\n\x7d".toList = .ok ([], []) ∧
    cases ("test cat\n" ++ "module \x7b\n// \x7b\n\x7d" ++ "\n") =
      [⟨"test cat", "module \x7b\n// \x7b\n\x7d", ""⟩] := by
  have hbody : '\n' ∉ [' ', '{'] := by decide
  have hread : Generic.readProgram .riscv "module \x7b\n// \x7b\n\x7d".toList = .ok ([], []) :=
    readProgram_comment hbody
  exact ⟨hread, (cases_module hread).2 (by decide)⟩

/-- A closing brace in a comment cuts a module off before its last line. -/
theorem not_cases_module : ¬ ∀ (text : String) (p : Program),
    Generic.readProgram .riscv text.toList = .ok (p, []) →
      ∃ test, cases ("test cat\n" ++ text ++ "\n") = [test] ∧
        test.program = joinLines (lineContents text.toList) := by
  intro h
  have hbody : '\n' ∉ [' ', '}'] := by decide
  have hread : Generic.readProgram .riscv "module \x7b\n// \x7d\n\x7d".toList = .ok ([], []) :=
    readProgram_comment hbody
  exact absurd ((exists_cases_module_iff hread).1 (h _ _ hread)) (by decide)

end TestFile

end RiscvDialect
