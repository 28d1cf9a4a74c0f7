import RiscvDialect.Proofs.Assembly.RoundTrip
import RiscvDialect.TestFile.Run

/-!
# Normalized listings

A listing is normalized to its statements, one on each line, and these are all that a reader of
assembly looks at. So a normalized listing is read as before. Where it cannot be read, the problem
is the same and only its place is another one, since the statement that has it has moved.

Statements lose nothing when they are normalized once more. They have no comment, since the part of
a line before its comment has none, and what stands around a statement in that part is white space.

An engine for checks is given normalized listings only, so listings with the same statements are
matched alike, whatever the engine does. In a test of assembly the second of two indentations is
therefore matched if the first is.

## Main definitions

* `Assembly.readCodes`: read statements, one after the other
* `orderedEngine`: an engine that finds patterns one after the other

## Main statements

* `Assembly.isCode_of_mem_codes`: every statement of a text could have a line to itself
* `Assembly.mapError_parse`: what a text is read as depends on its statements only
* `codes_normalizeListing`: normalizing keeps the statements
* `normalizeListing_assembly`: the indentation of a program is lost
* `TestCase.runAsm_eq_ok`: what a test of assembly establishes
* `normalizeListing_preserves`: what normalizing keeps, and what it does not depend on
-/

namespace RiscvDialect

open Text

namespace Assembly

variable {κ : Type} {registry : Registry κ}

/-! ### Statements on lines of their own -/

/-- The statement on a line has no comment and no white space around it. -/
theorem codeOf_codeOf (line : List Char) : codeOf (codeOf line) = codeOf line := by
  rw [codeOf, codeOf, trim_uncommented_trim, uncommented_uncommented]

theorem codeOf_subset (line : List Char) : codeOf line ⊆ line := fun _ h =>
  (isPrefix_uncommentedFrom _ _).subset (trim_subset _ h)

/-- Every statement of a text could have a line to itself. -/
theorem isCode_of_mem_codes {text code : List Char} (h : code ∈ codes text) : IsCode code := by
  obtain ⟨hmem, hne⟩ := List.mem_filter.1 h
  obtain ⟨line, hline, rfl⟩ := List.mem_map.1 hmem
  exact {
    ne_nil := by simpa using hne
    codeOf_eq := codeOf_codeOf line
    newline_notMem := fun h => newline_notMem_of_mem_lineContents hline (codeOf_subset line h)
    stops_reverse := stops_reverse_codeOf line }

theorem codes_endLines {ls : List (List Char)} (h : ∀ code ∈ ls, IsCode code) :
    codes (endLines ls) = ls := by
  induction ls with
  | nil => rfl
  | cons code ls ih =>
    rw [List.forall_mem_cons] at h
    rw [endLines_cons, codes_append_newline h.1.ne_nil h.1.codeOf_eq h.1.newline_notMem
      h.1.stops_reverse, ih h.2]

/-! ### Problems without their places -/

/-- The program of some statements, one op from each. If there are problems, the first is reported.
The place where a report starts does not matter to what the problem is. -/
def readCodes (registry : Registry κ) (ls : List (List Char)) : Except ParseProblem Program :=
  ls.mapM fun code =>
    (readCode registry code).mapError fun fault => (fault.report .start code).problem

theorem readCodes_cons (code : List Char) (ls : List (List Char)) :
    readCodes registry (code :: ls) = (do
      let op ← (readCode registry code).mapError fun fault => (fault.report .start code).problem
      let ops ← readCodes registry ls
      return op :: ops) :=
  List.mapM_cons

theorem mapError_bind {α β ε δ : Type} (x : Except ε α) (f : α → Except ε β) (g : ε → δ) :
    (x >>= f).mapError g = x.mapError g >>= fun a => (f a).mapError g := by
  cases x <;> rfl

theorem mapError_readLine (start : Position) (line : List Char) :
    (readLine registry start line).mapError ParseError.problem =
      if codeOf line = [] then .ok none
      else some <$> (readCode registry (codeOf line)).mapError
        fun fault => (fault.report .start (codeOf line)).problem := by
  unfold readLine
  dsimp only
  split
  · next hcode =>
    rw [codeOf, if_pos hcode]
    rfl
  · next hcode =>
    rw [codeOf, if_neg hcode]
    split <;> next hread => rw [hread]; rfl

theorem mapError_readLines (start : Position) (ls : List Line) :
    (readLines registry start ls).mapError ParseError.problem =
      readCodes registry ((ls.map fun line => codeOf line.content).filter (· ≠ [])) := by
  induction ls generalizing start with
  | nil => rfl
  | cons line later ih =>
    simp only [readLines, mapError_bind, mapError_readLine, ih, List.map_cons]
    by_cases hcode : codeOf line.content = []
    · rw [if_pos hcode, List.filter_cons_of_neg (by simpa using hcode)]
      cases readCodes registry _ <;> rfl
    · rw [if_neg hcode, List.filter_cons_of_pos (by simpa using hcode), readCodes_cons]
      cases readCode registry (codeOf line.content) with
      | error => rfl
      | ok op => cases readCodes registry _ <;> rfl

/-- Up to the places of problems, a text is read as its statements are. -/
theorem mapError_parse (registry : Registry κ) (text : String) :
    (parse registry text).mapError ParseError.problem = readCodes registry (codes text.toList) := by
  rw [parse, mapError_readLines, codes, lineContents, List.map_map]
  rfl

/-- Two texts with the same statements are read as the same program or have the same problem. -/
theorem parse_eq_of_codes (registry : Registry κ) {s t : String}
    (h : codes s.toList = codes t.toList) :
    (∀ p, parse registry s = .ok p ↔ parse registry t = .ok p) ∧
      ∀ e, parse registry t = .error e →
        ∃ e', parse registry s = .error e' ∧ e'.problem = e.problem := by
  have hread : (parse registry s).mapError ParseError.problem =
      (parse registry t).mapError ParseError.problem := by
    rw [mapError_parse, mapError_parse, h]
  cases hs : parse registry s <;> cases ht : parse registry t <;>
    simp_all [Except.mapError]

end Assembly

open Assembly

/-! ### Listings -/

/-- The statements of a listing are those that a reader of assembly finds. -/
theorem listingStatements_eq_codes (text : List Char) : listingStatements text = codes text := by
  refine List.filter_congr fun code _ => ?_
  cases code <;> rfl

theorem toList_normalizeListing (text : String) :
    (normalizeListing text).toList = endLines (codes text.toList) := by
  simp [normalizeListing, listingStatements_eq_codes, String.toList_join, endLines,
    List.flatMap_map]

theorem codes_normalizeListing (text : String) :
    codes (normalizeListing text).toList = codes text.toList := by
  rw [toList_normalizeListing, codes_endLines fun _ => isCode_of_mem_codes]

/-- A normalized listing depends on the statements only. -/
theorem normalizeListing_congr {s t : String} (h : codes s.toList = codes t.toList) :
    normalizeListing s = normalizeListing t := by
  rw [← String.toList_inj, toList_normalizeListing, toList_normalizeListing, h]

/-- A program that is written gives the same normalized listing with every indentation made of white
space. -/
theorem normalizeListing_assembly (p : Program) (registers : RegisterStyle)
    {indent indent' : String} (hindent : ∀ c ∈ indent.toList, isSpace c)
    (hindent' : ∀ c ∈ indent'.toList, isSpace c) :
    normalizeListing (p.assembly ⟨indent, registers⟩) =
      normalizeListing (p.assembly ⟨indent', registers⟩) := by
  refine normalizeListing_congr ?_
  rw [codes_assembly hindent, codes_assembly hindent']

/-! ### Matching -/

section Matching

variable {engine : CheckEngine} {listing directives : String}

/-- A listing is matched if the engine takes the directives and passes the statements. -/
theorem matchListing_eq_ok : matchListing engine listing directives = .ok () ↔
    ∃ checker, engine.build directives = .ok checker ∧
      engine.check checker (normalizeListing listing) = .ok true := by
  rw [matchListing, Except.bind_eq_ok]
  refine exists_congr fun checker => and_congr_right fun _ => ?_
  rw [Except.bind_eq_ok]
  simp only [Except.mapError_eq_ok]
  constructor
  · rintro ⟨passed, hcheck, h⟩
    cases passed with
    | true => exact hcheck
    | false =>
      obtain ⟨_, _, hthrow⟩ := Except.bind_eq_ok.1 h
      cases hthrow
  · exact fun hcheck => ⟨true, hcheck, rfl⟩

/-- Listings with the same statements are matched alike. -/
theorem matchListing_congr (engine : CheckEngine) {s t : String}
    (h : normalizeListing s = normalizeListing t) (directives : String) :
    matchListing engine s directives = matchListing engine t directives := by
  rw [matchListing, matchListing, h]

/-- A test of assembly passes if its program is read, its listing is matched with one indentation,
and its integers have 64 bits. The other indentation makes no difference, and the listing is read
back if the integers are wide. -/
theorem TestCase.runAsm_eq_ok {test : TestCase} : test.runAsm engine = .ok () ↔
    ∃ p, test.readProgram = .ok p ∧
      matchListing engine (p.assembly {}) test.expected = .ok () ∧ ∀ op ∈ p, op.IsWide := by
  have htab : ∀ c ∈ "\t".toList, isSpace c := List.all_eq_true.1 (by decide)
  have hspaces : ∀ c ∈ "    ".toList, isSpace c := List.all_eq_true.1 (by decide)
  rw [runAsm, Except.bind_eq_ok]
  refine exists_congr fun p => and_congr_right fun _ => ?_
  have hindent : matchListing engine (p.assembly { indent := "    " }) test.expected =
      matchListing engine (p.assembly {}) test.expected :=
    matchListing_congr engine (normalizeListing_assembly p .abi hspaces htab) _
  obtain ⟨hback, hwide⟩ : parse .riscv (p.assembly {}) = .ok p.widen ∧
      (parse .riscv (p.assembly {}) = .ok p ↔ ∀ op ∈ p, op.IsWide) := parse_assembly htab p
  dsimp only
  rw [← hwide, hindent, hback]
  cases matchListing engine (p.assembly {}) test.expected with
  | error failure => simp [Except.mapError, bind, Except.bind]
  | ok =>
    by_cases hsame : p.widen = p <;>
      simp [Except.mapError, bind, Except.bind, hsame, throw, throwThe, MonadExceptOf.throw,
        pure, Except.pure]

end Matching

/-- A listing is normalized once and for all. It is read with any registry as the program that it
was read as before, and if it cannot be read, the message and the cause are the same as before. An
engine for checks matches it if it takes the directives and passes the normalized listing. A program
that is written gives the same normalized listing with every indentation made of white space, so
such an indentation makes no difference to any engine and any directives. -/
theorem normalizeListing_preserves {κ : Type} (registry : Registry κ) (text : String) (p : Program)
    (registers : RegisterStyle) {indent indent' : String} (hindent : ∀ c ∈ indent.toList, isSpace c)
    (hindent' : ∀ c ∈ indent'.toList, isSpace c) :
    normalizeListing (normalizeListing text) = normalizeListing text ∧
    (∀ q, parse registry (normalizeListing text) = .ok q ↔ parse registry text = .ok q) ∧
    (∀ e, parse registry text = .error e →
      ∃ e', parse registry (normalizeListing text) = .error e' ∧ e'.message = e.message ∧
        e'.cause? = e.cause?) ∧
    (∀ (engine : CheckEngine) (directives : String),
      matchListing engine text directives = .ok () ↔ ∃ checker,
        engine.build directives = .ok checker ∧
          engine.check checker (normalizeListing text) = .ok true) ∧
    normalizeListing (p.assembly ⟨indent, registers⟩) =
      normalizeListing (p.assembly ⟨indent', registers⟩) ∧
    ∀ (engine : CheckEngine) (directives : String),
      matchListing engine (p.assembly ⟨indent, registers⟩) directives =
        matchListing engine (p.assembly ⟨indent', registers⟩) directives := by
  have hcodes := codes_normalizeListing text
  obtain ⟨hok, herror⟩ := parse_eq_of_codes registry hcodes
  have hlisting := normalizeListing_assembly p registers hindent hindent'
  refine ⟨normalizeListing_congr hcodes, hok, fun e he => ?_, fun _ _ => matchListing_eq_ok,
    hlisting, fun engine => matchListing_congr engine hlisting⟩
  obtain ⟨e', he', hproblem⟩ := herror e he
  exact ⟨e', he', by rw [ParseError.message, ParseError.message, hproblem],
    by rw [ParseError.cause?, ParseError.cause?, hproblem]⟩

/-- An engine for directives that ask for a text behind the text found last. -/
def orderedEngine : CheckEngine where
  Builder := List (List Char)
  Checker := List (List Char)
  new := []
  directive patterns line :=
    .ok (patterns ++ ("check: ".toList.isPrefixOf? line.toList).toList)
  finish := id
  check patterns text := .ok (patterns.foldlM (flip afterFirst?) text.toList).isSome
  explain patterns text :=
    .ok ((patterns.foldlM (flip afterFirst?) text.toList).isSome, "not found in order")

/-- A wide space serves as indentation as well as a tab does, and instructions behind it are found
in their order. The listing has a quote that is never closed, so the hash behind it starts no
comment. -/
theorem normalizeListing_preserves_wide :
    parse .riscv (normalizeListing "\tret # done\n.ascii \" # \n") =
      .ok [.instruction ⟨.ret, .noOperands, rfl⟩, .directive ⟨"ascii", "\" #", by decide⟩] ∧
    normalizeListing (Program.assembly ⟨"\u3000", .numeric⟩
        [.instruction ⟨.mv, .rdRs ⟨10⟩ ⟨11⟩, rfl⟩, .instruction ⟨.ret, .noOperands, rfl⟩]) =
      normalizeListing (Program.assembly ⟨"\t", .numeric⟩
        [.instruction ⟨.mv, .rdRs ⟨10⟩ ⟨11⟩, rfl⟩, .instruction ⟨.ret, .noOperands, rfl⟩]) ∧
    matchListing orderedEngine (Program.assembly ⟨"\u3000", .numeric⟩
        [.instruction ⟨.mv, .rdRs ⟨10⟩ ⟨11⟩, rfl⟩, .instruction ⟨.ret, .noOperands, rfl⟩])
      "check: mv x10, x11\n\n  check: ret" = .ok () := by
  have hwide : ∀ c ∈ "\u3000".toList, isSpace c := List.all_eq_true.1 (by decide)
  have htab : ∀ c ∈ "\t".toList, isSpace c := List.all_eq_true.1 (by decide)
  let p : Program :=
    [.instruction ⟨.ret, .noOperands, rfl⟩, .directive ⟨"ascii", "\" #", by decide⟩]
  have hcodes : codes "\tret # done\n.ascii \" # \n".toList =
      codes (Program.assembly ⟨"\t", .numeric⟩ p).toList :=
    Eq.trans (by decide) (codes_assembly htab p).symm
  have hread := (parse_eq_of_codes .riscv hcodes).1 p
  obtain ⟨-, hok, -, -, hlisting, hmatch⟩ := normalizeListing_preserves .riscv
    "\tret # done\n.ascii \" # \n"
    [.instruction ⟨.mv, .rdRs ⟨10⟩ ⟨11⟩, rfl⟩, .instruction ⟨.ret, .noOperands, rfl⟩] .numeric hwide
    htab
  refine ⟨(hok p).2 (hread.2 ((parse_assembly_eq_ok Registry.knowsDialect_riscv htab).2 rfl)),
    hlisting, (hmatch orderedEngine _).trans ?_⟩
  exact matchListing_eq_ok.2 ⟨_, rfl, by decide⟩

end RiscvDialect
