import Mathlib.Combinatorics.Hall.Basic
import RiscvDialect.Proofs.TestFile.Cat
import RiscvDialect.Proofs.TestFile.Normalize

/-!
# Announced problems

A test of labels announces problems in comments, and it passes if there are as many problems as
announcements and the text of each announcement occurs in some problem. No announcement uses up a
problem in which its text occurs. So two of them may be content with the same problem, and then
another problem is left that nothing announces.

Whether the announcements can be assigned to the problems one to one is a question about marriages:
it is so exactly if any number of announcements occur in as many problems, taken together. The first
way to make sure of it is that no problem has the texts of two announcements.

## Main definitions

* `Announces`: the text of an announcement occurs in a problem
* `Satisfied`, `Matched`: announcements with which a test passes, and those that can be assigned
* `TestFile.verifierFile`: the test file for some ops with announcements

## Main statements

* `matched_iff`, `Satisfied.matched_of_separate`: when announcements can be assigned to problems
* `TestCase.runVerifier_eq_ok`, `TestKind.run_eq_ok`: when tests pass
* `TestFile.run_verifierFile`: when the file for some ops passes
* `matched_of_run`: what is known about the cases of a file that passes
-/

namespace RiscvDialect

open Text

/-! ### Texts in messages -/

/-- A text occurs in another as a part of it. -/
theorem occursIn_iff {pattern text : List Char} : occursIn pattern text ↔ pattern <:+: text := by
  rw [occursIn, Option.isSome_iff_exists]
  constructor
  · rintro ⟨rest, hrest⟩
    obtain ⟨before, rfl⟩ := afterFirst?_eq_some hrest
    exact ⟨before, rest, rfl⟩
  · rintro ⟨before, rest, rfl⟩
    induction before with
    | nil =>
      have hstarts : pattern.isPrefixOf? ([] ++ pattern ++ rest) = some rest :=
        List.isPrefixOf?_eq_some_iff_append_eq.2 rfl
      unfold afterFirst?
      exact ⟨rest, by rw [hstarts]⟩
    | cons c before ih =>
      rw [List.cons_append, List.cons_append, afterFirst?]
      split
      · next later _ => exact ⟨later, rfl⟩
      · exact ih

/-- The text of an announcement occurs in a problem. -/
def Announces (text : List Char) (problem : LabelProblem) : Prop :=
  text <:+: problem.message.toList

instance : DecidableRel Announces := fun _ _ =>
  inferInstanceAs (Decidable (_ <:+: _))

/-! ### Assigning announcements to problems -/

variable {texts : List (List Char)} {problems : List LabelProblem}

/-- There are as many problems as announcements, and each announcement occurs in some problem. -/
def Satisfied (texts : List (List Char)) (problems : List LabelProblem) : Prop :=
  problems.length = texts.length ∧ ∀ text ∈ texts, ∃ problem ∈ problems, Announces text problem

instance : Decidable (Satisfied texts problems) :=
  inferInstanceAs (Decidable (_ ∧ _))

/-- The announcements can be assigned to the problems in which they occur, one to one. -/
def Matched (texts : List (List Char)) (problems : List LabelProblem) : Prop :=
  ∃ assign : Fin texts.length ≃ Fin problems.length, ∀ i, Announces texts[i] problems[assign i]

/-- The problems in which an announcement occurs, by their places. -/
def problemsWith (problems : List LabelProblem) (text : List Char) :
    Finset (Fin problems.length) :=
  Finset.univ.filter fun j => Announces text problems[j]

@[simp] theorem mem_problemsWith {text : List Char} {j : Fin problems.length} :
    j ∈ problemsWith problems text ↔ Announces text problems[j] := by
  simp [problemsWith]

/-- Any announcements occur, taken together, in as many problems at least. -/
def Sufficient (texts : List (List Char)) (problems : List LabelProblem) : Prop :=
  ∀ chosen : Finset (Fin texts.length),
    chosen.card ≤ (chosen.biUnion fun i => problemsWith problems texts[i]).card

/-- No problem has the texts of two announcements. -/
def Separate (texts : List (List Char)) (problems : List LabelProblem) : Prop :=
  ∀ (i i' : Fin texts.length), ∀ problem ∈ problems,
    Announces texts[i] problem → Announces texts[i'] problem → i = i'

instance : Decidable (Separate texts problems) :=
  inferInstanceAs (Decidable (∀ _, _))

theorem matched_of_injective (hlength : problems.length = texts.length)
    {assign : Fin texts.length → Fin problems.length} (hassign : Function.Injective assign)
    (h : ∀ i, Announces texts[i] problems[assign i]) : Matched texts problems := by
  have hbijective : Function.Bijective assign :=
    (Fintype.bijective_iff_injective_and_card _).2 ⟨hassign, by simp [hlength]⟩
  exact ⟨.ofBijective assign hbijective, h⟩

/-- Announcements can be assigned to as many problems if they are sufficient for them. -/
theorem matched_iff (hlength : problems.length = texts.length) :
    Matched texts problems ↔ Sufficient texts problems := by
  rw [Sufficient, Finset.all_card_le_biUnion_card_iff_exists_injective]
  simp only [mem_problemsWith]
  constructor
  · rintro ⟨assign, h⟩
    exact ⟨assign, assign.injective, h⟩
  · rintro ⟨assign, hassign, h⟩
    exact matched_of_injective hlength hassign h

/-- Where no problem has the texts of two announcements, each announcement may take any problem in
which it occurs. -/
theorem Satisfied.matched_of_separate (h : Satisfied texts problems)
    (hseparate : Separate texts problems) : Matched texts problems := by
  have hsome (i : Fin texts.length) :
      ∃ j : Fin problems.length, Announces texts[i] problems[j] := by
    obtain ⟨problem, hproblem, hannounces⟩ := h.2 _ (List.getElem_mem i.2)
    obtain ⟨j, hj, rfl⟩ := List.mem_iff_getElem.1 hproblem
    exact ⟨⟨j, hj⟩, hannounces⟩
  choose assign hassign using hsome
  refine matched_of_injective h.1 (fun i i' heq => ?_) hassign
  exact hseparate i i' _ (List.getElem_mem _) (hassign i) (by rw [heq]; exact hassign i')

/-! ### Tests that pass -/

/-- No announcement is missing from the problems if each occurs in one. -/
theorem find?_missing_eq_none :
    texts.find? (fun text =>
        !problems.any fun problem => occursIn text problem.message.toList) = none ↔
      ∀ text ∈ texts, ∃ problem ∈ problems, Announces text problem := by
  simp only [List.find?_eq_none, Bool.not_eq_true', Bool.not_eq_false, List.any_eq_true,
    occursIn_iff, Announces]

theorem throw_ne_ok {ε α : Type} {e : ε} {a : α} : (throw e : Except ε α) ≠ .ok a :=
  nofun

/-- A test of labels passes if its program is read and its problems satisfy the announcements. That
nothing at all is announced makes no difference. -/
theorem TestCase.runVerifier_eq_ok {test : TestCase} {external : Bool} :
    test.runVerifier external = .ok () ↔ ∃ p, test.readProgram = .ok p ∧
      Satisfied test.announcedProblems (p.labelProblems external) := by
  rw [runVerifier, Except.bind_eq_ok]
  refine exists_congr fun p => and_congr_right fun _ => ?_
  generalize test.announcedProblems = texts
  generalize p.labelProblems external = problems
  have hmissing : _ ↔ ∀ text ∈ texts, ∃ problem ∈ problems, Announces text problem :=
    find?_missing_eq_none
  dsimp only
  split
  · next hnone =>
    obtain rfl := List.isEmpty_iff.1 hnone
    cases problems <;> simp [Satisfied, throw_ne_ok, pure, Except.pure]
  · next hsome =>
    split
    · next hnone =>
      obtain rfl := List.isEmpty_iff.1 hnone
      rw [List.isEmpty_iff] at hsome
      simp [Satisfied, eq_comm, hsome]
    · split
      · next hlength => simp [Satisfied, throw_ne_ok, hlength]
      · next hlength =>
        rw [Satisfied, ← hmissing, and_iff_right (not_not.1 hlength)]
        split
        · next hfind => simp [throw_ne_ok, hfind]
        · next hfind => simp [hfind, pure, Except.pure]

/-- What the command of a test of labels says about labels from elsewhere. -/
def TestCase.allowsExternal? (test : TestCase) : Option Bool :=
  if test.command = "test verifier" then some false
  else if test.command = "test verifier external" then some true
  else none

/-- A case of a test of labels passes if its command is one for such tests and the test passes. -/
theorem TestKind.runCase_verifier_eq_ok {test : TestCase} :
    TestKind.verifier.runCase test = .ok () ↔
      ∃ external, test.allowsExternal? = some external ∧ test.runVerifier external = .ok () := by
  unfold runCase TestCase.allowsExternal?
  split <;> simp_all

/-- A file passes if it has cases and each of them passes. -/
theorem TestKind.run_eq_ok {kind : TestKind} {content : String} :
    kind.run content = .ok () ↔ TestFile.cases content ≠ [] ∧
      ∀ test ∈ TestFile.cases content, kind.runCase test = .ok () := by
  unfold run
  split
  · next hnone => simp [hnone]
  · next hsome =>
    exact ⟨fun h => ⟨hsome, TestFile.forall_of_forM h⟩, fun h => TestFile.forM_eq_ok h.2⟩

/-! ### Files with announcements -/

namespace TestFile

open Generic Generic.Grammar

/-- The line of an op, with an announcement behind it if there is one. -/
def announcedLine (op : Op) : Option String → List Char
  | none => opLine op
  | some text => opLine op ++ ' ' :: (TestCase.announcement ++ ' ' :: text.toList)

/-- A program with announcements, line by line. -/
def announcedLines (ops : List (Op × Option String)) : List (List Char) :=
  "module \x7b".toList :: ops.map (fun (op, text?) => announcedLine op text?) ++ [['}']]

/-- The command of a test of labels, with or without labels from elsewhere. -/
def verifierCommand (external : Bool) : String :=
  if external then "test verifier external" else "test verifier"

/-- A file with one test of labels. -/
def verifierFile (external : Bool) (ops : List (Op × Option String)) : String :=
  String.ofList (endLines ((verifierCommand external).toList :: announcedLines ops))

/-- The announcement comes back as the first one on the line of the op: there is no slash in the op,
the announced text is all that is left of it by a reader, and nothing in it matters to the scan for
braces. -/
structure Announceable (op : Op) (text? : Option String) : Prop where
  slash_notMem : '/' ∉ op.generic.toList
  ne_nil : ∀ text ∈ text?, text.toList ≠ []
  trim_eq : ∀ text ∈ text?, trim text.toList = text.toList
  inert : ∀ text ∈ text?, ∀ c ∈ text.toList, c ≠ '\n' ∧ c ≠ '"' ∧ c ≠ '{' ∧ c ≠ '}'

instance (op : Op) (text? : Option String) : Decidable (Announceable op text?) :=
  decidable_of_iff
    ('/' ∉ op.generic.toList ∧ (∀ text ∈ text?, text.toList ≠ []) ∧
      (∀ text ∈ text?, trim text.toList = text.toList) ∧
      ∀ text ∈ text?, ∀ c ∈ text.toList, c ≠ '\n' ∧ c ≠ '"' ∧ c ≠ '{' ∧ c ≠ '}')
    ⟨fun ⟨hslash, hne, htrim, hinert⟩ => ⟨hslash, hne, htrim, hinert⟩,
      fun ⟨hslash, hne, htrim, hinert⟩ => ⟨hslash, hne, htrim, hinert⟩⟩

variable {op : Op} {text? : Option String} {ops : List (Op × Option String)}

theorem inert_announcedLine (h : Announceable op text?) : Inert (announcedLine op text?) := by
  cases text? with
  | none => exact inert_opLine op
  | some text =>
    have hstart : Inert (' ' :: (TestCase.announcement ++ [' '])) :=
      inert_of_forall_ne (by decide)
    have htext : Inert text.toList := inert_of_forall_ne (h.inert text rfl)
    have hline := (inert_opLine op).append (hstart.append htext)
    simpa [announcedLine] using hline

theorem endsSolid_announcedLine (h : Announceable op text?) :
    Assembly.EndsSolid (announcedLine op text?) := by
  cases text? with
  | none => exact (endsSolid_generic op).append [' ', ' ']
  | some text =>
    have hend : Assembly.EndsSolid text.toList :=
      Assembly.endsSolid_of_stops_reverse (h.ne_nil text rfl)
        (trim_eq_self_iff.1 (h.trim_eq text rfl)).2
    simpa [announcedLine] using
      hend.append (opLine op ++ ' ' :: (TestCase.announcement ++ [' ']))

/-- A text is found behind a part that lacks its first character. -/
theorem afterFirst?_append {c : Char} {pattern part : List Char} (hpart : c ∉ part)
    (rest : List Char) :
    afterFirst? (c :: pattern) (part ++ (c :: pattern ++ rest)) = some rest := by
  induction part with
  | nil =>
    have hstarts : (c :: pattern).isPrefixOf? (c :: pattern ++ rest) = some rest :=
      List.isPrefixOf?_eq_some_iff_append_eq.2 rfl
    rw [List.nil_append]
    unfold afterFirst?
    rw [hstarts]
  | cons d part ih =>
    rw [List.mem_cons, not_or] at hpart
    have hstarts : (c :: pattern).isPrefixOf? (d :: (part ++ (c :: pattern ++ rest))) = none := by
      simp [List.isPrefixOf?, hpart.1]
    rw [List.cons_append, afterFirst?, hstarts]
    exact ih hpart.2

theorem afterFirst?_announcedLine (h : Announceable op text?) :
    (afterFirst? TestCase.announcement (announcedLine op text?)).map trim =
      text?.map String.toList := by
  have hslash : '/' ∉ opLine op := by simpa [opLine] using h.slash_notMem
  cases text? with
  | none =>
    have hnone : ¬ occursIn TestCase.announcement (opLine op) := fun hoccurs =>
      hslash ((occursIn_iff.1 hoccurs).subset (by decide))
    rw [occursIn, Option.not_isSome_iff_eq_none] at hnone
    rw [announcedLine, hnone]
    rfl
  | some text =>
    have hline : announcedLine op (some text) =
        (opLine op ++ [' ']) ++ (TestCase.announcement ++ ' ' :: text.toList) := by
      simp [announcedLine]
    have hpart : '/' ∉ opLine op ++ [' '] := by simpa using hslash
    have hfirst : afterFirst? TestCase.announcement (announcedLine op (some text)) =
        some (' ' :: text.toList) := by
      rw [hline]
      exact afterFirst?_append hpart _
    rw [hfirst, Option.map_some, trim_cons_of_isSpace (by decide), h.trim_eq text rfl]
    rfl

/-- What follows an op on its line is blank. -/
theorem exists_blank_announcedLine (h : Announceable op text?) {rest laterText : List Char}
    (hrest : Blank rest laterText) : ∃ afterOp, Blank afterOp laterText ∧
      announcedLine op text? ++ '\n' :: rest = ' ' :: ' ' :: (op.generic.toList ++ afterOp) := by
  have hnewline : Blank ('\n' :: rest) laterText := .space (by decide) hrest
  cases text? with
  | none => exact ⟨'\n' :: rest, hnewline, by simp [announcedLine, opLine]⟩
  | some text =>
    have hslashes : TestCase.announcement = '/' :: '/' :: " error:".toList := by decide
    have hbody : '\n' ∉ " error:".toList ++ ' ' :: text.toList := by
      rw [List.mem_append, List.mem_cons, not_or, not_or]
      exact ⟨by decide, by decide, fun hmem => (h.inert text rfl _ hmem).1 rfl⟩
    have hcomment : Blank ('/' :: '/' :: (" error:".toList ++ ' ' :: text.toList ++ '\n' :: rest))
        laterText := .comment hbody (by simp) hnewline
    refine ⟨_, (blank_space _).trans hcomment, ?_⟩
    rw [announcedLine, hslashes, opLine]
    simp only [List.cons_append, List.append_assoc]

variable (hops : ∀ line ∈ ops, Announceable line.1 line.2)
include hops

/-- The lines hold no newline, and end where they seem to. -/
theorem announcedLines_intact {line : List Char} (h : line ∈ announcedLines ops) :
    '\n' ∉ line ∧ Assembly.EndsSolid line := by
  rw [announcedLines, List.mem_append, List.mem_cons, List.mem_map, List.mem_singleton] at h
  rcases h with (rfl | ⟨⟨op, text?⟩, hop, rfl⟩) | rfl
  · exact ⟨by decide, "module ".toList, '{', rfl, by decide⟩
  · exact ⟨(inert_announcedLine (hops _ hop)).newline_notMem, endsSolid_announcedLine (hops _ hop)⟩
  · exact ⟨by decide, [], '}', rfl, by decide⟩

theorem takeProgram_announcedLines (rest : List (List Char)) :
    takeProgram 0 (announcedLines ops ++ rest) = (announcedLines ops, rest) := by
  have hlines : ∀ line ∈ ops.map (fun (op, text?) => announcedLine op text?),
      braceBalance line = 0 := by
    intro line hline
    obtain ⟨⟨op, text?⟩, hop, rfl⟩ := List.mem_map.1 hline
    have h := (inert_announcedLine (hops _ hop)).braceBalance_append []
    rwa [List.append_nil] at h
  have hmodule : braceBalance "module \x7b".toList = 1 := by decide
  have hopen : ¬ ((0 : Int) + 1 ≤ 0 ∧ '}' ∈ "module \x7b".toList) := by decide
  rw [announcedLines, List.append_assoc, List.cons_append, List.singleton_append, takeProgram,
    hmodule, if_neg hopen, Int.zero_add, takeProgram_of_braceBalance_eq_zero hlines]
  rfl

theorem casesFrom_announcedLines (command : String) :
    casesFrom command (announcedLines ops) =
      [⟨command, joinLines (announcedLines ops), ""⟩] := by
  have hmodule : startsWith "module" "module \x7b".toList := by decide
  have hnil : casesFrom command [] = [] := by rw [casesFrom]
  have hcut := takeProgram_announcedLines hops []
  obtain ⟨later, hlater⟩ : ∃ later, announcedLines ops = "module \x7b".toList :: later := ⟨_, rfl⟩
  rw [hlater, List.append_nil] at hcut
  rw [hlater, casesFrom, if_pos hmodule, hcut]
  exact congrArg _ hnil

theorem lineContents_file {command : String} (hnewline : '\n' ∉ command.toList)
    (hend : Assembly.EndsSolid command.toList) :
    lineContents (String.ofList (endLines (command.toList :: announcedLines ops))).toList =
      command.toList :: announcedLines ops := by
  have hlines : ∀ line ∈ command.toList :: announcedLines ops,
      '\n' ∉ line ∧ Stops isSpace line.reverse :=
    List.forall_mem_cons.2 ⟨⟨hnewline, hend.stops_reverse⟩, fun line hline =>
      (announcedLines_intact hops hline).imp_right Assembly.EndsSolid.stops_reverse⟩
  rw [String.toList_ofList, ← List.append_nil (endLines _), lineContents_endLines_append hlines,
    lineContents_nil, List.append_nil]

/-- A file with one test has one case, with the lines of the program. -/
theorem cases_verifierFile (external : Bool) : cases (verifierFile external ops) =
    [⟨verifierCommand external, joinLines (announcedLines ops), ""⟩] := by
  have hnewline : '\n' ∉ (verifierCommand external).toList := by cases external <;> decide
  have hend : Assembly.EndsSolid (verifierCommand external).toList := by
    cases external
    · exact ⟨"test verifie".toList, 'r', rfl, by decide⟩
    · exact ⟨"test verifier externa".toList, 'l', rfl, by decide⟩
  have hstart : startsWith "test " (verifierCommand external).toList := by
    cases external <;> decide
  have htrim : String.ofList (trim (verifierCommand external).toList) =
      verifierCommand external := by cases external <;> decide
  rw [cases, verifierFile, lineContents_file hops hnewline hend,
    List.dropWhile_cons_of_neg (by simp [hstart])]
  dsimp only
  rw [htrim, casesFrom_announcedLines hops]

theorem mem_cases_verifierFile (external : Bool) :
    ⟨verifierCommand external, joinLines (announcedLines ops), ""⟩ ∈
      cases (verifierFile external ops) := by
  rw [cases_verifierFile hops]
  exact List.mem_cons_self

/-! ### Reading the program -/

theorem opsText_announcedLines (rest : List Char) :
    ∃ opsText, Blank (endLines (ops.map fun (op, text?) => announcedLine op text?) ++ '}' :: rest)
        opsText ∧
      OpsText Registration.InDialect opsText (ops.map Prod.fst) rest := by
  induction ops with
  | nil => exact ⟨'}' :: rest, .nothing _, .close rest⟩
  | cons first later ih =>
    obtain ⟨op, text?⟩ := first
    rw [List.forall_mem_cons] at hops
    obtain ⟨laterText, hblank, hlater⟩ := ih hops.2
    obtain ⟨afterOp, hafter, hline⟩ := exists_blank_announcedLine hops.1 hblank
    have hop := OpsText.op (opText_generic op _) hafter hlater
    refine ⟨_, ?_, hop⟩
    rw [List.map_cons, endLines_cons, List.append_assoc, List.cons_append, hline]
    exact (blank_space _).trans (blank_space _)

theorem readProgram_announcedLines (command : String) :
    TestCase.readProgram ⟨command, joinLines (announcedLines ops), ""⟩ =
      .ok (ops.map Prod.fst) := by
  obtain ⟨opsText, hblank, hopsText⟩ := opsText_announcedLines hops []
  rw [← Registry.knows_riscv] at hopsText
  have htext : (joinLines (announcedLines ops)).toList = "module".toList ++ ' ' :: '{' :: '\n' ::
      (endLines (ops.map fun (op, text?) => announcedLine op text?) ++ ['}']) := by
    rw [announcedLines, joinLines_append_singleton, String.toList_ofList, endLines_cons]
    simp
  have hend : Assembly.EndsSolid (joinLines (announcedLines ops)).toList := by
    rw [announcedLines, joinLines_append_singleton, String.toList_ofList]
    exact ⟨_, '}', rfl, by decide⟩
  have hstart : Stops isSpace (joinLines (announcedLines ops)).toList := by
    rw [htext]
    exact stops_cons.2 (by decide)
  have hread := readProgram_of_opsText (blank_space _) (.space (c := '\n') (by decide) hblank)
    hopsText
  rw [← htext] at hread
  have hparse := parseWhole_of_isSolid (c := 'm') htext (by decide) hread rfl
  rw [TestCase.readProgram, trim_eq_self_iff.2 ⟨hstart, hend.stops_reverse⟩, String.ofList_toList,
    Generic.parseProgram, hparse]
  rfl

/-- The texts that some lines announce. -/
theorem announcedProblems_announcedLines (command : String) :
    TestCase.announcedProblems ⟨command, joinLines (announcedLines ops), ""⟩ =
      ops.filterMap fun (_, text?) => text?.map String.toList := by
  have hlines : ∀ line ∈ announcedLines ops, line ≠ [] ∧ '\n' ∉ line ∧ Stops isSpace line.reverse :=
    fun line hline =>
      have h := announcedLines_intact hops hline
      ⟨h.2.ne_nil, h.1, h.2.stops_reverse⟩
  have hmodule : afterFirst? TestCase.announcement "module \x7b".toList = none := by decide
  have hclose : afterFirst? TestCase.announcement ['}'] = none := by decide
  rw [TestCase.announcedProblems, lineContents_joinLines hlines, announcedLines]
  simp only [List.cons_append, List.filterMap_cons, List.filterMap_append, List.filterMap_nil,
    hmodule, hclose, Option.map_none, List.append_nil, List.filterMap_map]
  exact List.filterMap_congr fun line hline => afterFirst?_announcedLine (hops line hline)

/-- A file that is made from ops and announcements passes if the problems satisfy these. -/
theorem run_verifierFile (external : Bool) :
    TestKind.verifier.run (verifierFile external ops) = .ok () ↔
      Satisfied (ops.filterMap fun (_, text?) => text?.map String.toList)
        (Program.labelProblems (ops.map Prod.fst) external) := by
  have hexternal : TestCase.allowsExternal?
      ⟨verifierCommand external, joinLines (announcedLines ops), ""⟩ = some external := by
    cases external <;> rfl
  rw [TestKind.run_eq_ok, cases_verifierFile hops, List.forall_mem_singleton,
    TestKind.runCase_verifier_eq_ok]
  simp only [hexternal, TestCase.runVerifier_eq_ok, readProgram_announcedLines hops,
    announcedProblems_announcedLines hops]
  simp

end TestFile

open TestFile (verifierFile run_verifierFile)

/-- In a file of tests of labels that passes, every program is read and its problems satisfy the
announcements. These can be assigned to the problems one to one exactly if they are sufficient, and
they are if no problem has the texts of two of them. -/
theorem matched_of_run {content : String} (h : TestKind.verifier.run content = .ok ())
    {test : TestCase} (htest : test ∈ TestFile.cases content) :
    ∃ external p, test.allowsExternal? = some external ∧ test.readProgram = .ok p ∧
      let problems := p.labelProblems external
      Satisfied test.announcedProblems problems ∧
      (Matched test.announcedProblems problems ↔ Sufficient test.announcedProblems problems) ∧
      (Separate test.announcedProblems problems → Matched test.announcedProblems problems) := by
  obtain ⟨external, hexternal, hrun⟩ :=
    TestKind.runCase_verifier_eq_ok.1 ((TestKind.run_eq_ok.1 h).2 test htest)
  obtain ⟨p, hp, hsatisfied⟩ := TestCase.runVerifier_eq_ok.1 hrun
  exact ⟨external, p, hexternal, hp, hsatisfied, matched_iff hsatisfied.1,
    hsatisfied.matched_of_separate⟩

/-- The announcements stand in the order of the program and the problems do not. -/
theorem matched_of_run_swapped : ∃ content,
    content = verifierFile false
      [(.instruction ⟨.jal, .rdOff ⟨1⟩ (.label ⟨"exit", by decide⟩), rfl⟩, some "exit"),
        (.label ⟨"a", by decide⟩, none), (.label ⟨"a", by decide⟩, some "Label 'a'")] ∧
    TestKind.verifier.run content = .ok () ∧
    ∃ test ∈ TestFile.cases content, ∃ p, test.readProgram = .ok p ∧
      Matched test.announcedProblems (p.labelProblems false) := by
  let ops : List (Op × Option String) :=
    [(.instruction ⟨.jal, .rdOff ⟨1⟩ (.label ⟨"exit", by decide⟩), rfl⟩, some "exit"),
      (.label ⟨"a", by decide⟩, none), (.label ⟨"a", by decide⟩, some "Label 'a'")]
  have hops : ∀ line ∈ ops, TestFile.Announceable line.1 line.2 := by decide
  have hrun : TestKind.verifier.run (verifierFile false ops) = .ok () :=
    (run_verifierFile hops false).2 (by decide)
  have hmem := TestFile.mem_cases_verifierFile hops false
  have hseparate : Separate (ops.filterMap fun (_, text?) => text?.map String.toList)
      (Program.labelProblems (ops.map Prod.fst) false) := by decide
  obtain ⟨external, p, hexternal, hp, -, -, hmatched⟩ := matched_of_run hrun hmem
  obtain rfl : false = external := Option.some.inj hexternal
  rw [TestFile.announcedProblems_announcedLines hops] at hmatched
  obtain rfl : ops.map Prod.fst = p :=
    Except.ok.inj ((TestFile.readProgram_announcedLines hops _).symm.trans hp)
  refine ⟨_, rfl, hrun, _, hmem, _, hp, ?_⟩
  rw [TestFile.announcedProblems_announcedLines hops]
  exact hmatched hseparate

/-- Both announcements are content with the undefined label, and nothing announces that a label is
defined again. -/
theorem not_matched_of_run : ∃ content,
    content = verifierFile false
      [(.instruction ⟨.jal, .rdOff ⟨1⟩ (.label ⟨"exit", by decide⟩), rfl⟩, some "undefined label"),
        (.label ⟨"a", by decide⟩, none), (.label ⟨"a", by decide⟩, some "undefined label")] ∧
    TestKind.verifier.run content = .ok () ∧
    ∃ test ∈ TestFile.cases content, ∃ p, test.allowsExternal? = some false ∧
      test.readProgram = .ok p ∧ ¬ Matched test.announcedProblems (p.labelProblems false) := by
  let ops : List (Op × Option String) :=
    [(.instruction ⟨.jal, .rdOff ⟨1⟩ (.label ⟨"exit", by decide⟩), rfl⟩, some "undefined label"),
      (.label ⟨"a", by decide⟩, none), (.label ⟨"a", by decide⟩, some "undefined label")]
  have hops : ∀ line ∈ ops, TestFile.Announceable line.1 line.2 := by decide
  have hrun : TestKind.verifier.run (verifierFile false ops) = .ok () :=
    (run_verifierFile hops false).2 (by decide)
  have hmem := TestFile.mem_cases_verifierFile hops false
  refine ⟨_, rfl, hrun, _, hmem, _, rfl, TestFile.readProgram_announcedLines hops _, ?_⟩
  rw [TestFile.announcedProblems_announcedLines hops, matched_iff (by decide)]
  -- the two announcements occur, taken together, in one problem
  exact fun hsufficient => absurd (hsufficient Finset.univ) (by decide)

end RiscvDialect
