import RiscvDialect.Proofs.Generic.RoundTrip
import RiscvDialect.Proofs.TestFile.Generic
import RiscvDialect.TestFile.Run

/-!
# Written programs pass their own test

A test file can be made from any programs: each is written twice, as itself and as what is expected
of it, behind semicolons. Such a file is cut into the cases that it was made from, and it passes. A
program ends with its closing brace, since the lines of its ops leave the brace of the module open,
and what is expected of it ends with a blank line.

## Main definitions

* `TestFile.catFile`: the test file for some programs

## Main statements

* `TestFile.takeProgram_moduleLines`, `TestFile.takeExpected_commented`: where a program ends, and
  what is expected of it
* `TestFile.casesFrom_catLines`: the cases of the file
* `TestFile.run_catFile`: the cases of the file, and that it passes
-/

namespace RiscvDialect.TestFile

open Text

/-! ### The file -/

/-- A line as one of expectations. -/
def commented (line : List Char) : List Char :=
  ';' :: ' ' :: line

/-- The lines for a program: its own, the same as expectations, and a blank one. -/
def catLines (p : Program) : List (List Char) :=
  let ls := lineContents p.generic.toList
  ls ++ ls.map commented ++ [[]]

/-- The test file for some programs. -/
def catFile (ps : List Program) : String :=
  String.ofList (endLines ("test cat".toList :: ps.flatMap catLines))

/-! ### Cutting a program off -/

/-- While a brace is open, lines that keep the balance do not end a program. -/
theorem takeProgram_of_braceBalance_eq_zero {ls : List (List Char)}
    (h : ∀ line ∈ ls, braceBalance line = 0) (rest : List (List Char)) :
    takeProgram 1 (ls ++ ['}'] :: rest) = (ls ++ [['}']], rest) := by
  induction ls with
  | nil => rfl
  | cons line ls ih =>
    rw [List.forall_mem_cons] at h
    rw [List.cons_append, takeProgram, h.1, Int.add_zero, if_neg (by simp), ih h.2,
      List.cons_append]

theorem takeProgram_moduleLines (p : Program) (rest : List (List Char)) :
    takeProgram 0 (moduleLines p ++ rest) = (moduleLines p, rest) := by
  have hops : ∀ line ∈ p.map opLine, braceBalance line = 0 := by
    intro line hline
    obtain ⟨op, -, rfl⟩ := List.mem_map.1 hline
    have h := (inert_opLine op).braceBalance_append []
    rwa [List.append_nil] at h
  have hmodule : braceBalance "module \x7b".toList = 1 := by decide
  have hopen : ¬ ((0 : Int) + 1 ≤ 0 ∧ '}' ∈ "module \x7b".toList) := by decide
  rw [moduleLines, List.append_assoc, List.cons_append, List.singleton_append, takeProgram, hmodule,
    if_neg hopen, Int.zero_add, takeProgram_of_braceBalance_eq_zero hops]
  rfl

/-! ### Cutting expectations off -/

theorem trim_commented {line : List Char} (h : Assembly.EndsSolid line) :
    trim (commented line) = commented line := by
  have hend := (h.append [';', ' ']).stops_reverse
  exact trim_eq_self_iff.2 ⟨stops_cons.2 (by decide), hend⟩

theorem isExpectation_commented {line : List Char} (h : Assembly.EndsSolid line) :
    isExpectation (commented line) := by
  rw [isExpectation, startsWith, trim_commented h]
  rfl

theorem expectationText_commented {line : List Char} (h : Assembly.EndsSolid line) :
    expectationText (commented line) = line := by
  rw [expectationText, trim_commented h]
  rfl

/-- The expectations are the lines behind the semicolons, up to the blank line. -/
theorem takeExpected_commented {ls : List (List Char)} (hne : ls ≠ [])
    (h : ∀ line ∈ ls, Assembly.EndsSolid line) (rest : List (List Char)) :
    takeExpected (ls.map commented ++ [] :: rest) = (ls, [] :: rest) := by
  have hexpectations : ∀ line ∈ ls.map commented, isExpectation line := by
    intro line hline
    obtain ⟨text, htext, rfl⟩ := List.mem_map.1 hline
    exact isExpectation_commented (h text htext)
  have hstart : (ls.map commented ++ [] :: rest).dropWhile (fun line => (trim line).isEmpty) =
      ls.map commented ++ [] :: rest := by
    obtain ⟨line, later, rfl⟩ := List.exists_cons_of_ne_nil hne
    rw [List.map_cons, List.cons_append, List.dropWhile_cons_of_neg]
    rw [trim_commented (h line List.mem_cons_self)]
    exact Bool.false_ne_true
  have htexts : (ls.map commented).map expectationText = ls := by
    rw [List.map_map]
    calc ls.map (expectationText ∘ commented) = ls.map id :=
          List.map_congr_left fun line hline => expectationText_commented (h line hline)
      _ = ls := List.map_id ls
  have hblank : ¬ isExpectation [] := by decide
  rw [takeExpected, hstart, List.takeWhile_append_of_pos hexpectations,
    List.dropWhile_append_of_pos hexpectations, List.takeWhile_cons_of_neg hblank,
    List.dropWhile_cons_of_neg hblank, List.append_nil, htexts]

/-! ### The cases -/

theorem casesFrom_catLines_append (command : String) (p : Program) (rest : List (List Char)) :
    casesFrom command (catLines p ++ rest) =
      ⟨command, p.generic, p.generic⟩ :: casesFrom command rest := by
  have hmodule : startsWith "module" "module \x7b".toList := by decide
  have hblank : casesFrom command ([] :: rest) = casesFrom command rest := by
    rw [casesFrom, if_neg (by decide)]
  have hlines : catLines p ++ rest =
      moduleLines p ++ ((moduleLines p).map commented ++ [] :: rest) := by
    rw [catLines, lineContents_generic, List.append_assoc, List.append_assoc,
      List.singleton_append]
  have hsolid : ∀ line ∈ moduleLines p, Assembly.EndsSolid line :=
    fun line hline => (moduleLines_intact hline).2
  obtain ⟨later, hlater⟩ : ∃ later, moduleLines p = "module \x7b".toList :: later := ⟨_, rfl⟩
  have hcut := takeProgram_moduleLines p ((moduleLines p).map commented ++ [] :: rest)
  have hexpected := takeExpected_commented (by simp [hlater]) hsolid rest
  rw [hlines]
  rw [hlater, List.cons_append] at hcut ⊢
  rw [casesFrom, if_pos hmodule, hcut]
  dsimp only
  rw [← hlater, hexpected, joinLines_moduleLines, hblank]

theorem casesFrom_flatMap_catLines (command : String) (ps : List Program) :
    casesFrom command (ps.flatMap catLines) =
      ps.map fun p => ⟨command, p.generic, p.generic⟩ := by
  induction ps with
  | nil => rw [List.flatMap_nil, casesFrom, List.map_nil]
  | cons p ps ih => rw [List.flatMap_cons, casesFrom_catLines_append, ih, List.map_cons]

/-- The lines for a program hold no newline, and end where they seem to. -/
theorem catLines_intact {p : Program} {line : List Char} (h : line ∈ catLines p) :
    '\n' ∉ line ∧ Stops isSpace line.reverse := by
  rw [catLines, lineContents_generic, List.mem_append, List.mem_append, List.mem_map,
    List.mem_singleton] at h
  rcases h with (h | ⟨text, h, rfl⟩) | rfl
  · obtain ⟨hnewline, hend⟩ := moduleLines_intact h
    exact ⟨hnewline, hend.stops_reverse⟩
  · obtain ⟨hnewline, hend⟩ := moduleLines_intact h
    exact ⟨by simpa [commented] using hnewline, (hend.append [';', ' ']).stops_reverse⟩
  · exact ⟨List.not_mem_nil, stops_nil⟩

theorem lineContents_catFile (ps : List Program) :
    lineContents (catFile ps).toList = "test cat".toList :: ps.flatMap catLines := by
  have hlines : ∀ line ∈ "test cat".toList :: ps.flatMap catLines,
      '\n' ∉ line ∧ Stops isSpace line.reverse := by
    have hheader : Assembly.EndsSolid "test cat".toList := ⟨"test ca".toList, 't', rfl, by decide⟩
    refine List.forall_mem_cons.2 ⟨⟨by decide, hheader.stops_reverse⟩, fun line hline => ?_⟩
    obtain ⟨p, -, hp⟩ := List.mem_flatMap.1 hline
    exact catLines_intact hp
  rw [catFile, String.toList_ofList, ← List.append_nil (endLines _),
    lineContents_endLines_append hlines, lineContents_nil, List.append_nil]

theorem cases_catFile (ps : List Program) :
    cases (catFile ps) = ps.map fun p => ⟨"test cat", p.generic, p.generic⟩ := by
  rw [cases_of_lineContents (lineContents_catFile ps), casesFrom_flatMap_catLines]

/-! ### Running the file -/

theorem trim_generic (p : Program) : trim p.generic.toList = p.generic.toList := by
  refine trim_eq_self_iff.2 ⟨?_, ?_⟩
  · simp [Program.generic]
    decide
  · rw [toList_generic]
    simp
    decide

theorem runCat_generic (command : String) (p : Program) :
    TestCase.runCat ⟨command, p.generic, p.generic⟩ = .ok () := by
  have hread := Generic.Grammar.parseProgram_generic p
  simp [TestCase.runCat, TestCase.readProgram, trim_generic, hread, Except.mapError, bind,
    Except.bind, pure, Except.pure]

theorem forM_eq_ok {α ε : Type} {f : α → Except ε Unit} {l : List α}
    (h : ∀ a ∈ l, f a = .ok ()) : l.forM f = .ok () := by
  induction l with
  | nil => rfl
  | cons a l ih =>
    rw [List.forall_mem_cons] at h
    rw [List.forM, h.1]
    exact ih h.2

/-- The steps of a row pass if the row does. -/
theorem forall_of_forM {α ε : Type} {f : α → Except ε Unit} {l : List α}
    (h : l.forM f = .ok ()) : ∀ a ∈ l, f a = .ok () := by
  induction l with
  | nil => simp
  | cons a l ih =>
    obtain ⟨⟨⟩, ha, hl⟩ := Except.bind_eq_ok.1 h
    exact List.forall_mem_cons.2 ⟨ha, ih hl⟩

/-- The test file for some programs has one case for each of them, in their order, which expects the
program to be printed as it stands there; and the file passes. -/
theorem run_catFile {ps : List Program} (hne : ps ≠ []) :
    cases (catFile ps) = ps.map (fun p => ⟨"test cat", p.generic, p.generic⟩) ∧
      TestKind.run .cat (catFile ps) = .ok () := by
  refine ⟨cases_catFile ps, ?_⟩
  have hrun : (ps.map fun p => (⟨"test cat", p.generic, p.generic⟩ : TestCase)).forM
      (TestKind.runCase .cat) = .ok () := by
    refine forM_eq_ok fun test htest => ?_
    obtain ⟨p, -, rfl⟩ := List.mem_map.1 htest
    exact runCat_generic "test cat" p
  obtain ⟨p, later, rfl⟩ := List.exists_cons_of_ne_nil hne
  rw [TestKind.run, cases_catFile]
  exact hrun

/-- The string of a directive holds a closing brace, a semicolon and a quote. -/
theorem run_catFile_directive :
    [[Op.directive ⟨"ascii", "\"\x7d; \\\"\"", by decide⟩], []] ≠ [] ∧
      TestKind.run .cat (catFile [[.directive ⟨"ascii", "\"\x7d; \\\"\"", by decide⟩], []]) =
        .ok () :=
  ⟨List.cons_ne_nil _ _, (run_catFile (List.cons_ne_nil _ _)).2⟩

end RiscvDialect.TestFile
