import Mathlib.Data.List.Forall2
import RiscvDialect.Assembly.Parser
import RiscvDialect.Proofs.Text.Comment

/-!
# Assembly, statement by statement

A text of assembly means what its statements mean, in their order. Where the lines start and what
stands around their statements matters to the reports of failures only, so it is left behind here
once and for all: a text becomes the list of its statements, and a program is read from the text
when its ops are read from these, one from each.

## Main definitions

* `codeOf`: the statement on a line
* `codes`: the statements of a text

## Main statements

* `parse_eq_ok`: a text is read when its statements are
* `readLines_eq_error`: lines are not read if one of them is not
* `codes_append_of_isSpace`, `codes_append_newline`: the statements of a text, line by line
-/

namespace RiscvDialect.Assembly

open Text

/-- The statement on a line, without the comment and the white space around it. It is empty if there
is none. -/
def codeOf (line : List Char) : List Char :=
  trim (uncommented line)

/-- The statements of a text, one for each line that has one. -/
def codes (text : List Char) : List (List Char) :=
  ((lineContents text).map codeOf).filter (· ≠ [])

/-! ### Reading -/

variable {κ : Type} {registry : Registry κ}

/-- The op of a line is the op of its statement. The place of the line is irrelevant. -/
theorem readLine_eq_ok {start : Position} {line : List Char} {op? : Option Op} :
    readLine registry start line = .ok op? ↔
      if codeOf line = [] then op? = none
      else ∃ op, readCode registry (codeOf line) = .ok op ∧ op? = some op := by
  unfold readLine
  dsimp only
  split
  · next hcode => simp [codeOf, hcode, eq_comm]
  · next hcode =>
    rw [codeOf, if_neg hcode]
    split
    · next op hop => simp [hop, eq_comm]
    · next fault hfault => simp [hfault]

theorem readLines_eq_ok {start : Position} {ls : List Line} {p : Program} :
    readLines registry start ls = .ok p ↔
      List.Forall₂ (fun code op => readCode registry code = .ok op)
        ((ls.map fun line => codeOf line.content).filter (· ≠ [])) p := by
  induction ls generalizing start p with
  | nil => simp [readLines]
  | cons line later ih =>
    simp only [readLines, Except.bind_eq_ok, readLine_eq_ok, ih, pure, Except.pure,
      Except.ok.injEq, List.map_cons]
    by_cases hcode : codeOf line.content = []
    · simp [hcode]
    · simp only [hcode, if_false, ne_eq, decide_not, List.filter_cons, decide_false, Bool.not_false,
        if_true, List.forall₂_cons_left_iff]
      constructor
      · rintro ⟨_, ⟨op, hop, rfl⟩, ops, hops, rfl⟩
        exact ⟨op, ops, hop, hops, rfl⟩
      · rintro ⟨op, ops, hop, hops, rfl⟩
        exact ⟨_, ⟨op, hop, rfl⟩, ops, hops, rfl⟩

/-- A text is read as a program exactly if its statements are read as the ops, one by one. -/
theorem parse_eq_ok {text : String} {p : Program} :
    parse registry text = .ok p ↔
      List.Forall₂ (fun code op => readCode registry code = .ok op) (codes text.toList) p := by
  rw [parse, readLines_eq_ok, codes, lineContents, List.map_map]
  rfl

/-- If some lines are read, each of them is, wherever it starts. -/
theorem readLine_of_readLines {start : Position} {ls : List Line} {p : Program}
    (h : readLines registry start ls = .ok p) :
    ∀ line ∈ ls, ∃ op?, ∀ start', readLine registry start' line.content = .ok op? := by
  induction ls generalizing start p with
  | nil => simp
  | cons line later ih =>
    simp only [readLines, Except.bind_eq_ok] at h
    obtain ⟨op?, hop, ops, hops, -⟩ := h
    exact List.forall_mem_cons.2
      ⟨⟨op?, fun _ => readLine_eq_ok.2 (readLine_eq_ok.1 hop)⟩, ih hops⟩

/-- Some lines are not read if the first of them are and the next one is not. -/
theorem readLines_eq_error {start : Position} {front back : List Line} {line : Line}
    {e : ParseError}
    (hfront : ∀ l ∈ front, ∃ op?, ∀ start', readLine registry start' l.content = .ok op?)
    (h : readLine registry (start.advance (front.flatMap Line.text)) line.content = .error e) :
    readLines registry start (front ++ line :: back) = .error e := by
  induction front generalizing start with
  | nil =>
    rw [List.flatMap_nil, Position.advance_nil] at h
    rw [List.nil_append, readLines, h]
    rfl
  | cons first front ih =>
    rw [List.forall_mem_cons] at hfront
    obtain ⟨⟨op?, hop⟩, hfront⟩ := hfront
    rw [List.flatMap_cons, Position.advance_append] at h
    rw [List.cons_append, readLines, hop, ih hfront h]
    rfl

/-- Every op stands on a line. -/
theorem exists_line_of_mem {start : Position} {ls : List Line} {p : Program} {op : Op}
    (h : readLines registry start ls = .ok p) (hop : op ∈ p) :
    ∃ front line back, ls = front ++ line :: back ∧
      readCode registry (codeOf line.content) = .ok op := by
  induction ls generalizing start p with
  | nil =>
    cases h
    simp at hop
  | cons line later ih =>
    simp only [readLines, Except.bind_eq_ok, pure, Except.pure, Except.ok.injEq] at h
    obtain ⟨op?, hline, ops, hops, rfl⟩ := h
    rcases List.mem_append.1 hop with hop | hop
    · obtain rfl := Option.mem_toList.1 hop
      rw [readLine_eq_ok] at hline
      split at hline
      · cases hline
      · obtain ⟨_, hread, heq⟩ := hline
        cases heq
        exact ⟨[], line, later, rfl, hread⟩
    · obtain ⟨front, l, back, rfl, hread⟩ := ih hops hop
      exact ⟨line :: front, l, back, rfl, hread⟩

/-! ### The statements of a text -/

@[simp] theorem codeOf_nil : codeOf [] = [] := rfl

theorem codeOf_cons_of_isSpace {c : Char} (hc : isSpace c) (line : List Char) :
    codeOf (c :: line) = codeOf line := by
  have h := uncommented_append_of_isSpace (s := [c]) (by simpa using hc) line
  rw [codeOf, ← List.singleton_append, h, List.singleton_append, trim_cons_of_isSpace hc, codeOf]

theorem stops_reverse_codeOf (line : List Char) : Stops isSpace (codeOf line).reverse :=
  stops_reverse_trimEnd _

@[simp] theorem codes_nil : codes [] = [] := rfl

/-- A text without newlines is a line, so it has one statement at most. -/
theorem codes_of_notMem_newline {line : List Char} (hline : '\n' ∉ line) :
    codes line = if codeOf line = [] then [] else [codeOf line] := by
  by_cases hne : line = []
  · rw [hne]
    rfl
  · rw [codes, lineContents_of_notMem_newline hne hline]
    by_cases hcode : codeOf line = [] <;> simp [hcode]

@[simp] theorem codes_newline (text : List Char) : codes ('\n' :: text) = codes text := by
  simp [codes]

/-- White space in front of a text makes no statement and changes none. If it ends a line, the line
is blank; if not, it is lost with the other white space around the first statement. -/
theorem codes_cons_of_isSpace {c : Char} (hc : isSpace c) (text : List Char) :
    codes (c :: text) = codes text := by
  by_cases hnewline : c = '\n'
  · rw [hnewline, codes_newline]
  by_cases hreturn : c = '\r' ∧ text.head? = some '\n'
  · obtain ⟨rfl, htext⟩ := hreturn
    obtain ⟨later, rfl⟩ := List.head?_eq_some_iff.1 htext
    rw [codes, lineContents_return_newline, codes]
  · rw [codes, lineContents_cons hnewline fun h ht => hreturn ⟨h, ht⟩, codes]
    cases lineContents text with
    | nil => simp [codeOf_cons_of_isSpace hc]
    | cons line later => simp [codeOf_cons_of_isSpace hc]

theorem codes_append_of_isSpace {space : List Char} (hspace : ∀ c ∈ space, isSpace c)
    (text : List Char) : codes (space ++ text) = codes text := by
  induction space with
  | nil => rfl
  | cons c space ih =>
    rw [List.cons_append, codes_cons_of_isSpace (hspace c List.mem_cons_self),
      ih fun d hd => hspace d (List.mem_cons_of_mem _ hd)]

/-- A statement that has a line to itself is the first statement. -/
theorem codes_append_newline {code : List Char} (hne : code ≠ []) (hcode : codeOf code = code)
    (hnewline : '\n' ∉ code) (hend : Stops isSpace code.reverse) (text : List Char) :
    codes (code ++ '\n' :: text) = code :: codes text := by
  rw [codes, lineContents_append_newline hnewline hend, List.map_cons, hcode,
    List.filter_cons_of_pos (by simpa using hne), codes]

end RiscvDialect.Assembly
