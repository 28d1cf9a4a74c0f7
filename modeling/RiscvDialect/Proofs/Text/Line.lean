import Mathlib.Data.List.Flatten
import RiscvDialect.Proofs.Text.Run
import RiscvDialect.Text.Line
import RiscvDialect.Text.Position
import RiscvDialect.Text.Space

/-!
# Lines and the white space around them

Of a line of assembly, the white space at both ends does not count. The facts below say when a line
keeps everything, and what it keeps otherwise. A text is cut at its newlines; a carriage return goes
with the newline after it.

## Main statements

* `trim_eq_self_iff`: a text without white space at its ends
* `trimStart_trimEnd`: the order in which the two ends are trimmed
* `lineContents_append_newline`: the first line of a text
-/

namespace RiscvDialect.Text

/-! ### White space -/

theorem trim_cons_of_isSpace {c : Char} (hc : isSpace c) (text : List Char) :
    trim (c :: text) = trim text := by
  simp [trim, trimStart, hc]

theorem trimStart_eq_self_iff {text : List Char} : trimStart text = text ↔ Stops isSpace text := by
  constructor
  · intro h
    rw [← h]
    exact stops_dropWhile
  · exact dropWhile_of_stops

theorem trimEnd_eq_self_iff {text : List Char} :
    trimEnd text = text ↔ Stops isSpace text.reverse := by
  rw [← trimStart_eq_self_iff, trimEnd, trimStart, List.reverse_eq_iff]

theorem stops_reverse_trimEnd (text : List Char) : Stops isSpace (trimEnd text).reverse := by
  rw [trimEnd, List.reverse_reverse]
  exact stops_dropWhile

theorem trimStart_suffix (text : List Char) : trimStart text <:+ text :=
  List.dropWhile_suffix _

theorem isPrefix_trimEnd (text : List Char) : trimEnd text <+: text := by
  rw [← List.reverse_suffix, trimEnd, List.reverse_reverse]
  exact List.dropWhile_suffix _

/-- A text that loses nothing has no white space at either end. -/
theorem trim_eq_self_iff {text : List Char} :
    trim text = text ↔ Stops isSpace text ∧ Stops isSpace text.reverse := by
  rw [← trimStart_eq_self_iff, ← trimEnd_eq_self_iff]
  constructor
  · intro h
    -- both steps shorten a text unless they keep it, and together they kept it
    have hstart : trimStart text = text := by
      refine (trimStart_suffix text).eq_of_length_le ?_
      calc text.length = (trim text).length := by rw [h]
        _ ≤ (trimStart text).length := (isPrefix_trimEnd _).length_le
    rw [trim, hstart] at h
    exact ⟨hstart, h⟩
  · rintro ⟨hstart, hend⟩
    rw [trim, hstart, hend]

/-- What a text does not start with, no part at its start does. -/
theorem Stops.of_isPrefix {p : Char → Bool} {s t : List Char} (h : Stops p t) (hs : s <+: t) :
    Stops p s := by
  obtain ⟨later, rfl⟩ := hs
  cases s with
  | nil => exact stops_nil
  | cons c s => simpa using h

theorem trim_trim (text : List Char) : trim (trim text) = trim text :=
  trim_eq_self_iff.2
    ⟨stops_dropWhile.of_isPrefix (isPrefix_trimEnd _), stops_reverse_trimEnd _⟩

theorem trim_trimStart (text : List Char) : trim (trimStart text) = trim text :=
  congrArg trimEnd (trimStart_eq_self_iff.2 stops_dropWhile)

/-- Nothing is kept of a text that is all white space. -/
theorem trimEnd_eq_nil_iff {text : List Char} : trimEnd text = [] ↔ ∀ c ∈ text, isSpace c := by
  simp [trimEnd, List.dropWhile_eq_nil_iff]

theorem trimEnd_cons (c : Char) (text : List Char) : trimEnd (c :: text) =
    if isSpace c ∧ trimEnd text = [] then [] else c :: trimEnd text := by
  rw [trimEnd, trimEnd, List.reverse_cons, List.dropWhile_append]
  by_cases hc : isSpace c <;> by_cases htext : text.reverse.dropWhile isSpace = [] <;>
    simp [hc, htext]

/-- A part that does not end in white space is kept. -/
theorem trimEnd_append {part : List Char} (hend : Stops isSpace part.reverse) (text : List Char) :
    trimEnd (part ++ text) = part ++ trimEnd text := by
  have hkept : part.reverse.dropWhile isSpace = part.reverse := dropWhile_of_stops hend
  rw [trimEnd, trimEnd, List.reverse_append, List.dropWhile_append]
  split
  · next h => simp [List.isEmpty_iff.1 h, hkept]
  · simp

/-- It does not matter which end of a text loses its white space first. -/
theorem trimStart_trimEnd (text : List Char) : trimStart (trimEnd text) = trim text := by
  induction text with
  | nil => rfl
  | cons c text ih =>
    by_cases hc : isSpace c
    · rw [trim_cons_of_isSpace hc, ← ih, trimEnd_cons]
      split
      · next h => rw [h.2]
      · rw [trimStart, List.dropWhile_cons_of_pos hc, trimStart]
    · rw [trimEnd_cons, if_neg (by simp [hc]), trim, trimStart, trimStart,
        List.dropWhile_cons_of_neg hc, List.dropWhile_cons_of_neg hc, trimEnd_cons,
        if_neg (by simp [hc])]

theorem trim_eq_nil_iff {text : List Char} : trim text = [] ↔ trimEnd text = [] := by
  rw [← trimStart_trimEnd]
  constructor
  · intro h
    have hend := stops_reverse_trimEnd text
    -- what is left of the text would end with a character that is no white space
    cases hreverse : (trimEnd text).reverse with
    | nil => exact List.reverse_eq_nil_iff.1 hreverse
    | cons c later =>
      have hspace := List.dropWhile_eq_nil_iff.1 h c (List.mem_reverse.1 (by simp [hreverse]))
      simp [hreverse, hspace] at hend
  · intro h
    rw [h]
    rfl

theorem exists_trimEnd_append (text : List Char) :
    ∃ after, (∀ c ∈ after, isSpace c) ∧ trimEnd text ++ after = text := by
  refine ⟨(text.reverse.takeWhile isSpace).reverse,
    fun c hc => List.mem_takeWhile_imp (List.mem_reverse.1 hc), ?_⟩
  rw [trimEnd, ← List.reverse_append, List.takeWhile_append_dropWhile, List.reverse_reverse]

/-- What is kept of a text comes right after the white space at its start. -/
theorem exists_trim_append (text : List Char) : ∃ after, (∀ c ∈ after, isSpace c) ∧
    text = text.takeWhile isSpace ++ (trim text ++ after) := by
  obtain ⟨after, hafter, htext⟩ := exists_trimEnd_append (trimStart text)
  exact ⟨after, hafter, by rw [trim, htext, trimStart, List.takeWhile_append_dropWhile]⟩

/-- What is kept of a text has white space in front of it and after it. -/
theorem exists_trim (text : List Char) :
    ∃ before after, (∀ c ∈ before, isSpace c) ∧ (∀ c ∈ after, isSpace c) ∧
      text = before ++ (trim text ++ after) := by
  obtain ⟨after, hafter, htext⟩ := exists_trim_append text
  exact ⟨_, after, fun _ => List.mem_takeWhile_imp, hafter, htext⟩

theorem trim_subset (text : List Char) : trim text ⊆ text := fun _ h =>
  (trimStart_suffix _).subset ((isPrefix_trimEnd _).subset h)

/-! ### Lines -/

@[simp] theorem lineContents_nil : lineContents [] = [] := rfl

@[simp] theorem lineContents_newline (text : List Char) :
    lineContents ('\n' :: text) = [] :: lineContents text := rfl

/-- A carriage return goes with the newline after it. -/
@[simp] theorem lineContents_return_newline (text : List Char) :
    lineContents ('\r' :: '\n' :: text) = lineContents ('\n' :: text) := rfl

/-- Any other character belongs to the first line. -/
theorem lineContents_cons {c : Char} {text : List Char} (hc : c ≠ '\n')
    (hreturn : c = '\r' → text.head? ≠ some '\n') :
    lineContents (c :: text) =
      match lineContents text with
      | [] => [[c]]
      | line :: later => (c :: line) :: later := by
  unfold lineContents
  rw [lines.eq_4 _ _ (fun _ h ht => hreturn h (by simp [ht])) (fun h => absurd h hc)]
  cases lines text <;> rfl

/-- A text without newlines is one line. -/
theorem lines_of_notMem_newline {text : List Char} (hne : text ≠ []) (htext : '\n' ∉ text) :
    lines text = [⟨text, []⟩] := by
  fun_induction lines text with
  | case1 => exact absurd rfl hne
  | case2 => simp at htext
  | case3 => simp at htext
  | case4 c rest _ _ hlines ih =>
    cases rest with
    | nil => rfl
    | cons d rest => simp [ih (by simp) (List.not_mem_of_not_mem_cons htext)] at hlines
  | case5 c rest _ _ line later hlines ih =>
    cases rest with
    | nil => simp [lines] at hlines
    | cons d rest =>
      rw [ih (by simp) (List.not_mem_of_not_mem_cons htext)] at hlines
      cases hlines
      rfl

theorem lineContents_of_notMem_newline {text : List Char} (hne : text ≠ [])
    (htext : '\n' ∉ text) : lineContents text = [text] := by
  rw [lineContents, lines_of_notMem_newline hne htext]
  rfl

/-- A part of a line in front of a text belongs to the first line of the text. A carriage return at
its end could go with a newline in the text, so there must be no white space. -/
theorem lineContents_append {part : List Char} (hpart : '\n' ∉ part) (hne : part ≠ [])
    (hend : Stops isSpace part.reverse) (text : List Char) :
    lineContents (part ++ text) =
      match lineContents text with
      | [] => [part]
      | line :: later => (part ++ line) :: later := by
  induction part with
  | nil => exact absurd rfl hne
  | cons c part ih =>
    rw [List.mem_cons, not_or] at hpart
    cases part with
    | nil =>
      have hc : isSpace c = false := by simpa using hend
      refine lineContents_cons (Ne.symm hpart.1) ?_
      rintro rfl
      exact absurd hc (by decide)
    | cons d part =>
      have hd : d ≠ '\n' := fun h => hpart.2 (h ▸ List.mem_cons_self)
      rw [List.reverse_cons, stops_append_of_ne_nil (by simp)] at hend
      rw [List.cons_append, lineContents_cons (Ne.symm hpart.1) (by simp [hd]),
        ih hpart.2 (List.cons_ne_nil d part) hend]
      cases lineContents text <;> rfl

/-- The first line of a text ends before its newline. -/
theorem lineContents_append_newline {line : List Char} (hline : '\n' ∉ line)
    (hend : Stops isSpace line.reverse) (text : List Char) :
    lineContents (line ++ '\n' :: text) = line :: lineContents text := by
  by_cases hne : line = []
  · rw [hne]
    rfl
  · rw [lineContents_append hline hne hend, lineContents_newline]
    simp

/-- Only the empty text has no lines. -/
theorem lineContents_ne_nil {text : List Char} (hne : text ≠ []) : lineContents text ≠ [] := by
  intro h
  have hlines : lines text = [] := List.map_eq_nil_iff.1 h
  have htext := flatMap_text_lines text
  rw [hlines] at htext
  exact hne htext.symm

/-- The contents of the lines stand in the text one after the other. -/
theorem flatten_lineContents_sublist (text : List Char) :
    (lineContents text).flatten.Sublist text := by
  have hlines : ((lines text).flatMap Line.content).Sublist ((lines text).flatMap Line.text) :=
    List.Sublist.flatMap_right _ fun line _ => List.sublist_append_left line.content line.ending
  rwa [flatMap_text_lines, List.flatMap_def] at hlines

/-- A newline ends the last line of a text. -/
theorem lineContents_append_newline_of_ne_nil {text : List Char} (hne : text ≠ [])
    (hend : Stops isSpace text.reverse) (rest : List Char) :
    lineContents (text ++ '\n' :: rest) = lineContents text ++ lineContents rest := by
  induction text with
  | nil => exact absurd rfl hne
  | cons c text ih =>
    by_cases htext : text = []
    · have hc : isSpace c = false := by simpa [htext] using hend
      have hnewline : '\n' ∉ [c] := by
        rw [List.mem_singleton]
        rintro rfl
        exact absurd hc (by decide)
      have hline : lineContents [c] = [[c]] :=
        lineContents_of_notMem_newline (List.cons_ne_nil c []) hnewline
      rw [htext, lineContents_append_newline hnewline (by simpa using hc), hline]
      rfl
    · rw [List.reverse_cons, stops_append_of_ne_nil (by simpa using htext)] at hend
      have h := ih htext hend
      by_cases hnewline : c = '\n'
      · rw [hnewline, List.cons_append, lineContents_newline, lineContents_newline, h,
          List.cons_append]
      by_cases hreturn : c = '\r' ∧ text.head? = some '\n'
      · obtain ⟨rfl, hhead⟩ := hreturn
        obtain ⟨later, rfl⟩ := List.head?_eq_some_iff.1 hhead
        exact h
      · have hnext : c = '\r' → text.head? ≠ some '\n' := fun hc hhead => hreturn ⟨hc, hhead⟩
        have hnext' : c = '\r' → (text ++ '\n' :: rest).head? ≠ some '\n' := by
          obtain ⟨d, later, rfl⟩ := List.exists_cons_of_ne_nil htext
          exact hnext
        obtain ⟨line, later, hlines⟩ := List.exists_cons_of_ne_nil (lineContents_ne_nil htext)
        rw [List.cons_append, lineContents_cons hnewline hnext', lineContents_cons hnewline hnext,
          h, hlines]
        rfl

/-- Of a line before a newline, at most a carriage return at its end is lost. -/
theorem exists_lineContents_append_newline {part : List Char} (hpart : '\n' ∉ part)
    (text : List Char) : ∃ line, lineContents (part ++ '\n' :: text) = line :: lineContents text ∧
      (part = line ∨ part = line ++ ['\r']) := by
  induction part with
  | nil => exact ⟨[], rfl, .inl rfl⟩
  | cons c part ih =>
    rw [List.mem_cons, not_or] at hpart
    obtain ⟨line, hlines, hline⟩ := ih hpart.2
    by_cases hreturn : c = '\r' ∧ part = []
    · obtain ⟨rfl, rfl⟩ := hreturn
      exact ⟨[], rfl, .inr rfl⟩
    · have hnext : c = '\r' → (part ++ '\n' :: text).head? ≠ some '\n' := by
        intro hc
        obtain ⟨d, later, rfl⟩ := List.exists_cons_of_ne_nil fun h => hreturn ⟨hc, h⟩
        have hd : d ≠ '\n' := fun h => hpart.2 (h ▸ List.mem_cons_self)
        simpa using hd
      refine ⟨c :: line, ?_, by simpa using hline⟩
      rw [List.cons_append, lineContents_cons (Ne.symm hpart.1) hnext, hlines]

/-- Some lines, each with a newline after it. -/
def endLines (ls : List (List Char)) : List Char :=
  ls.flatMap fun line => line ++ ['\n']

@[simp] theorem endLines_nil : endLines [] = [] := rfl

@[simp] theorem endLines_cons (line : List Char) (ls : List (List Char)) :
    endLines (line :: ls) = line ++ '\n' :: endLines ls := by
  simp [endLines]

/-- Lines without newlines that do not end in white space come back. -/
theorem lineContents_endLines_append {ls : List (List Char)}
    (h : ∀ line ∈ ls, '\n' ∉ line ∧ Stops isSpace line.reverse) (text : List Char) :
    lineContents (endLines ls ++ text) = ls ++ lineContents text := by
  induction ls with
  | nil => rfl
  | cons line ls ih =>
    rw [List.forall_mem_cons] at h
    rw [endLines_cons, List.append_assoc, List.cons_append,
      lineContents_append_newline h.1.1 h.1.2, ih h.2, List.cons_append]

/-- How the lines of a text look. Newlines stand in their endings only, and only the last line may
lack an ending, in which case it is not empty. -/
inductive Lined : List Line → Prop where
  | nil : Lined []
  | last {content : List Char} (hne : content ≠ []) (hcontent : '\n' ∉ content) :
    Lined [⟨content, []⟩]
  | ended {content ending : List Char} {later : List Line} (hcontent : '\n' ∉ content)
    (hending : ending = ['\n'] ∨ ending = ['\r', '\n']) (hlater : Lined later) :
    Lined (⟨content, ending⟩ :: later)

theorem lined_lines (text : List Char) : Lined (lines text) := by
  fun_induction lines text with
  | case1 => exact .nil
  | case2 rest ih => exact .ended List.not_mem_nil (.inr rfl) ih
  | case3 rest ih => exact .ended List.not_mem_nil (.inl rfl) ih
  | case4 c rest hreturn hnewline hlines ih =>
    exact .last (List.cons_ne_nil c []) (by simpa using fun h => hnewline h.symm)
  | case5 c rest hreturn hnewline line later hlines ih =>
    have hcons {content : List Char} (h : '\n' ∉ content) : '\n' ∉ c :: content := by
      simpa using ⟨fun h => hnewline h.symm, h⟩
    rw [hlines] at ih
    cases ih with
    | last hne hcontent => exact .last (List.cons_ne_nil c _) (hcons hcontent)
    | ended hcontent hending hlater => exact .ended (hcons hcontent) hending hlater

theorem Lined.newline_notMem {ls : List Line} (h : Lined ls) :
    ∀ line ∈ ls, '\n' ∉ line.content := by
  induction h with
  | nil => simp
  | last _ hcontent => simpa using hcontent
  | ended hcontent _ _ ih => exact List.forall_mem_cons.2 ⟨hcontent, ih⟩

theorem newline_notMem_of_mem_lineContents {text line : List Char}
    (h : line ∈ lineContents text) : '\n' ∉ line := by
  obtain ⟨l, hl, rfl⟩ := List.mem_map.1 h
  exact (lined_lines text).newline_notMem l hl

/-! ### Positions -/

theorem utf8ByteSize_ofList_cons (c : Char) (text : List Char) :
    (String.ofList (c :: text)).utf8ByteSize =
      c.utf8Size + (String.ofList text).utf8ByteSize := by
  rw [String.ofList_cons, String.utf8ByteSize_append, String.utf8ByteSize_singleton]

/-- Within a line, the offset grows by the bytes and the column by the characters. -/
theorem advance_of_notMem_newline {text : List Char} (htext : '\n' ∉ text) (p : Position) :
    p.advance text =
      ⟨p.offset + (String.ofList text).utf8ByteSize, p.line, p.column + text.length⟩ := by
  induction text generalizing p with
  | nil => rfl
  | cons c text ih =>
    rw [List.mem_cons, not_or] at htext
    rw [Position.advance_cons, Position.step, if_neg (Ne.symm htext.1), ih htext.2,
      utf8ByteSize_ofList_cons, List.length_cons, Nat.add_assoc, Nat.add_assoc, Nat.add_comm 1]

/-- After a line and its ending comes the next line. -/
theorem advance_line {content ending : List Char} (hcontent : '\n' ∉ content)
    (hending : ending = ['\n'] ∨ ending = ['\r', '\n']) (p : Position) :
    p.advance (Line.text ⟨content, ending⟩) =
      ⟨p.offset + (String.ofList (Line.text ⟨content, ending⟩)).utf8ByteSize, p.line + 1, 1⟩ := by
  rw [Line.text, Position.advance_append, advance_of_notMem_newline hcontent, String.ofList_append,
    String.utf8ByteSize_append]
  rcases hending with rfl | rfl <;>
    simp [Position.step, Nat.add_assoc] <;> rfl

end RiscvDialect.Text
