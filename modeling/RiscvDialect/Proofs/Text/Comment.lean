import RiscvDialect.Listing
import RiscvDialect.Proofs.Text.Line

/-!
# Comments

A comment starts at the first `#` outside the strings of a line. What a string is can be said
without a scan: it runs from a quote to the next one, where a backslash goes with the character
after it. A line is a row of such strings and of other characters, and its last string may lack the
closing quote. The scan for quotes finds these strings, so the part of a line before its comment is
the longest start of the line that has no `#` outside strings.

White space is neither a quote nor a `#`. At the start of a line it leaves the scan where it is, and
at the end of a line no comment begins with it. It may therefore be removed at any time.

## Main definitions

* `StringRest`: how a string goes on behind its opening quote
* `Outside`: the characters of a line outside its strings
* `CommentFree`: the texts without a comment
* `beforeHash`: the part of a line before its comment, found with two flags

## Main statements

* `outside_iff`: the scan for quotes finds the strings of a line
* `uncommentedFrom_append`: a part that has no comment is kept
* `trim_uncommented_trim`: white space may be removed before the comment or after it
* `uncommented_exact`: what is left of a line without its comment
-/

namespace RiscvDialect.Text

variable {state : QuoteState} {c : Char} {s t bare : List Char} {closed : Bool}

/-! ### The scan -/

/-- The state of a scan after some more text. -/
def QuoteState.scan (state : QuoteState) (text : List Char) : QuoteState :=
  text.foldl step state

@[simp] theorem QuoteState.scan_nil : state.scan [] = state := rfl

@[simp] theorem QuoteState.scan_cons : state.scan (c :: t) = (state.step c).scan t := rfl

@[simp] theorem unquotedFrom_nil : unquotedFrom state [] = [] := rfl

/-- A part without a `#` outside quotes is kept, and the scan goes on behind it. -/
theorem uncommentedFrom_append (hs : '#' ∉ unquotedFrom state s) (t : List Char) :
    uncommentedFrom state (s ++ t) = s ++ uncommentedFrom (state.scan s) t := by
  induction s generalizing state with
  | nil => rfl
  | cons c s ih =>
    rw [unquotedFrom] at hs
    have hc : ¬ (state = .outside ∧ c = '#') := by
      rintro ⟨rfl, rfl⟩
      simp at hs
    have hrest : '#' ∉ unquotedFrom (state.step c) s := by
      split at hs
      · exact List.not_mem_of_not_mem_cons hs
      · exact hs
    rw [List.cons_append, uncommentedFrom, if_neg hc, ih hrest, QuoteState.scan_cons,
      List.cons_append]

/-- What is kept has no `#` outside quotes. -/
theorem hash_notMem_unquotedFrom (state : QuoteState) (line : List Char) :
    '#' ∉ unquotedFrom state (uncommentedFrom state line) := by
  induction line generalizing state with
  | nil => simp [uncommentedFrom]
  | cons c line ih =>
    rw [uncommentedFrom]
    split
    · simp
    · next hc =>
      rw [unquotedFrom]
      split
      · next hstate =>
        have hne : '#' ≠ c := fun h => hc ⟨hstate, h.symm⟩
        simpa [hne] using ih _
      · exact ih _

theorem uncommentedFrom_eq_self_iff :
    uncommentedFrom state t = t ↔ '#' ∉ unquotedFrom state t := by
  constructor
  · intro h
    rw [← h]
    exact hash_notMem_unquotedFrom state t
  · intro h
    simpa [uncommentedFrom] using uncommentedFrom_append h []

/-! ### Strings -/

/-- How a string goes on behind its opening quote: the text, and the line behind the closing quote,
if there is one. A backslash goes with the character after it, whichever this is. Without a closing
quote the string runs to the end of the line, where a backslash may have no character to go with. -/
inductive StringRest : List Char → Option (List Char) → Prop where
  | close (line : List Char) : StringRest ('"' :: line) (some line)
  | plain {c : Char} {text : List Char} {line? : Option (List Char)} (hquote : c ≠ '"')
    (hbackslash : c ≠ '\\') (h : StringRest text line?) : StringRest (c :: text) line?
  | escape {c : Char} {text : List Char} {line? : Option (List Char)} (h : StringRest text line?) :
    StringRest ('\\' :: c :: text) line?
  | unclosed : StringRest [] none
  | unclosedEscape : StringRest ['\\'] none

/-- A line, its characters outside strings, and whether it ends outside strings. -/
inductive Outside : List Char → List Char → Bool → Prop where
  | nil : Outside [] [] true
  | plain {c : Char} {line bare : List Char} {closed : Bool} (hquote : c ≠ '"')
    (h : Outside line bare closed) : Outside (c :: line) (c :: bare) closed
  | string {text line bare : List Char} {closed : Bool} (hstring : StringRest text (some line))
    (h : Outside line bare closed) : Outside ('"' :: text) bare closed
  | unclosed {text : List Char} (hstring : StringRest text none) : Outside ('"' :: text) [] false

theorem exists_stringRest : (text : List Char) → ∃ line?, StringRest text line?
  | [] => ⟨none, .unclosed⟩
  | c :: text => by
    by_cases hquote : c = '"'
    · exact ⟨some text, hquote ▸ .close text⟩
    by_cases hbackslash : c = '\\'
    · subst hbackslash
      cases text with
      | nil => exact ⟨none, .unclosedEscape⟩
      | cons d text =>
        obtain ⟨line?, h⟩ := exists_stringRest text
        exact ⟨line?, .escape h⟩
    · obtain ⟨line?, h⟩ := exists_stringRest text
      exact ⟨line?, .plain hquote hbackslash h⟩

theorem StringRest.length_lt {line? : Option (List Char)} (h : StringRest t line?) :
    ∀ line ∈ line?, line.length < t.length := by
  induction h with
  | close line => simp
  | plain _ _ _ ih | escape _ ih =>
    intro line hline
    have hlt := ih line hline
    simp only [List.length_cons]
    omega
  | unclosed | unclosedEscape => simp

/-- Every line is made of strings and other characters. -/
theorem exists_outside (line : List Char) : ∃ bare closed, Outside line bare closed := by
  -- behind a string comes an end of the line of any length
  induction hn : line.length using Nat.strong_induction_on generalizing line with
  | _ n ih =>
    subst hn
    cases line with
    | nil => exact ⟨[], true, .nil⟩
    | cons c text =>
      by_cases hquote : c = '"'
      · subst hquote
        obtain ⟨line?, hstring⟩ := exists_stringRest text
        cases line? with
        | none => exact ⟨[], false, .unclosed hstring⟩
        | some line =>
          have hlt := hstring.length_lt line rfl
          obtain ⟨bare, closed, h⟩ := ih _ (hlt.trans (Nat.lt_succ_self _)) line rfl
          exact ⟨bare, closed, .string hstring h⟩
      · obtain ⟨bare, closed, h⟩ := ih _ (Nat.lt_succ_self _) text rfl
        exact ⟨c :: bare, closed, .plain hquote h⟩

/-- Behind an opening quote the scan finds nothing outside until it comes to the closing one. -/
theorem StringRest.scan {line? : Option (List Char)} (h : StringRest t line?) :
    unquotedFrom .inside t = unquotedFrom .outside (line?.getD []) ∧
      (QuoteState.inside.scan t = .outside ↔
        ∃ line ∈ line?, QuoteState.outside.scan line = .outside) := by
  induction h with
  | close line => simp [unquotedFrom, QuoteState.step]
  | plain hquote hbackslash _ ih =>
    simpa [unquotedFrom, QuoteState.step, hquote, hbackslash] using ih
  | escape _ ih => simpa [unquotedFrom, QuoteState.step] using ih
  | unclosed => simp
  | unclosedEscape => simp [unquotedFrom, QuoteState.step]

theorem Outside.scan (h : Outside t bare closed) :
    bare = (unquoted t).filter (· ≠ '"') ∧ (closed ↔ QuoteState.outside.scan t = .outside) := by
  rw [unquoted]
  induction h with
  | nil => simp
  | plain hquote _ ih => simpa [unquotedFrom, QuoteState.step, hquote] using ih
  | string hstring _ ih =>
    obtain ⟨hbare, hstate⟩ := hstring.scan
    simpa [unquotedFrom, QuoteState.step, hbare, hstate] using ih
  | unclosed hstring =>
    obtain ⟨hbare, hstate⟩ := hstring.scan
    simp [unquotedFrom, QuoteState.step, hbare, hstate]

/-- The scan for quotes finds the strings of a line. The opening quotes it takes to be outside. -/
theorem outside_iff : Outside t bare closed ↔
    bare = (unquoted t).filter (· ≠ '"') ∧ (closed ↔ QuoteState.outside.scan t = .outside) := by
  refine ⟨Outside.scan, fun ⟨hbare, hclosed⟩ => ?_⟩
  -- the line has strings, and those that it has are the ones that the scan finds
  obtain ⟨bare', closed', h⟩ := exists_outside t
  obtain ⟨hbare', hclosed'⟩ := h.scan
  have hsame : closed' = closed := by rw [Bool.eq_iff_iff, hclosed', hclosed]
  rwa [hbare, ← hbare', ← hsame]

/-! ### Comments -/

/-- A line without its comment is the start of it. -/
theorem isPrefix_uncommentedFrom (state : QuoteState) (line : List Char) :
    uncommentedFrom state line <+: line := by
  induction line generalizing state with
  | nil => exact List.prefix_rfl
  | cons c line ih =>
    rw [uncommentedFrom]
    split
    · exact List.nil_prefix
    · exact (List.prefix_cons_inj c).2 (ih _)

theorem uncommented_uncommented (line : List Char) :
    uncommented (uncommented line) = uncommented line :=
  uncommentedFrom_eq_self_iff.2 (hash_notMem_unquotedFrom .outside line)

theorem Outside.hash_mem_iff (h : Outside t bare closed) : '#' ∈ bare ↔ '#' ∈ unquoted t := by
  rw [(outside_iff.1 h).1, List.mem_filter]
  simp

/-- A text that has no comment and ends outside strings is kept, whatever comes behind it. -/
theorem Outside.uncommented_append (hs : Outside s bare true) (hhash : '#' ∉ bare)
    (t : List Char) : uncommented (s ++ t) = s ++ uncommented t := by
  have hstate : QuoteState.outside.scan s = .outside := (outside_iff.1 hs).2.1 rfl
  rw [hs.hash_mem_iff] at hhash
  rw [uncommented, uncommentedFrom_append hhash, hstate, uncommented]

theorem outside_self (hs : ∀ c ∈ s, c ≠ '"') : Outside s s true := by
  induction s with
  | nil => exact .nil
  | cons c s ih =>
    rw [List.forall_mem_cons] at hs
    exact .plain hs.1 (ih hs.2)

/-- A text without quotes and hashes is kept. -/
theorem uncommented_append (hs : ∀ c ∈ s, c ≠ '#' ∧ c ≠ '"') (t : List Char) :
    uncommented (s ++ t) = s ++ uncommented t :=
  (outside_self fun c hc => (hs c hc).2).uncommented_append (fun hmem => (hs _ hmem).1 rfl) t

/-- A text has no comment if no `#` stands outside its strings. -/
def CommentFree (text : List Char) : Prop :=
  ∃ bare closed, Outside text bare closed ∧ '#' ∉ bare

theorem commentFree_iff : CommentFree t ↔ '#' ∉ unquoted t := by
  constructor
  · rintro ⟨bare, closed, h, hhash⟩
    rwa [← h.hash_mem_iff]
  · intro hhash
    obtain ⟨bare, closed, h⟩ := exists_outside t
    exact ⟨bare, closed, h, by rwa [h.hash_mem_iff]⟩

/-- The longest start of a line that has no comment. -/
structure LongestCommentFree (line part : List Char) : Prop where
  isPrefix : part <+: line
  commentFree : CommentFree part
  longest : ∀ other, other <+: line → CommentFree other → other <+: part

theorem longestCommentFree_uncommented (line : List Char) :
    LongestCommentFree line (uncommented line) where
  isPrefix := isPrefix_uncommentedFrom .outside line
  commentFree := commentFree_iff.2 (hash_notMem_unquotedFrom .outside line)
  longest := by
    rintro other ⟨later, rfl⟩ hfree
    exact ⟨_, (uncommentedFrom_append (commentFree_iff.1 hfree) later).symm⟩

/-! ### White space -/

/-- White space is neither a hash nor a quote. -/
theorem not_special_of_isSpace (hc : isSpace c) : c ≠ '#' ∧ c ≠ '"' := by
  constructor <;> rintro rfl <;> exact absurd hc (by decide)

/-- White space at the start of a line is kept. -/
theorem uncommented_append_of_isSpace (hs : ∀ c ∈ s, isSpace c) (t : List Char) :
    uncommented (s ++ t) = s ++ uncommented t :=
  uncommented_append (fun c hc => not_special_of_isSpace (hs c hc)) t

theorem uncommented_trimStart (line : List Char) :
    uncommented (trimStart line) = trimStart (uncommented line) := by
  obtain ⟨space, rest, rfl, hspace, hstops, -, hrest⟩ := exists_run isSpace line
  have hkept : Stops isSpace (uncommented rest) := hstops.of_isPrefix (isPrefix_uncommentedFrom _ _)
  rw [uncommented_append_of_isSpace hspace, trimStart, hrest, trimStart,
    dropWhile_append_of_stops hspace hkept]

/-- White space at the end of a line starts no comment. -/
theorem trimEnd_uncommentedFrom_append {space : List Char} (hspace : ∀ c ∈ space, isSpace c)
    (state : QuoteState) (line : List Char) :
    trimEnd (uncommentedFrom state (line ++ space)) = trimEnd (uncommentedFrom state line) := by
  induction line generalizing state with
  | nil =>
    have hsub := (isPrefix_uncommentedFrom state space).subset
    exact trimEnd_eq_nil_iff.2 fun c hc => hspace c (hsub hc)
  | cons c line ih =>
    rw [List.cons_append, uncommentedFrom, uncommentedFrom]
    split
    · rfl
    · rw [trimEnd_cons, trimEnd_cons, ih]

theorem trimEnd_uncommented_trimEnd (line : List Char) :
    trimEnd (uncommented (trimEnd line)) = trimEnd (uncommented line) := by
  obtain ⟨space, hspace, hline⟩ := exists_trimEnd_append line
  calc trimEnd (uncommented (trimEnd line)) = trimEnd (uncommented (trimEnd line ++ space)) :=
        (trimEnd_uncommentedFrom_append hspace .outside _).symm
    _ = trimEnd (uncommented line) := by rw [hline]

/-- White space may be removed before the comment or after it. -/
theorem trim_uncommented_trim (line : List Char) :
    trim (uncommented (trim line)) = trim (uncommented line) := by
  calc trim (uncommented (trim line))
      = trimStart (trimEnd (uncommented (trimEnd (trimStart line)))) :=
        (trimStart_trimEnd _).symm
    _ = trim (trimStart (uncommented line)) := by
        rw [trimEnd_uncommented_trimEnd, trimStart_trimEnd, uncommented_trimStart]
    _ = trim (uncommented line) := trim_trimStart _

/-! ### Two flags -/

/-- The part of a line before the first `#` outside strings, found with two flags: whether a string
is open, and whether a backslash in it goes with the next character. -/
def beforeHash (inString escaped : Bool) : List Char → List Char
  | [] => []
  | c :: rest =>
    if escaped then c :: beforeHash inString false rest
    else if c = '\\' ∧ inString then c :: beforeHash inString true rest
    else if c = '"' then c :: beforeHash (!inString) false rest
    else if c = '#' ∧ ¬ inString then []
    else c :: beforeHash inString false rest

/-- The two flags tell what the state of the scan for quotes tells. -/
theorem beforeHash_eq (state : QuoteState) (line : List Char) :
    beforeHash (state ≠ .outside) (state = .escaped) line = uncommentedFrom state line := by
  induction line generalizing state with
  | nil => rfl
  | cons c line ih =>
    rw [uncommentedFrom, ← ih]
    cases state with
    | outside =>
      by_cases hquote : c = '"'
      · simp [beforeHash, QuoteState.step, hquote]
      · by_cases hhash : c = '#' <;> simp [beforeHash, QuoteState.step, hquote, hhash]
    | inside =>
      by_cases hquote : c = '"'
      · simp [beforeHash, QuoteState.step, hquote]
      · by_cases hbackslash : c = '\\' <;> simp [beforeHash, QuoteState.step, hquote, hbackslash]
    | escaped => simp [beforeHash, QuoteState.step]

/-! ### Lines without their comments -/

/-- What is left of a line is the longest start of it without a comment, and has nothing more to
lose. Two flags find the same, and so they find the statements of a listing. What a line starts with
is kept if it has no comment and ends outside strings, and the white space at the ends may be
removed before the comment or after it. -/
theorem uncommented_exact (line : List Char) :
    LongestCommentFree line (uncommented line) ∧
    uncommented (uncommented line) = uncommented line ∧
    beforeHash false false line = uncommented line ∧
    (∀ text, listingStatements text =
      ((lineContents text).map fun l => trim (beforeHash false false l)).filter (!·.isEmpty)) ∧
    (∀ s t bare, Outside s bare true → '#' ∉ bare → uncommented (s ++ t) = s ++ uncommented t) ∧
    uncommented (trimStart line) = trimStart (uncommented line) ∧
    trimEnd (uncommented (trimEnd line)) = trimEnd (uncommented line) ∧
    trim (uncommented (trim line)) = trim (uncommented line) := by
  have hflags : beforeHash false false = uncommented := funext (beforeHash_eq .outside)
  exact ⟨longestCommentFree_uncommented line, uncommented_uncommented line, congrFun hflags line,
    fun text => by rw [hflags, listingStatements],
    fun _ t _ houtside hhash => houtside.uncommented_append hhash t, uncommented_trimStart line,
    trimEnd_uncommented_trimEnd line, trim_uncommented_trim line⟩

/-- A string may hold a quote and a hash. -/
theorem uncommented_exact_ascii :
    Outside ".ascii \"\\\"#\" ".toList ".ascii  ".toList true ∧ '#' ∉ ".ascii  ".toList ∧
      uncommented (".ascii \"\\\"#\" ".toList ++ "# tail".toList) = ".ascii \"\\\"#\" ".toList := by
  have houtside : Outside ".ascii \"\\\"#\" ".toList ".ascii  ".toList true :=
    outside_iff.2 (by decide)
  have hhash : '#' ∉ ".ascii  ".toList := by decide
  obtain ⟨-, -, -, -, happend, -⟩ := uncommented_exact ".ascii \"\\\"#\" # tail".toList
  refine ⟨houtside, hhash, ?_⟩
  rw [happend _ _ _ houtside hhash]
  decide

end RiscvDialect.Text
