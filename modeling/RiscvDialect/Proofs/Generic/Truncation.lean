import RiscvDialect.Proofs.Generic.RoundTrip

/-!
# A text that was cut off is not read

The end of a program, and of an op with a dictionary, is a closing brace, and nobody who has come to
it looks at what is behind it. So when a text was read, it is read in the same way in front of any
other text, which is then left over. But what is written for a program leaves nothing over, and
therefore no shorter text can have been read at its start.

An op without a dictionary is the exception: it ends where its parentheses do, and a dictionary
might follow. If it was cut off there, the values are missing that ops of its name have.

## Main statements

* `ValueText.append`, `DictionaryText.append`, `OpsText.append`: the grammar in front of other text
* `readProgram_append`: the reader of programs in front of other text
* `truncated_refused`: what is left of a text that was cut off
-/

namespace RiscvDialect

/-- Ops of one kind have the same keys. -/
theorem Op.map_fst_attributes_eq {op op' : Op} (h : op.kind = op'.kind) :
    op.attributes.map Prod.fst = op'.attributes.map Prod.fst := by
  cases op <;> cases op' <;>
    simp_all [Op.kind, Op.attributes, Label.attributes, Directive.attributes]

namespace Generic.Grammar

open Text

/-! ### The grammar in front of other text -/

section

variable {known : Registration → Prop} {text rest : List Char}

/-- Blanks that lead to some text. A comment at the end of all text might go on. -/
theorem Blank.append (h : Blank text rest) (hrest : rest ≠ []) (more : List Char) :
    Blank (text ++ more) (rest ++ more) := by
  induction h with
  | nothing => exact .nothing _
  | space hc _ ih => exact .space hc (ih hrest)
  | @comment body later _ hbody hend hlater ih =>
    rw [List.cons_append, List.cons_append, List.append_assoc]
    refine .comment hbody (fun c hc => ?_) (ih hrest)
    cases later with
    | nil =>
      cases hlater
      exact absurd rfl hrest
    | cons d later => exact hend c hc

theorem StringText.append {value : String} (h : StringText text value rest) (more : List Char) :
    StringText (text ++ more) value (rest ++ more) := by
  obtain ⟨h⟩ := h
  refine .quoted ?_
  induction h with
  | close => exact .close _
  | plain hquote hbackslash _ ih => exact .plain hquote hbackslash ih
  | escape he _ ih => exact .escape he ih

theorem DigitsText.append {n : Nat} (h : DigitsText text n rest) (more : List Char) :
    DigitsText (text ++ more) n (rest ++ more) := by
  obtain ⟨hne, hdigits⟩ := h
  rw [List.append_assoc]
  exact .digits hne hdigits _

theorem IntegerText.append {i : Int} (h : IntegerText text i rest) (more : List Char) :
    IntegerText (text ++ more) i (rest ++ more) := by
  cases h with
  | nonneg h => exact .nonneg (h.append more)
  | neg h => exact .neg (h.append more)

theorem ValueText.append {value : Attribute} (h : ValueText known text value rest)
    (more : List Char) : ValueText known (text ++ more) value (rest ++ more) := by
  cases h with
  | parameter hname hchars hknown hvalue =>
    simpa using ValueText.parameter hname hchars hknown hvalue (rest ++ more)
  | string h => exact .string (h.append more)
  | integer hvalue hcolon htype hwidth =>
    exact .integer (hvalue.append more) (hcolon.append (by simp) more)
      (htype.append (by simp) more) (hwidth.append more)

theorem EntryText.append {entry : String × Attribute} (h : EntryText known text entry rest)
    (hrest : rest ≠ []) (more : List Char) :
    EntryText known (text ++ more) entry (rest ++ more) := by
  obtain ⟨hkey, hsign, hblank, hvalue, hend⟩ := h
  obtain ⟨c, later, rfl, -⟩ := hvalue.head
  exact .keyed (hkey.append more) (hsign.append (by simp) more) (hblank.append (by simp) more)
    (hvalue.append more) (hend.append hrest more)

theorem EntriesText.append {entries : Dictionary} (h : EntriesText known text entries rest)
    (more : List Char) : EntriesText known (text ++ more) entries (rest ++ more) := by
  induction h with
  | last h => exact .last (h.append (by simp) more)
  | more hentry hblank hlater ih =>
    obtain ⟨later, rfl⟩ := hlater.head
    exact .more (hentry.append (by simp) more) (hblank.append (by simp) more) ih

theorem DictionaryText.append {entries : Dictionary} (h : DictionaryText known text entries rest)
    (more : List Char) : DictionaryText known (text ++ more) entries (rest ++ more) := by
  cases h with
  | empty h => exact .empty (h.append (by simp) more)
  | entries hblank h =>
    obtain ⟨later, rfl⟩ := h.head
    exact .entries (hblank.append (by simp) more) (h.append more)

theorem OpText.append {op : Op} (h : OpText known text op rest) (more : List Char) :
    OpText known (text ++ more) op (rest ++ more) := by
  cases h with
  | bare hname hopen hclose hop =>
    exact .bare (hname.append more) (hopen.append (by simp) more) (hclose.append (by simp) more)
      hop
  | withDictionary hname hopen hclose hblank hentries hop =>
    have hblank' := hblank.append (by obtain ⟨_, rfl⟩ := hentries.head; simp) more
    exact .withDictionary (hname.append more) (hopen.append (by simp) more)
      (hclose.append (by simp) more) hblank' (hentries.append more) hop

theorem OpsText.append {p : Program} (h : OpsText known text p rest) (more : List Char) :
    OpsText known (text ++ more) p (rest ++ more) := by
  induction h with
  | close => exact .close _
  | op hop hblank hlater ih =>
    have hblank' := hblank.append (by obtain ⟨_, _, rfl, -⟩ := hlater.head; simp) more
    exact .op (hop.append more) hblank' ih

end

/-! ### Programs -/

variable {registry : Registry}

/-- Other text behind a program is left as it is. -/
theorem readProgram_append {text rest : List Char} {p : Program}
    (h : readProgram registry text = .ok (p, rest)) (more : List Char) :
    readProgram registry (text ++ more) = .ok (p, rest ++ more) := by
  obtain ⟨afterWord, afterOpen, opsText, rfl, hopen, hblank, hops⟩ := opsText_of_readProgram h
  have hblank' := hblank.append (by obtain ⟨_, _, rfl, -⟩ := hops.head; simp) more
  rw [List.append_assoc]
  exact readProgram_of_opsText (hopen.append (by simp) more) hblank' (hops.append more)

/-- If a text has no blanks at its start, no part at its start has any, unless it is empty. -/
theorem skipBlank_of_append {c : Char} {text more later : List Char} (hc : IsSolid c)
    (h : text ++ more = c :: later) (hne : skipBlank text ≠ []) : skipBlank text = text := by
  cases text with
  | nil => exact absurd rfl hne
  | cons d text =>
    obtain rfl : d = c := (List.cons.inj h).1
    exact skipBlank_of_isSolid hc

/-- A part of a written program that is a program itself is all of it. -/
theorem eq_nil_of_parseProgram {p q : Program} {text : String} {more : List Char}
    (htext : text.toList ++ more = p.generic.toList) (h : parseProgram .riscv text = .ok q) :
    more = [] := by
  obtain ⟨rest, hread, -⟩ := parseWhole_eq_ok.1 h
  have hstart : p.generic.toList = 'm' :: p.generic.toList.tail := by simp [Program.generic]
  have hne : skipBlank text.toList ≠ [] := by
    intro hnil
    rw [hnil] at hread
    cases hread
  rw [skipBlank_of_append (by decide) (htext.trans hstart) hne] at hread
  have hwhole := readProgram_append hread more
  rw [htext, readProgram_generic, Except.ok.injEq, Prod.mk.injEq] at hwhole
  exact (List.append_eq_nil_iff.1 hwhole.2.symm).2

/-! ### Ops -/

/-- Behind its name, an op without values has its parentheses and nothing else. -/
theorem exists_toList_generic (op : Op) : ∃ behind,
    op.generic.toList = (quote op.name).toList ++ behind ∧
      (op.attributes = [] → behind = ['(', ')']) := by
  refine ⟨_, by rw [Op.generic, String.append_assoc, String.toList_append], fun h => ?_⟩
  simp [h]

theorem Blank.eq_of_isSolid {c : Char} {text rest : List Char} (h : Blank (c :: text) (c :: rest))
    (hc : IsSolid c) : text = rest := by
  have hskip := h.skipBlank_eq_cons hc
  rw [skipBlank_of_isSolid hc] at hskip
  exact (List.cons.inj hskip).2

/-- If an op was read without a dictionary, ops of its name have no values. -/
theorem attributes_eq_nil_of_denotes {op op' : Op}
    (h : Denotes Registration.InDialect op.name [] op') : op.attributes = [] := by
  have hkind : op.kind = op'.kind := by
    have hname := Registry.knowsDialect_riscv.op?_eq (opNamed_name op)
    rw [Registry.knowsDialect_riscv.op?_eq h.known_name] at hname
    exact (Option.some.inj hname).symm
  have hkeys := Op.map_fst_attributes_eq hkind
  rw [List.nil_perm.1 h.perm_attributes, List.map_nil] at hkeys
  exact List.map_eq_nil_iff.1 hkeys

theorem eq_nil_of_bare {op op' : Op} {text more afterName afterOpen rest : List Char}
    {name : String} (htext : text ++ more = op.generic.toList)
    (hname : StringText text name afterName) (hopen : Blank afterName ('(' :: afterOpen))
    (hclose : Blank afterOpen (')' :: rest)) (hop : Denotes Registration.InDialect name [] op') :
    more = [] := by
  obtain ⟨behind, hgeneric, hbehind⟩ := exists_toList_generic op
  have hnames := readQuoted_of_stringText "op name" (hname.append more)
  rw [htext, hgeneric, readQuoted_of_stringText _ (stringText_quote op.name behind),
    Except.ok.injEq, Prod.mk.injEq] at hnames
  obtain ⟨rfl, rfl⟩ := hnames
  have hopen' := hopen.append (by simp) more
  rw [hbehind (attributes_eq_nil_of_denotes hop)] at hopen'
  have hafterOpen : [')'] = afterOpen ++ more := hopen'.eq_of_isSolid (by decide)
  have hclose' := hclose.append (by simp) more
  rw [← hafterOpen] at hclose'
  have hrest : [] = rest ++ more := hclose'.eq_of_isSolid (by decide)
  exact (List.append_eq_nil_iff.1 hrest.symm).2

/-- A part of a written op that is an op itself is all of it. -/
theorem eq_nil_of_parseOp {op op' : Op} {text : String} {more : List Char}
    (htext : text.toList ++ more = op.generic.toList) (h : parseOp .riscv text = .ok op') :
    more = [] := by
  obtain ⟨rest, hread, -⟩ := parseWhole_eq_ok.1 h
  obtain ⟨afterOp, hop, -⟩ := opText_of_readOp hread
  obtain ⟨start, hstart⟩ := (opText_generic op []).head
  obtain ⟨later, hquote⟩ := hop.head
  rw [List.append_nil] at hstart
  rw [skipBlank_of_append (by decide) (htext.trans hstart) (by simp [hquote])] at hop
  cases hop with
  | bare hname hopen hclose hdenotes =>
    rw [Registry.knows_riscv] at hdenotes
    exact eq_nil_of_bare htext hname hopen hclose hdenotes
  | withDictionary hname hopen hclose hblank hentries hdenotes =>
    have hblank' := hblank.append (by obtain ⟨_, rfl⟩ := hentries.head; simp) more
    have hwhole := readOp_of_dictionaryText (hname.append more) (hopen.append (by simp) more)
      (hclose.append (by simp) more) hblank' (hentries.append more) hdenotes
    rw [htext, readOp_generic, Except.ok.injEq, Prod.mk.injEq] at hwhole
    exact (List.append_eq_nil_iff.1 hwhole.2.symm).2

/-! ### Proper parts -/

/-- A text fails to be read if nothing that can be read is continued by the rest of the whole. -/
theorem exists_error_of_isPrefix {α : Type} {parse : String → Except ParseError α}
    {whole text : String}
    (h : ∀ {value : α} {more : List Char}, text.toList ++ more = whole.toList →
      parse text = .ok value → more = [])
    (hpart : text.toList <+: whole.toList) (hne : text ≠ whole) : ∃ e, parse text = .error e := by
  obtain ⟨more, htext⟩ := hpart
  cases hparse : parse text with
  | error e => exact ⟨e, rfl⟩
  | ok value =>
    rw [h htext hparse, List.append_nil, String.toList_inj] at htext
    exact absurd htext hne

/-- No proper part at the start of a written program is read as a program, and none of a written op
as an op. -/
theorem truncated_refused :
    (∀ (p : Program) (text : String), text.toList <+: p.generic.toList → text ≠ p.generic →
      ∃ e, parseProgram .riscv text = .error e) ∧
    ∀ (op : Op) (text : String), text.toList <+: op.generic.toList → text ≠ op.generic →
      ∃ e, parseOp .riscv text = .error e :=
  ⟨fun _ _ => exists_error_of_isPrefix eq_nil_of_parseProgram,
    fun _ _ => exists_error_of_isPrefix eq_nil_of_parseOp⟩

/-- A program without its last brace, and a label without its dictionary. -/
theorem truncated_refused_label :
    (∃ e, parseProgram .riscv "module \x7b\n  \"riscv.ret\"()\n" = .error e) ∧
      ∃ e, parseOp .riscv "\"riscv.label\"()" = .error e :=
  ⟨truncated_refused.1 [.instruction ⟨.ret, .noOperands, rfl⟩] _ (by decide) (by decide),
    truncated_refused.2 (.label ⟨"loop", by decide⟩) _ (by decide) (by decide)⟩

end Generic.Grammar

end RiscvDialect
