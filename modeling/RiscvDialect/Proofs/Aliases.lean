import RiscvDialect.Proofs.Assembly.Grammar.Tokens
import RiscvDialect.Proofs.Assembly.Mnemonic
import RiscvDialect.Proofs.Generic.RoundTrip
import RiscvDialect.Proofs.Listing

/-!
# Names of one op

An op may be registered under several names. Its readers look the name up and then forget it: an
error names the op as the catalog does or shows a part of the text behind the name, and what is
built has no name but that of the catalog. So it makes no difference which of the names a text uses.
Only places do, as one name may be longer than another.

In assembly this is true of mnemonics as long as they are read as mnemonics. A symbol behind a dot
is the name of a directive, whatever is registered under it.

## Main definitions

* `Alike`: two results of reading that differ in the place of a failure at most
* `OpKind.name`: the name of an op in the catalog
* `Assembly.BehindMnemonic`: a text that may follow one

## Main statements

* `Generic.mapError_readOp`, `Assembly.mapError_readCode`: what is read behind a name
* `Assembly.exists_codes_append`: the statements of a text that starts with a symbol
* `alike_of_aliases`: texts that differ in the name of an op
-/

namespace RiscvDialect

open Text

/-! ### Results without their places -/

/-- The same value, or failures with the same message and the same cause. -/
inductive Alike {α : Type} : Except ParseError α → Except ParseError α → Prop where
  | value (a : α) : Alike (.ok a) (.ok a)
  | failure {e e' : ParseError} (hmessage : e.message = e'.message)
    (hcause : e.cause? = e'.cause?) : Alike (.error e) (.error e')

/-- The problem with a fault in words of the text that could not be read. -/
def Fault.problem (fault : Fault) : ParseProblem :=
  (fault.report .start []).problem

/-- The message and the cause are those of the problem. -/
theorem alike_of_mapError {α : Type} {x y : Except ParseError α}
    (h : x.mapError ParseError.problem = y.mapError ParseError.problem) : Alike x y := by
  cases x with
  | ok a =>
    cases y with
    | ok b =>
      cases h
      exact .value a
    | error e => cases h
  | error e =>
    cases y with
    | ok b => cases h
    | error e' =>
      have hproblem : e.problem = e'.problem := Except.error.inj h
      exact .failure (by rw [ParseError.message, ParseError.message, hproblem])
        (by rw [ParseError.cause?, ParseError.cause?, hproblem])

theorem mapError_ofRefusal {α : Type} (text : List Char) (x : Except DialectError α) :
    (Fault.ofRefusal text x).mapError Fault.problem = x.mapError ParseProblem.refused := by
  cases x <;> rfl

/-- The name of an op in the catalog. -/
def OpKind.name : OpKind → String
  | .instruction opcode => opcode.name
  | .label => Label.opName
  | .directive => Directive.opName

/-- What is built has the name of the catalog. -/
theorem OpKind.name_of_build {kind : OpKind} {entries : Dictionary} {op : Op}
    (h : kind.build entries = .ok op) : op.name = kind.name := by
  cases kind with
  | instruction opcode =>
    obtain ⟨i, hi, rfl⟩ := Except.map_eq_ok.1 h
    rw [Op.name, Instruction.name, (Instruction.ofDictionary_eq_ok.1 hi).1]
    rfl
  | label =>
    obtain ⟨l, -, rfl⟩ := Except.map_eq_ok.1 h
    rfl
  | directive =>
    obtain ⟨d, -, rfl⟩ := Except.map_eq_ok.1 h
    rfl

/-! ### The generic format -/

namespace Generic

open Assembly (mapError_bind)

variable {κ : Type} [ParameterReader κ] {registry : Registry κ} {name : String} {kind : OpKind}

theorem mapError_parseWhole {α : Type} (read : List Char → Except Fault (α × List Char))
    (text : String) :
    (parseWhole read text).mapError ParseError.problem = (do
      let (value, rest) ← (read (skipBlank text.toList)).mapError Fault.problem
      match skipBlank rest with
      | [] => return value
      | rest => .error (.expected "end of input" (describeFound rest))) := by
  rw [parseWhole]
  cases read (skipBlank text.toList) with
  | error fault => rfl
  | ok result =>
    obtain ⟨value, rest⟩ := result
    simp only [bind, Except.bind, Except.mapError]
    cases skipBlank rest <;> rfl

/-- Behind its name and the parentheses, an op is read without the name. -/
theorem readOp_quote (hkind : registry.op? name = some kind) (behind : List Char) :
    readOp registry ((quote name).toList ++ '(' :: ')' :: behind) = (do
      let (entries, rest) ← readDictionary registry (skipBlank behind)
      let op ← Fault.ofRefusal ((quote name).toList ++ '(' :: ')' :: behind) (kind.build entries)
      return (op, rest)) := by
  have hname := Grammar.readQuoted_of_stringText "op name"
    (Grammar.stringText_quote name ('(' :: ')' :: behind))
  have hopen : skipBlank ('(' :: ')' :: behind) = '(' :: ')' :: behind :=
    Grammar.skipBlank_of_isSolid (by decide)
  have hclose : skipBlank (')' :: behind) = ')' :: behind :=
    Grammar.skipBlank_of_isSolid (by decide)
  simp only [readOp, hname, hkind, hopen, hclose, expectChar, if_true, Fault.ofRefusal, bind,
    Except.bind]

theorem mapError_readOp (hkind : registry.op? name = some kind) (behind : List Char) :
    (readOp registry ((quote name).toList ++ '(' :: ')' :: behind)).mapError Fault.problem = (do
      let (entries, rest) ← (readDictionary registry (skipBlank behind)).mapError Fault.problem
      let op ← (kind.build entries).mapError ParseProblem.refused
      return (op, rest)) := by
  rw [readOp_quote hkind]
  simp only [mapError_bind, mapError_ofRefusal]
  rfl

/-- A text that starts with a name and parentheses, as its reader gets it. -/
theorem skipBlank_quote (name behind : String) :
    skipBlank (quote name ++ "()" ++ behind).toList =
      (quote name).toList ++ '(' :: ')' :: behind.toList := by
  have htext : (quote name ++ "()" ++ behind).toList =
      (quote name).toList ++ '(' :: ')' :: behind.toList := by simp
  obtain ⟨later, hlater⟩ : ∃ later, (quote name).toList = '"' :: later :=
    ⟨_, by simp [quote]; rfl⟩
  rw [htext, hlater, List.cons_append]
  exact Grammar.skipBlank_of_isSolid (by decide)

/-- Up to places, a text that starts with a name is read as it is with any other name of the op. -/
theorem alike_parseOp {name' : String} (hkind : registry.op? name = some kind)
    (hkind' : registry.op? name' = some kind) (behind : String) :
    Alike (parseOp registry (quote name ++ "()" ++ behind))
      (parseOp registry (quote name' ++ "()" ++ behind)) := by
  refine alike_of_mapError ?_
  unfold parseOp
  rw [mapError_parseWhole, mapError_parseWhole, skipBlank_quote, skipBlank_quote,
    mapError_readOp hkind, mapError_readOp hkind']

theorem name_of_parseOp (hkind : registry.op? name = some kind) {behind : String} {op : Op}
    (h : parseOp registry (quote name ++ "()" ++ behind) = .ok op) : op.name = kind.name := by
  obtain ⟨rest, hread, -⟩ := Grammar.parseWhole_eq_ok.1 h
  rw [skipBlank_quote, readOp_quote hkind] at hread
  obtain ⟨⟨entries, left⟩, -, hread⟩ := Except.bind_eq_ok.1 hread
  obtain ⟨built, hbuild, heq⟩ := Except.bind_eq_ok.1 hread
  cases heq
  exact OpKind.name_of_build (Fault.of_ofRefusal_eq_ok hbuild)

end Generic

/-! ### Assembly -/

namespace Assembly

variable {κ : Type} {registry : Registry κ} {mnemonic : String} {opcode : Opcode}
  {behind : List Char}

/-- What starts a text is found in it. -/
theorem head?_skipInline_of_isPrefix {part text : List Char} (h : part <+: text)
    (htext : (skipInline text).head? ≠ some ':') : (skipInline part).head? ≠ some ':' := by
  intro hcolon
  obtain ⟨later, rfl⟩ := h
  obtain ⟨rest, hrest⟩ := List.head?_eq_some_iff.1 hcolon
  obtain ⟨space, hspace, rfl⟩ := (Grammar.skipInline_eq_cons (by decide)).1 hrest
  refine htext ?_
  rw [List.append_assoc, List.cons_append,
    (Grammar.skipInline_eq_cons (by decide)).2 ⟨space, hspace, rfl⟩]
  rfl

/-- A line starts a text if it is the first one of it. -/
theorem isPrefix_of_lineContents {text line : List Char} {later : List (List Char)}
    (h : lineContents text = line :: later) : line <+: text := by
  rw [← flatMap_text_lines text]
  rw [lineContents] at h
  obtain ⟨first, rest, hlines, rfl, -⟩ := List.map_eq_cons_iff.1 h
  rw [hlines, List.flatMap_cons, Line.text, List.append_assoc]
  exact List.prefix_append _ _

/-- A symbol is kept with a statement that it starts. -/
theorem codeOf_append {name : List Char} (hname : isSymbol name) (line : List Char) :
    codeOf (name ++ line) = name ++ trimEnd (uncommented line) := by
  have hplain : ∀ c ∈ name, c ≠ '#' ∧ c ≠ '"' := fun c hc =>
    have hne := (isPlain_of_mem_symbol hname hc).ne
    ⟨hne.1, hne.2.1⟩
  rw [codeOf, uncommented_append hplain, trim,
    trimStart_eq_self_iff.2 (stops_isSpace_of_isSymbol hname _),
    trimEnd_append (endsSolid_of_isSymbol hname).stops_reverse]

/-- Behind the symbol that starts a text, nothing about its statements depends on the symbol. -/
theorem exists_codes_append {text : List Char} (hne : text ≠ []) :
    ∃ first later, first <+: text ∧
      ∀ name, isSymbol name → codes (name ++ text) = (name ++ first) :: later := by
  obtain ⟨line, lines, hlines⟩ := List.exists_cons_of_ne_nil (lineContents_ne_nil hne)
  refine ⟨trimEnd (uncommented line), (lines.map codeOf).filter (· ≠ []), ?_, ?_⟩
  · exact ((isPrefix_trimEnd _).trans (isPrefix_uncommentedFrom _ _)).trans
      (isPrefix_of_lineContents hlines)
  · intro name hname
    have hsolid := endsSolid_of_isSymbol hname
    have hnewline : '\n' ∉ name := fun hc => (isPlain_of_mem_symbol hname hc).ne.2.2 rfl
    rw [codes, lineContents_append hnewline hsolid.ne_nil hsolid.stops_reverse, hlines,
      List.map_cons, codeOf_append hname, List.filter_cons_of_pos (by simp [hsolid.ne_nil])]

/-- Up to places, a statement that starts with a mnemonic is read as it is with any other mnemonic
of the opcode. -/
theorem mapError_readCode {mnemonic' : String} (h : IsMnemonic registry mnemonic opcode)
    (h' : IsMnemonic registry mnemonic' opcode) (hstops : Stops isSymbolChar behind)
    (hcolon : (skipInline behind).head? ≠ some ':') :
    (readCode registry (mnemonic.toList ++ behind)).mapError Fault.problem =
      (readCode registry (mnemonic'.toList ++ behind)).mapError Fault.problem := by
  rw [readCode_mnemonic h hstops hcolon, readCode_mnemonic h' hstops hcolon]
  simp only [mapError_bind, mapError_ofRefusal]

theorem exists_of_readCode_mnemonic (h : IsMnemonic registry mnemonic opcode)
    (hstops : Stops isSymbolChar behind) (hcolon : (skipInline behind).head? ≠ some ':') {op : Op}
    (hop : readCode registry (mnemonic.toList ++ behind) = .ok op) :
    ∃ i : Instruction, op = .instruction i ∧ i.opcode = opcode := by
  rw [readCode_mnemonic h hstops hcolon] at hop
  obtain ⟨⟨operands, rest⟩, -, hop⟩ := Except.bind_eq_ok.1 hop
  obtain ⟨i, hi, hop⟩ := Except.bind_eq_ok.1 hop
  split at hop
  · cases hop
    exact ⟨i, rfl, (Instruction.ofDictionary_eq_ok.1 (Fault.of_ofRefusal_eq_ok hi)).1⟩
  · simp [Fault.expected] at hop

variable {text : String}

/-- The text starts with a space, and no colon comes after spaces and tabs. -/
structure BehindMnemonic (text : String) : Prop where
  head?_eq : text.toList.head? = some ' '
  head?_ne : (skipInline text.toList).head? ≠ some ':'

/-- What follows a mnemonic in its statement starts what follows it in the text. -/
theorem BehindMnemonic.of_isPrefix (h : BehindMnemonic text) {first : List Char}
    (hfirst : first <+: text.toList) :
    Stops isSymbolChar first ∧ (skipInline first).head? ≠ some ':' := by
  refine ⟨Stops.of_isPrefix ?_ hfirst, head?_skipInline_of_isPrefix hfirst h.head?_ne⟩
  intro c hc
  rw [h.head?_eq] at hc
  cases hc
  decide

theorem alike_parse {mnemonic' : String} (h : IsMnemonic registry mnemonic opcode)
    (h' : IsMnemonic registry mnemonic' opcode) (htext : BehindMnemonic text) :
    Alike (parse registry (mnemonic ++ text)) (parse registry (mnemonic' ++ text)) := by
  have hne : text.toList ≠ [] := fun hnil => by simpa [hnil] using htext.head?_eq
  obtain ⟨first, later, hfirst, hcodes⟩ := exists_codes_append hne
  obtain ⟨hstops, hcolon⟩ := htext.of_isPrefix hfirst
  have hread := mapError_readCode h h' hstops hcolon
  refine alike_of_mapError ?_
  rw [mapError_parse, mapError_parse, String.toList_append, String.toList_append,
    hcodes _ h.isSymbol, hcodes _ h'.isSymbol, readCodes_cons, readCodes_cons]
  exact congrArg (fun x => x >>= fun op => readCodes registry later >>= fun ops =>
    pure (op :: ops)) hread

/-- The first op of the program is an instruction of the opcode. -/
theorem exists_of_parse (h : IsMnemonic registry mnemonic opcode) (htext : BehindMnemonic text)
    {p : Program} (hp : parse registry (mnemonic ++ text) = .ok p) :
    ∃ (i : Instruction) (later : Program), p = .instruction i :: later ∧ i.opcode = opcode := by
  have hne : text.toList ≠ [] := fun hnil => by simpa [hnil] using htext.head?_eq
  obtain ⟨first, rest, hfirst, hcodes⟩ := exists_codes_append hne
  obtain ⟨hstops, hcolon⟩ := htext.of_isPrefix hfirst
  rw [parse_eq_ok, String.toList_append, hcodes _ h.isSymbol, List.forall₂_cons_left_iff] at hp
  obtain ⟨op, later, hop, -, rfl⟩ := hp
  obtain ⟨i, rfl, hi⟩ := exists_of_readCode_mnemonic h hstops hcolon hop
  exact ⟨i, later, rfl, hi⟩

end Assembly

/-! ### Both formats -/

open Assembly (IsMnemonic BehindMnemonic)

/-- Texts that differ in the name of an op only are both read as the same or both refused with the
same message and the same cause. In the generic format the names are in quotes and have parentheses
behind them, and an op that is read has the name of the catalog. In assembly the names are those of
an instruction, without the stem of the dialect, and no such mnemonic may start with a dot. -/
theorem alike_of_aliases {κ : Type} [ParameterReader κ] (r : Registry κ) :
    (∀ name name' kind, r.op? name = some kind → r.op? name' = some kind → ∀ text : String,
      Alike (Generic.parseOp r (Generic.quote name ++ "()" ++ text))
        (Generic.parseOp r (Generic.quote name' ++ "()" ++ text)) ∧
      ∀ op, Generic.parseOp r (Generic.quote name ++ "()" ++ text) = .ok op →
        op.name = kind.name) ∧
    ∀ mnemonic mnemonic' opcode, IsMnemonic r mnemonic opcode → IsMnemonic r mnemonic' opcode →
      ∀ text, BehindMnemonic text →
        Alike (Assembly.parse r (mnemonic ++ text)) (Assembly.parse r (mnemonic' ++ text)) ∧
        ∀ p, Assembly.parse r (mnemonic ++ text) = .ok p →
          ∃ (i : Instruction) (later : Program), p = .instruction i :: later ∧
            i.opcode = opcode := by
  refine ⟨fun name name' kind hkind hkind' text => ?_,
    fun mnemonic mnemonic' opcode h h' text htext => ?_⟩
  · exact ⟨Generic.alike_parseOp hkind hkind' text, fun op => Generic.name_of_parseOp hkind⟩
  · exact ⟨Assembly.alike_parse h h' htext, fun p => Assembly.exists_of_parse h htext⟩

/-- Two names for loads. An address is read with either, a base register that does not exist is
refused with either, and so is an op without values. -/
theorem alike_of_aliases_load : ∃ r : Registry,
    r = Registry.empty.extend
      [.op "riscv.lw" (.instruction .lw), .op "riscv.load" (.instruction .lw)] ∧
    (r.op? "riscv.lw" = some (.instruction .lw) ∧ r.op? "riscv.load" = some (.instruction .lw)) ∧
    (IsMnemonic r "lw" .lw ∧ IsMnemonic r "load" .lw) ∧
    (BehindMnemonic " a0, 4(sp)\nlw:" ∧ BehindMnemonic " a0, 4(x32)") ∧
    Alike (Generic.parseOp r (Generic.quote "riscv.lw" ++ "()" ++ " \x7b\x7d // none"))
      (Generic.parseOp r (Generic.quote "riscv.load" ++ "()" ++ " \x7b\x7d // none")) ∧
    Alike (Assembly.parse r ("lw" ++ " a0, 4(sp)\nlw:"))
      (Assembly.parse r ("load" ++ " a0, 4(sp)\nlw:")) ∧
    Alike (Assembly.parse r ("lw" ++ " a0, 4(x32)"))
      (Assembly.parse r ("load" ++ " a0, 4(x32)")) := by
  let r : Registry := Registry.empty.extend
    [.op "riscv.lw" (.instruction .lw), .op "riscv.load" (.instruction .lw)]
  have hop : r.op? "riscv.lw" = some (.instruction .lw) := by decide
  have hop' : r.op? "riscv.load" = some (.instruction .lw) := by decide
  have hlw : IsMnemonic r "lw" .lw := ⟨by decide, by decide, hop⟩
  have hload : IsMnemonic r "load" .lw := ⟨by decide, by decide, hop'⟩
  have haddress : BehindMnemonic " a0, 4(sp)\nlw:" := ⟨rfl, by decide⟩
  have hrefused : BehindMnemonic " a0, 4(x32)" := ⟨rfl, by decide⟩
  obtain ⟨hgeneric, hassembly⟩ := alike_of_aliases r
  exact ⟨r, rfl, ⟨hop, hop'⟩, ⟨hlw, hload⟩, ⟨haddress, hrefused⟩, (hgeneric _ _ _ hop hop' _).1,
    (hassembly _ _ _ hlw hload _ haddress).1, (hassembly _ _ _ hlw hload _ hrefused).1⟩

/-- Behind a dot, a symbol is not the instruction that is registered under it. It is a directive,
and where directives are not registered, it is refused. -/
theorem not_alike_dot : ∃ r : Registry,
    r = Registry.empty.extend
      [.op "riscv.ret" (.instruction .ret), .op "riscv..foo" (.instruction .ret)] ∧
    (isSymbol "ret".toList ∧ isSymbol ".foo".toList) ∧
    r.op? (Opcode.dialectStem ++ "ret") = some (.instruction .ret) ∧
    r.op? (Opcode.dialectStem ++ ".foo") = some (.instruction .ret) ∧
    BehindMnemonic " " ∧
    ¬ Alike (Assembly.parse r ("ret" ++ " ")) (Assembly.parse r (".foo" ++ " ")) := by
  let r : Registry := Registry.empty.extend
    [.op "riscv.ret" (.instruction .ret), .op "riscv..foo" (.instruction .ret)]
  have hread : Assembly.parse r ("ret" ++ " ") = .ok [.instruction ⟨.ret, .noOperands, rfl⟩] := rfl
  have hrefused : Assembly.parse r (".foo" ++ " ") =
      .error ⟨⟨0, 1, 1⟩, .refused (.unknownOp Directive.opName)⟩ := rfl
  refine ⟨r, rfl, by decide, by decide, by decide, ⟨rfl, by decide⟩, fun halike => ?_⟩
  rw [hread, hrefused] at halike
  cases halike

end RiscvDialect
