import RiscvDialect.Assembly.Parser
import RiscvDialect.Proofs.Reading

/-!
# The readers of assembly stay in their text

## Main statements

* `readStatement_staysIn`, `readCode_staysIn`: the readers of statements
-/

namespace RiscvDialect.Assembly

/-! ### What may be missing -/

theorem skipInline_suffix (text : List Char) : skipInline text <:+ text :=
  List.dropWhile_suffix _

theorem suffix_of_skipInline_eq_cons {c : Char} {text rest : List Char}
    (h : skipInline text = c :: rest) : rest <:+ text :=
  (List.suffix_cons c rest).trans (h ▸ skipInline_suffix text)

theorem suffix_of_comma? {text rest : List Char} (h : comma? text = some rest) : rest <:+ text := by
  unfold comma? at h
  split at h
  · next afterComma hcomma =>
    cases h
    exact (skipInline_suffix afterComma).trans (suffix_of_skipInline_eq_cons hcomma)
  · simp at h

theorem suffix_of_readSymbol {text name rest : List Char}
    (h : readSymbol text = some (name, rest)) : rest <:+ text :=
  ⟨name, (readSymbol_eq_some h).2.symm⟩

theorem suffix_of_readLabel {text rest : List Char} {l : Label}
    (h : readLabel text = some (l, rest)) : rest <:+ text := by
  unfold readLabel at h
  split at h
  · next hsymbol =>
    cases h
    exact suffix_of_readSymbol hsymbol
  · simp at h

theorem suffix_of_readInt64 {text rest : List Char} {value : Int64}
    (h : readInt64 text = some (value, rest)) : rest <:+ text := by
  unfold readInt64 at h
  split at h
  · next hnumber =>
    obtain ⟨_, -, heq⟩ := Option.map_eq_some_iff.1 h
    cases heq
    exact Numeral.suffix_of_readInteger hnumber
  · simp at h

/-- A displacement may be missing, and then nothing is read. -/
theorem suffix_of_displacement (text : List Char) :
    ((readInt64 text).getD (0, text)).2 <:+ text := by
  cases h : readInt64 text with
  | none => exact List.suffix_refl _
  | some read => exact suffix_of_readInt64 h

/-! ### Operands -/

theorem readComma_staysIn (text : List Char) : StaysIn text id (readComma text) := by
  unfold readComma
  split
  · next hcomma => exact suffix_of_comma? hcomma
  · exact expected_staysIn _ _

theorem readRegister_staysIn (text : List Char) : StaysIn text Prod.snd (readRegister text) := by
  unfold readRegister
  split
  · exact expected_staysIn _ _
  · have hleft := List.dropWhile_suffix (l := text) Char.isAlphanum
    exact .map (.ofRefusal (List.suffix_refl text) fun _ _ => hleft) fun _ => rfl

theorem readImmediate_staysIn (text : List Char) : StaysIn text Prod.snd (readImmediate text) := by
  unfold readImmediate
  split
  · exact expected_staysIn _ _
  · next hnumber =>
    split
    · exact Numeral.suffix_of_readInteger hnumber
    · exact List.suffix_refl _

theorem readOffset_staysIn (text : List Char) : StaysIn text Prod.snd (readOffset text) := by
  unfold readOffset
  split
  · next hvalue => exact suffix_of_readInt64 hvalue
  · split
    · next hlabel => exact suffix_of_readLabel hlabel
    · exact expected_staysIn _ _

theorem readOperand_staysIn (kind : SlotKind) (text : List Char) :
    StaysIn text Prod.snd (readOperand kind text) := by
  cases kind with
  | register => exact .map (readRegister_staysIn text) fun _ => rfl
  | immediate => exact .map (readImmediate_staysIn text) fun _ => rfl
  | offset => exact .map (readOffset_staysIn text) fun _ => rfl

theorem readOperands_staysIn (slots : List Slot) (text : List Char) :
    StaysIn text Prod.snd (readOperands slots text) := by
  fun_induction readOperands slots text with
  | case1 text => exact List.suffix_refl _
  | case2 slot text => exact .map (readOperand_staysIn _ text) fun _ => rfl
  | case3 slot slots text _ ih =>
    refine (readOperand_staysIn _ text).bind fun _ hoperand => ?_
    refine (StaysIn.of_suffix hoperand (readComma_staysIn _)).bind fun rest hcomma => ?_
    exact (StaysIn.of_suffix hcomma (ih rest)).bind fun _ hlater => hlater

/-- What a reader has left that may find nothing to read. -/
def leftOf {α : Type} : Option (α × List Char) → List Char
  | some (_, rest) => rest
  | none => []

theorem readMemory_staysIn (valueSlot : Slot) (text : List Char) :
    StaysIn text leftOf (readMemory valueSlot text) := by
  unfold readMemory
  split
  · refine (readRegister_staysIn text).bind fun ⟨value, afterValue⟩ hvalue => ?_
    dsimp only at hvalue ⊢
    split
    · exact List.nil_suffix
    · next afterComma hcomma =>
      have hcomma := (suffix_of_comma? hcomma).trans hvalue
      have hdisplacement := (suffix_of_displacement afterComma).trans hcomma
      split
      · next afterOpen hopen =>
        have hbase := (skipInline_suffix afterOpen).trans
          ((suffix_of_skipInline_eq_cons hopen).trans hdisplacement)
        split
        · refine (StaysIn.of_suffix hbase (readRegister_staysIn _)).bind
            fun ⟨base, afterBase⟩ hafterBase => ?_
          dsimp only at hafterBase ⊢
          split
          · next afterClose hclose => exact (suffix_of_skipInline_eq_cons hclose).trans hafterBase
          · exact List.nil_suffix
        · exact List.nil_suffix
      · exact List.nil_suffix
  · exact List.nil_suffix

theorem readInstructionOperands_staysIn (opcode : Opcode) (text : List Char) :
    StaysIn text Prod.snd (readInstructionOperands opcode text) := by
  unfold readInstructionOperands
  split
  · refine (readMemory_staysIn _ text).bind fun found hfound => ?_
    cases found with
    | some result => exact hfound
    | none => exact readOperands_staysIn _ text
  · exact readOperands_staysIn _ text

/-! ### Statements -/

variable {κ : Type} (registry : Registry κ)

theorem requireOp_staysIn (name : String) (code : List Char) :
    StaysIn code (fun _ => []) (requireOp registry name code) := by
  unfold requireOp
  split
  · exact List.nil_suffix
  · exact List.suffix_refl _

theorem suffix_of_readLabelDefinition {code rest : List Char} {l : Label}
    (h : readLabelDefinition code = some (l, rest)) : rest <:+ code := by
  unfold readLabelDefinition at h
  split at h
  · next hlabel =>
    split at h
    · next hcolon =>
      cases h
      exact (suffix_of_skipInline_eq_cons hcolon).trans (suffix_of_readLabel hlabel)
    · simp at h
  · simp at h

theorem readDirective_staysIn {code body : List Char} (hbody : body <:+ code) :
    StaysIn code (fun _ => []) (readDirective registry code body) := by
  refine (requireOp_staysIn registry _ code).bind fun _ _ => ?_
  dsimp only
  split
  · exact .of_suffix hbody (expected_staysIn _ _)
  · exact ofRefusal_staysIn _ code

theorem readInstruction_staysIn (code : List Char) :
    StaysIn code Prod.snd (readInstruction registry code) := by
  unfold readInstruction
  split
  · exact expected_staysIn _ _
  · next mnemonic rest hsymbol =>
    dsimp only
    split
    · have hrest := (skipInline_suffix rest).trans (suffix_of_readSymbol hsymbol)
      refine (StaysIn.of_suffix hrest (readInstructionOperands_staysIn _ _)).bind
        fun _ hoperands => ?_
      exact (ofRefusal_staysIn _ code).bind fun _ _ => hoperands
    · exact List.suffix_refl _

theorem readStatement_staysIn (code : List Char) :
    StaysIn code Prod.snd (readStatement registry code) := by
  unfold readStatement
  split
  · next hlabel =>
    exact (requireOp_staysIn registry _ code).bind fun _ _ => suffix_of_readLabelDefinition hlabel
  · split
    · exact .map (readDirective_staysIn registry (List.suffix_cons _ _)) fun _ => rfl
    · exact .map (readInstruction_staysIn registry code) fun _ => rfl

/-- Whatever follows a statement is shown where it starts. -/
theorem readCode_staysIn (code : List Char) :
    StaysIn code (fun _ => []) (readCode registry code) := by
  refine (readStatement_staysIn registry code).bind fun ⟨op, rest⟩ hrest => ?_
  dsimp only at hrest ⊢
  split
  · exact List.nil_suffix
  · exact .of_suffix ((skipInline_suffix rest).trans hrest) (expected_staysIn _ _)

end RiscvDialect.Assembly
