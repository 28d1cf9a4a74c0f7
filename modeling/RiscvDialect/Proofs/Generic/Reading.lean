import RiscvDialect.Generic.Parser
import RiscvDialect.Proofs.Reading
import RiscvDialect.Text.Search

/-!
# The readers of the generic format stay in their text

## Main statements

* `readAttribute_staysIn`, `readOp_staysIn`, `readProgram_staysIn`: the readers of values, ops and
  programs
* `exists_fault_of_parseWhole`: where a whole text fails to be read
-/

namespace RiscvDialect.Generic

/-! ### Tokens and values -/

theorem readQuotedBody_staysIn (text : List Char) :
    StaysIn text Prod.snd (readQuotedBody text) := by
  fun_induction readQuotedBody text with
  | case1 => exact expected_staysIn _ _
  | case2 rest => exact List.suffix_cons _ _
  | case3 => exact expected_staysIn _ _
  | case4 e rest c _ ih =>
    exact .of_suffix ((List.suffix_cons e rest).trans (List.suffix_cons _ _))
      (.map ih fun _ => rfl)
  | case5 => exact expected_staysIn _ _
  | case6 c rest _ _ _ ih => exact .of_suffix (List.suffix_cons _ _) (.map ih fun _ => rfl)

theorem readQuoted_staysIn (what : String) (text : List Char) :
    StaysIn text Prod.snd (readQuoted what text) := by
  unfold readQuoted
  split
  · next rest =>
    exact .of_suffix (List.suffix_cons _ _) ((readQuotedBody_staysIn rest).bind fun _ h => h)
  · exact expected_staysIn _ _

theorem expectChar_skipBlank_staysIn (c : Char) (text : List Char) :
    StaysIn text id (expectChar c (skipBlank text)) :=
  .of_suffix (skipBlank_suffix text) (expectChar_staysIn c _)

theorem readWidth_staysIn (text : List Char) : StaysIn text Prod.snd (readWidth text) := by
  unfold readWidth
  split
  · split
    · next hdigits =>
      split
      · exact (Numeral.suffix_of_readDecimalNat hdigits).trans (List.suffix_cons _ _)
      · exact List.suffix_refl _
    · exact expected_staysIn _ _
  · exact expected_staysIn _ _

theorem readSizedInt_staysIn (text : List Char) : StaysIn text Prod.snd (readSizedInt text) := by
  unfold readSizedInt
  split
  · exact expected_staysIn _ _
  · next number afterNumber hnumber =>
    split
    · exact List.suffix_refl _
    · have hleft := Numeral.suffix_of_readDecimal hnumber
      refine (StaysIn.of_suffix hleft (expectChar_skipBlank_staysIn ':' _)).bind
        fun afterColon hcolon => ?_
      have htype := (skipBlank_suffix afterColon).trans hcolon
      refine (StaysIn.of_suffix htype (readWidth_staysIn _)).bind fun _ hwidth => ?_
      exact (StaysIn.of_suffix htype (ofRefusal_staysIn _ _)).bind fun _ _ => hwidth

variable {κ : Type} [ParameterReader κ] (registry : Registry κ)

theorem readParameter_staysIn {text body : List Char} (hbody : body <:+ text) :
    StaysIn text Prod.snd (readParameter registry text body) := by
  unfold readParameter
  split
  · exact .of_suffix hbody (expected_staysIn _ _)
  · split
    · exact List.suffix_refl _
    · next kind _ =>
      have hname := (List.dropWhile_suffix isAttributeNameChar).trans hbody
      refine (StaysIn.of_suffix hname (expectChar_staysIn '<' _)).bind fun parameter hopen => ?_
      have hread : StaysIn text Prod.snd
          (Fault.ofRefusal parameter (ParameterReader.read kind parameter)) :=
        .ofRefusal hopen fun _ h => (ParameterReader.suffix_of_read h).trans hopen
      refine hread.bind fun _ hvalue => ?_
      exact (StaysIn.of_suffix hvalue (expectChar_staysIn '>' _)).bind fun _ hclose => hclose

theorem readAttribute_staysIn (text : List Char) :
    StaysIn text Prod.snd (readAttribute registry text) := by
  unfold readAttribute
  split
  · exact readParameter_staysIn registry (List.suffix_cons _ _)
  · exact .map (readQuoted_staysIn _ _) fun _ => rfl
  · exact .map (readSizedInt_staysIn _) fun _ => rfl

/-! ### Dictionaries -/

theorem readEntry_staysIn (text : List Char) :
    StaysIn text Prod.snd (readEntry registry text) := by
  refine (readQuoted_staysIn _ text).bind fun _ hkey => ?_
  refine (StaysIn.of_suffix hkey (expectChar_skipBlank_staysIn '=' _)).bind
    fun afterSign hsign => ?_
  have hblank := (skipBlank_suffix afterSign).trans hsign
  refine (StaysIn.of_suffix hblank (readAttribute_staysIn registry _)).bind fun _ hvalue => ?_
  exact (skipBlank_suffix _).trans hvalue

theorem readEntries_staysIn (text : List Char) :
    StaysIn text Prod.snd (readEntries registry text) := by
  fun_induction readEntries registry text with
  | case1 text fault hentry =>
    have h := readEntry_staysIn registry text
    rwa [hentry] at h
  | case2 text entry rest hentry ih =>
    have hsign := (List.suffix_cons ',' rest).trans (leaves_of_readEntry hentry).suffix
    exact .of_suffix ((skipBlank_suffix rest).trans hsign) (.map ih fun _ => rfl)
  | case3 text entry rest hentry =>
    exact (List.suffix_cons '}' rest).trans (leaves_of_readEntry hentry).suffix
  | case4 text entry rest _ _ hentry =>
    exact (leaves_of_readEntry hentry).suffix

theorem readDictionary_staysIn (text : List Char) :
    StaysIn text Prod.snd (readDictionary registry text) := by
  unfold readDictionary
  split
  · next body =>
    have hbody := (skipBlank_suffix body).trans (List.suffix_cons '{' body)
    split
    · next rest hrest => exact (List.suffix_cons '}' rest).trans (hrest ▸ hbody)
    · exact .of_suffix hbody (readEntries_staysIn registry _)
  · exact List.suffix_refl _

/-! ### Ops and programs -/

theorem readOp_staysIn (text : List Char) : StaysIn text Prod.snd (readOp registry text) := by
  refine (readQuoted_staysIn _ text).bind fun _ hname => ?_
  refine (ofRefusal_staysIn _ text).bind fun _ _ => ?_
  refine (StaysIn.of_suffix hname (expectChar_skipBlank_staysIn '(' _)).bind fun _ hopen => ?_
  refine (StaysIn.of_suffix hopen (expectChar_skipBlank_staysIn ')' _)).bind
    fun afterClose hclose => ?_
  have hblank := (skipBlank_suffix afterClose).trans hclose
  refine (StaysIn.of_suffix hblank (readDictionary_staysIn registry _)).bind fun _ hentries => ?_
  -- what is wrong with the values is shown where the op starts, not where the reader stands
  exact (ofRefusal_staysIn _ text).bind fun _ _ => hentries

theorem readOps_staysIn (text : List Char) : StaysIn text Prod.snd (readOps registry text) := by
  fun_induction readOps registry text with
  | case1 => exact expected_staysIn _ _
  | case2 rest => exact List.suffix_cons _ _
  | case3 text _ _ fault hop =>
    have h := readOp_staysIn registry text
    rwa [hop] at h
  | case4 text _ _ op rest hop ih =>
    exact .of_suffix ((skipBlank_suffix rest).trans (leaves_of_readOp hop).suffix)
      (.map ih fun _ => rfl)

theorem readProgram_staysIn (text : List Char) :
    StaysIn text Prod.snd (readProgram registry text) := by
  unfold readProgram
  split
  · exact expected_staysIn _ _
  · next rest hrest =>
    have hword : rest <:+ text := ⟨_, (Text.eq_append_of_isPrefixOf? hrest).symm⟩
    refine (StaysIn.of_suffix hword (expectChar_skipBlank_staysIn '{' _)).bind
      fun afterOpen hopen => ?_
    exact .of_suffix ((skipBlank_suffix afterOpen).trans hopen) (readOps_staysIn registry _)

/-! ### Whole texts -/

/-- What follows a value but blanks is shown where it starts. -/
theorem exists_fault_of_parseWhole {α : Type} {read : List Char → Except Fault (α × List Char)}
    (hread : ∀ text, StaysIn text Prod.snd (read text)) {text : String} {e : ParseError}
    (h : parseWhole read text = .error e) :
    ∃ fault : Fault, fault.rest <:+ text.toList ∧ e = fault.report .start text.toList := by
  unfold parseWhole at h
  dsimp only at h
  refine StaysIn.exists_fault (fun _ => []) ?_ h
  refine (StaysIn.of_suffix (skipBlank_suffix _) (hread _)).bind fun result hrest => ?_
  obtain ⟨value, rest⟩ := result
  dsimp only at hrest ⊢
  split
  · exact List.nil_suffix
  · exact .of_suffix ((skipBlank_suffix rest).trans hrest) (expected_staysIn _ _)

end RiscvDialect.Generic
