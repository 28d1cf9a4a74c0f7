import Mathlib.Data.List.DropRight
import RiscvDialect.Proofs.Text.Line

/-!
# Positions, counted from the start

A position is found by going through the text before it, character by character. Here it is said
what it comes to.

## Main statements

* `Position.start_advance`: the position behind a text
* `isValid_utf8ByteSize`: a text can be cut behind a part of it
-/

namespace RiscvDialect.Text

/-- The bytes of a text are in front of the position behind it, the newlines of the text tell the
line, and the characters behind the last of them tell the column. -/
theorem Position.start_advance (text : List Char) :
    start.advance text = ⟨(String.ofList text).utf8ByteSize, 1 + text.count '\n',
      1 + (text.rtakeWhile (· ≠ '\n')).length⟩ := by
  induction text using List.reverseRecOn with
  | nil => rfl
  | append_singleton text c ih =>
    have hsize : (String.ofList (text ++ [c])).utf8ByteSize =
        (String.ofList text).utf8ByteSize + c.utf8Size := by
      rw [String.ofList_append, String.utf8ByteSize_append, utf8ByteSize_ofList_cons]
      rfl
    rw [advance_append, ih, hsize, advance_cons, advance_nil, step, List.count_append,
      List.count_singleton]
    by_cases hc : c = '\n'
    · rw [if_pos hc, List.rtakeWhile_concat_neg _ _ _ (by simpa using hc)]
      simp [hc, Nat.add_assoc]
    · rw [if_neg hc, List.rtakeWhile_concat_pos _ _ _ (by simpa using hc)]
      simp [hc, Nat.add_assoc]

theorem isValid_utf8ByteSize (before after : String) :
    String.Pos.Raw.IsValid (before ++ after) ⟨before.utf8ByteSize⟩ :=
  String.Pos.Raw.isValid_iff_exists_append.2 ⟨before, after, rfl, rfl⟩

end RiscvDialect.Text
