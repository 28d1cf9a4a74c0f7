import RiscvDialect.Reading

/-!
# Readers stay in their text

A reader never answers with characters of its own. What is left of the text when it has read a
value, and the part that it could not read when it has failed, are both an end of the text that it
was given. This holds for each reader because it holds for the readers that it calls one after the
other, and an end of what one of them has left is an end of the whole text.

## Main definitions

* `StaysIn`: the result of a reader that stays in its text

## Main statements

* `StaysIn.bind`: readers in a row stay in the text of the first
-/

namespace RiscvDialect

/-- A result of reading `text`, where `left` says what a value has left of it. Whatever the result
still has of the text is an end of it. -/
def StaysIn {α : Type} (text : List Char) (left : α → List Char) : Except Fault α → Prop
  | .ok value => left value <:+ text
  | .error fault => fault.rest <:+ text

namespace StaysIn

variable {α β : Type} {s t : List Char} {left : α → List Char} {leftOf : β → List Char}
  {x : Except Fault α}

theorem of_suffix (hs : s <:+ t) (h : StaysIn s left x) : StaysIn t left x := by
  cases x with
  | ok => exact List.IsSuffix.trans h hs
  | error => exact List.IsSuffix.trans h hs

/-- What the first reader has left is an end of the text, and the second may go on from there. -/
theorem bind {f : α → Except Fault β} (h : StaysIn t left x)
    (hf : ∀ a, left a <:+ t → StaysIn t leftOf (f a)) : StaysIn t leftOf (x >>= f) := by
  cases x with
  | ok a => exact hf a h
  | error => exact h

theorem map {f : α → β} (h : StaysIn t left x) (hf : ∀ a, leftOf (f a) = left a) :
    StaysIn t leftOf (x.map f) := by
  cases x with
  | ok a =>
    change leftOf (f a) <:+ t
    rw [hf]
    exact h
  | error => exact h

theorem ofRefusal {y : Except DialectError α} (hs : s <:+ t)
    (hy : ∀ a, y = .ok a → left a <:+ t) : StaysIn t left (Fault.ofRefusal s y) := by
  cases y with
  | ok a => exact hy a rfl
  | error => exact hs

/-- If such a result is a failure that is reported, a part of the text is what was not read. -/
theorem exists_fault {ε : Type} {report : Fault → ε} {e : ε} (left : α → List Char)
    (h : StaysIn t left x) (hreport : x.mapError report = .error e) :
    ∃ fault : Fault, fault.rest <:+ t ∧ e = report fault := by
  cases x with
  | ok => cases hreport
  | error fault =>
    cases hreport
    exact ⟨fault, h, rfl⟩

end StaysIn

/-- A reader that expected something else does not move. -/
theorem expected_staysIn {α : Type} {left : α → List Char} (what : String) (text : List Char) :
    StaysIn text left (Fault.expected what text) :=
  List.suffix_refl text

/-- What the dialect refuses is shown where it starts. -/
theorem ofRefusal_staysIn {α : Type} (y : Except DialectError α) (text : List Char) :
    StaysIn text (fun _ => []) (Fault.ofRefusal text y) :=
  .ofRefusal (List.suffix_refl text) fun _ _ => List.nil_suffix

theorem expectChar_staysIn (c : Char) (text : List Char) :
    StaysIn text id (expectChar c text) := by
  unfold expectChar
  split
  · split
    · exact List.suffix_cons _ _
    · exact expected_staysIn _ _
  · exact expected_staysIn _ _

end RiscvDialect
