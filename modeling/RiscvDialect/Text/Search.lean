/-!
# Searching a text

The first place where one text occurs in another.

## Main definitions

* `afterFirst?`: what follows the first occurrence
* `occursIn`: whether there is an occurrence

## Main statements

* `afterFirst?_eq_some`: the text splits at the occurrence
-/

namespace RiscvDialect.Text

/-- What follows the first occurrence of `pattern`. -/
def afterFirst? (pattern text : List Char) : Option (List Char) :=
  match pattern.isPrefixOf? text with
  | some rest => some rest
  | none =>
    match text with
    | [] => none
    | _ :: later => afterFirst? pattern later

/-- Whether `pattern` occurs in `text`. -/
def occursIn (pattern text : List Char) : Bool :=
  (afterFirst? pattern text).isSome

theorem eq_append_of_isPrefixOf? {pattern text rest : List Char}
    (h : pattern.isPrefixOf? text = some rest) : text = pattern ++ rest := by
  induction pattern generalizing text with
  | nil => exact Option.some.inj h
  | cons c pattern ih =>
    cases text with
    | nil => exact absurd h (Option.some_ne_none rest).symm
    | cons d text =>
      have h : (if c == d then pattern.isPrefixOf? text else none) = some rest := h
      split at h
      · next hcd => simp [eq_of_beq hcd, ih h]
      · simp at h

/-- What follows an occurrence is preceded by it. -/
theorem afterFirst?_eq_some {pattern text rest : List Char}
    (h : afterFirst? pattern text = some rest) : ∃ before, text = before ++ pattern ++ rest := by
  induction text with
  | nil =>
    rw [afterFirst?] at h
    split at h
    · next hp =>
      cases h
      exact ⟨[], eq_append_of_isPrefixOf? hp⟩
    · simp at h
  | cons c text ih =>
    rw [afterFirst?] at h
    split at h
    · next hp =>
      cases h
      exact ⟨[], eq_append_of_isPrefixOf? hp⟩
    · obtain ⟨before, hb⟩ := ih h
      exact ⟨c :: before, by simp [hb]⟩

end RiscvDialect.Text
