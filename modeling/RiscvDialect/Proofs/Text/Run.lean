import Mathlib.Data.List.TakeWhile
import RiscvDialect.Symbol

/-!
# Longest runs

Names and numerals are read as the longest runs of characters of some class. Such a run ends where
it was meant to end if the text after it starts with no further character of the class.

## Main definitions

* `Stops`: a text that does not continue a run

## Main statements

* `takeWhile_append_of_stops`, `dropWhile_append_of_stops`: a run ends where it was meant to end
* `readSymbol_append`: so does a symbol
-/

namespace RiscvDialect

namespace Text

/-! ### Runs of a class of characters -/

/-- Whether all characters of a text are of a kind is decided along the text, and not by going
through all characters that there are. -/
instance decidableForallMem (kind : Char → Prop) [DecidablePred kind] (text : List Char) :
    Decidable (∀ c ∈ text, kind c) :=
  List.decidableBAll kind text

/-- The text does not start with a character of the class. -/
def Stops (p : Char → Bool) (text : List Char) : Prop :=
  ∀ c ∈ text.head?, p c = false

variable {p q : Char → Bool} {s t : List Char} {c : Char}

@[simp] theorem stops_nil : Stops p [] := by
  simp [Stops]

@[simp] theorem stops_cons : Stops p (c :: t) ↔ p c = false := by
  simp [Stops]

theorem stops_append_of_ne_nil (hs : s ≠ []) : Stops p (s ++ t) ↔ Stops p s := by
  cases s with
  | nil => exact absurd rfl hs
  | cons c s => simp

/-- What stops a class stops each part of it. -/
theorem Stops.mono (h : Stops q t) (hpq : ∀ c, p c → q c) : Stops p t := by
  intro c hc
  have := h c hc
  cases hp : p c with
  | false => rfl
  | true => simp [hpq c hp] at this

theorem not_of_mem_head?_dropWhile {α : Type} {kind : α → Bool} {l : List α} {a : α}
    (h : a ∈ (l.dropWhile kind).head?) : ¬ kind a := by
  have hhead := List.head?_dropWhile_not kind l
  rw [Option.mem_def.1 h] at hhead
  exact Bool.eq_false_iff.1 hhead

theorem stops_dropWhile : Stops p (t.dropWhile p) := fun _ hc =>
  Bool.eq_false_iff.2 (not_of_mem_head?_dropWhile hc)

theorem dropWhile_of_stops (h : Stops p t) : t.dropWhile p = t := by
  cases t with
  | nil => rfl
  | cons c t => simp [stops_cons.1 h]

theorem takeWhile_append_of_stops (hs : ∀ c ∈ s, p c) (ht : Stops p t) :
    (s ++ t).takeWhile p = s := by
  rw [List.takeWhile_append_of_pos hs]
  cases t with
  | nil => simp
  | cons c t => simp [stops_cons.1 ht]

theorem dropWhile_append_of_stops (hs : ∀ c ∈ s, p c) (ht : Stops p t) :
    (s ++ t).dropWhile p = t := by
  rw [List.dropWhile_append_of_pos hs, dropWhile_of_stops ht]

/-- A run and what follows it, from a text. -/
theorem exists_run (p : Char → Bool) (t : List Char) :
    ∃ run rest, t = run ++ rest ∧ (∀ c ∈ run, p c) ∧ Stops p rest ∧
      t.takeWhile p = run ∧ t.dropWhile p = rest :=
  ⟨_, _, List.takeWhile_append_dropWhile.symm, fun _ hc => List.mem_takeWhile_imp hc,
    stops_dropWhile, rfl, rfl⟩

end Text

open Text

/-! ### Symbols -/

theorem isSymbolChar_of_isSymbolStart {c : Char} (h : isSymbolStart c) : isSymbolChar c := by
  simp [isSymbolChar, h]

theorem toNat_of_isAlpha {c : Char} (h : c.isAlpha) :
    (65 ≤ c.toNat ∧ c.toNat ≤ 90) ∨ (97 ≤ c.toNat ∧ c.toNat ≤ 122) := by
  rcases Bool.or_eq_true_iff.1 h with h | h
  · exact .inl (of_decide_eq_true h)
  · exact .inr ((Bool.and_eq_true_iff.1 h).imp of_decide_eq_true of_decide_eq_true)

theorem toNat_of_isDigit {c : Char} (h : c.isDigit) : 48 ≤ c.toNat ∧ c.toNat ≤ 57 :=
  Char.isDigit_iff_toNat.1 h

theorem not_isDigit_of_isSymbolStart {c : Char} (h : isSymbolStart c) : c.isDigit = false := by
  rw [Bool.eq_false_iff]
  intro hdigit
  simp only [isSymbolStart, Bool.or_eq_true, beq_iff_eq] at h
  rcases h with ((halpha | rfl) | rfl) | rfl
  · have hletter := toNat_of_isAlpha halpha
    have hnumber := toNat_of_isDigit hdigit
    omega
  all_goals exact absurd hdigit (by decide)

/-- The characters of symbols lie in a part of ASCII without white space. -/
theorem toNat_of_isSymbolChar {c : Char} (h : isSymbolChar c) :
    36 ≤ c.toNat ∧ c.toNat ≤ 122 := by
  simp only [isSymbolChar, isSymbolStart, Bool.or_eq_true, beq_iff_eq] at h
  rcases h with (((h | rfl) | rfl) | rfl) | h
  · have hletter := toNat_of_isAlpha h
    omega
  · decide
  · decide
  · decide
  · have hnumber := toNat_of_isDigit h
    omega

/-- Symbols are not empty. -/
theorem exists_eq_cons_of_isSymbol {name : List Char} (h : isSymbol name) :
    ∃ c later, name = c :: later ∧ isSymbolStart c ∧ ∀ d ∈ later, isSymbolChar d := by
  cases name with
  | nil => simp [isSymbol] at h
  | cons c later =>
    simp only [isSymbol, Bool.and_eq_true, List.all_eq_true] at h
    exact ⟨c, later, rfl, h⟩

theorem isSymbolChar_of_mem {name : List Char} (h : isSymbol name) {c : Char} (hc : c ∈ name) :
    isSymbolChar c := by
  obtain ⟨d, later, rfl, hd, hlater⟩ := exists_eq_cons_of_isSymbol h
  rcases List.mem_cons.1 hc with rfl | hc
  · exact isSymbolChar_of_isSymbolStart hd
  · exact hlater c hc

/-- A symbol is read up to the first character that is no part of it. -/
theorem readSymbol_append {name rest : List Char} (hname : isSymbol name)
    (hrest : Stops isSymbolChar rest) : readSymbol (name ++ rest) = some (name, rest) := by
  obtain ⟨c, later, rfl, hc, hlater⟩ := exists_eq_cons_of_isSymbol hname
  simp [readSymbol, hc, takeWhile_append_of_stops hlater hrest,
    dropWhile_append_of_stops hlater hrest]

end RiscvDialect
