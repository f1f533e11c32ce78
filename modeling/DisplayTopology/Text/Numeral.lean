/-!
# Unsigned numerals

A numeral is an optional plus sign followed by one or more ASCII digits; `numeral? limit` reads
one whose value lies below `limit`, with any number of leading zeros (`numeral?_eq_some_iff`). The
decimal digits of a number below the limit read back as that number (`numeral?_toDigits`).
-/

namespace DisplayTopology.Text

/-- The first number that a word of 32 bits cannot hold. -/
abbrev wordLimit32 : Nat := Nat.pow 2 32

/-- The first number that a word of 64 bits cannot hold. -/
abbrev wordLimit64 : Nat := Nat.pow 2 64

/-- A text without one leading plus sign. -/
def dropPlus : List Char → List Char
  | '+' :: cs => cs
  | cs => cs

/-- The value of an unsigned numeral below `limit`. -/
def numeral? (limit : Nat) (cs : List Char) : Option Nat :=
  let digits := dropPlus cs
  if digits ≠ [] ∧ digits.all Char.isDigit then
    let value := Nat.ofDigitChars 10 digits 0
    if value < limit then some value else none
  else none

/-- A text spells a number: ASCII digits, with one plus sign before them or none. -/
inductive Spells : List Char → Nat → Prop where
  | digits {cs : List Char} (hne : cs ≠ []) (h : ∀ c ∈ cs, c.isDigit) :
    Spells cs (Nat.ofDigitChars 10 cs 0)
  | plus {cs : List Char} (hne : cs ≠ []) (h : ∀ c ∈ cs, c.isDigit) :
    Spells ('+' :: cs) (Nat.ofDigitChars 10 cs 0)

theorem dropPlus_of_isDigit {cs : List Char} (h : ∀ c ∈ cs, c.isDigit) : dropPlus cs = cs := by
  rw [dropPlus.eq_def]
  split
  · exact absurd (h '+' List.mem_cons_self) (by decide)
  · rfl

theorem eq_dropPlus_or (cs : List Char) : cs = dropPlus cs ∨ cs = '+' :: dropPlus cs := by
  rw [dropPlus.eq_def]
  split
  · exact .inr rfl
  · exact .inl rfl

theorem spells_iff {cs : List Char} {n : Nat} : Spells cs n ↔
    (dropPlus cs ≠ [] ∧ ∀ c ∈ dropPlus cs, c.isDigit) ∧ n = Nat.ofDigitChars 10 (dropPlus cs) 0 := by
  constructor
  · intro h
    cases h with
    | digits hne h =>
      rw [dropPlus_of_isDigit h]
      exact ⟨⟨hne, h⟩, rfl⟩
    | plus hne h => exact ⟨⟨hne, h⟩, rfl⟩
  · rintro ⟨⟨hne, h⟩, rfl⟩
    rcases eq_dropPlus_or cs with hcs | hcs
    · have hspells := Spells.digits hne h
      rwa [← hcs] at hspells ⊢
    · have hspells := Spells.plus hne h
      rwa [← hcs] at hspells

/-- What is read is what is spelled, if it lies below the limit. -/
theorem numeral?_eq_some_iff {limit n : Nat} {cs : List Char} :
    numeral? limit cs = some n ↔ Spells cs n ∧ n < limit := by
  simp only [spells_iff, numeral?, Option.ite_none_right_eq_some, Option.some.injEq,
    List.all_eq_true]
  constructor
  · rintro ⟨hdigits, hlt, rfl⟩
    exact ⟨⟨hdigits, rfl⟩, hlt⟩
  · rintro ⟨⟨hdigits, rfl⟩, hlt⟩
    exact ⟨hdigits, hlt, rfl⟩

theorem numeral?_nil (limit : Nat) : numeral? limit [] = none := by simp [numeral?, dropPlus]

/-- The decimal digits of a number spell it. -/
theorem spells_toDigits (n : Nat) : Spells (Nat.toDigits 10 n) n := by
  have hdigits : ∀ c ∈ Nat.toDigits 10 n, c.isDigit := fun c hc =>
    Nat.isDigit_of_mem_toDigits (by decide) (by decide) hc
  have hspells := Spells.digits Nat.toDigits_ne_nil hdigits
  rwa [Nat.ofDigitChars_toDigits (by decide) (by decide)] at hspells

theorem numeral?_toDigits {limit n : Nat} (h : n < limit) :
    numeral? limit (Nat.toDigits 10 n) = some n :=
  numeral?_eq_some_iff.2 ⟨spells_toDigits n, h⟩

end DisplayTopology.Text
