import CacheAside.Text.Numeral
import Mathlib.Data.Nat.Digits.Defs
import Mathlib.Data.Set.List

/-!
# Numbers in decimal

The texts in which `Numeral.unsigned?` finds a number are given here by their form, not by how they
are read: an optional plus sign, and then a row of digits that stands for the number by the places
of its digits. A row may begin with zeros and be of any length, so it is the number and not the
text that has to stay below the bound (`unsigned?_eq_some_iff`). What `toString` writes is such a
text, `spells_toString`.
-/

namespace CacheAside.Numeral

variable {n bound : Nat} {c : Char} {cs : List Char} {s : String}

/-- The characters of a row of digits. -/
def row (digits : List (Fin 10)) : List Char := digits.map fun d => Nat.digitChar d.val

/-- The number that a row of digits stands for, the digit of the highest place first. -/
def value (digits : List (Fin 10)) : Nat := Nat.ofDigits 10 (digits.reverse.map Fin.val)

/-- An optional plus sign, and then a row of at least one digit that stands for `n`. -/
def Spells (n : Nat) (cs : List Char) : Prop :=
  ∃ digits, digits ≠ [] ∧ value digits = n ∧ (cs = row digits ∨ cs = '+' :: row digits)

/-! ## Rows of digits -/

theorem isDigit_row (digits : List (Fin 10)) : ∀ c ∈ row digits, c.isDigit := by
  intro c part
  obtain ⟨d, -, rfl⟩ := List.mem_map.mp part
  rw [Nat.isDigit_digitChar]
  exact decide_eq_true d.isLt

/-- Every ASCII digit is the character of one of the ten digits. -/
theorem exists_digit (digit : c.isDigit) : ∃ d : Fin 10, Nat.digitChar d = c := by
  have characters : ∀ d : Fin 10, (Nat.digitChar d).toNat = '0'.toNat + d := by decide
  obtain ⟨low, high⟩ := Char.isDigit_iff_toNat.mp digit
  have nine : '9'.toNat = '0'.toNat + 9 := rfl
  refine ⟨⟨c.toNat - '0'.toNat, by omega⟩, ?_⟩
  rw [← Char.toNat_inj, characters, Nat.add_sub_cancel' low]

theorem exists_row (digit : ∀ c ∈ cs, c.isDigit) : ∃ digits, row digits = cs := by
  have each : ∀ c ∈ cs, c ∈ Set.range fun d : Fin 10 => Nat.digitChar d := fun c part =>
    exists_digit (digit c part)
  have rows := Set.range_list_map fun d : Fin 10 => Nat.digitChar d
  exact rows.symm.subset each

/-- To read one digit more is to move the others one place up. -/
theorem foldl_shift_row (digits : List (Fin 10)) : (row digits).foldl shift 0 = value digits := by
  have place : ∀ n (d : Fin 10), shift n (Nat.digitChar d) = d + 10 * n := by
    intro n d
    have digit : (Nat.digitChar d).toNat - '0'.toNat = d :=
      Nat.toNat_digitChar_sub_48_of_lt_ten d.isLt
    rw [shift, digit, Nat.add_comm]
  rw [row, List.foldl_map, value, Nat.ofDigits_eq_foldr, List.foldr_map, List.foldr_reverse]
  simp only [place, Nat.cast_id]

/-- Digits are read as the number that they have in the decimal system. -/
theorem digits?_eq_some_iff :
    digits? cs = some n ↔ ∃ digits, digits ≠ [] ∧ value digits = n ∧ row digits = cs := by
  unfold digits?
  constructor
  · intro read
    split at read
    · cases read
    · rename_i proper
      obtain ⟨filled, digit⟩ : cs ≠ [] ∧ ∀ c ∈ cs, c.isDigit := by simpa using proper
      obtain ⟨digits, rfl⟩ := exists_row digit
      refine ⟨digits, ?_, ?_, rfl⟩
      · rintro rfl
        exact filled rfl
      · rw [← foldl_shift_row]
        exact Option.some.inj read
  · rintro ⟨digits, filled, rfl, rfl⟩
    have proper : ¬ ((row digits).isEmpty || !(row digits).all Char.isDigit) = true := by
      have all : (row digits).all Char.isDigit := List.all_eq_true.mpr (isDigit_row digits)
      simpa [all, row] using filled
    rw [if_neg proper, foldl_shift_row]

/-! ## The sign -/

/-- The text behind a plus sign, if there is one. -/
def signless : List Char → List Char
  | '+' :: cs => cs
  | cs => cs

theorem unsigned?_eq : unsigned? bound s = (digits? (signless s.toList)).filter (· < bound) := by
  unfold unsigned?
  generalize s.toList = cs
  fun_cases signless cs with
  | case1 cs => rfl
  | case2 cs plain =>
      dsimp only
      split
      · exact (plain _ rfl).elim
      · rfl

/-- The sign is no digit, so a row of digits is without one. -/
theorem signless_row (digits : List (Fin 10)) : signless (row digits) = row digits := by
  unfold signless
  split
  · rename_i cs signed
    have digit : '+'.isDigit := isDigit_row digits '+' (by rw [signed]; exact List.mem_cons_self)
    cases digit
  · rfl

theorem eq_signless_iff (digits : List (Fin 10)) :
    row digits = signless cs ↔ cs = row digits ∨ cs = '+' :: row digits := by
  constructor
  · intro rest
    unfold signless at rest
    split at rest
    · exact .inr (by rw [rest])
    · exact .inl rest.symm
  · rintro (rfl | rfl)
    · exact (signless_row digits).symm
    · rfl

/-! ## Whole texts -/

/-- A numeral is read exactly if it spells a number below the bound. -/
theorem unsigned?_eq_some_iff :
    unsigned? bound s = some n ↔ Spells n s.toList ∧ n < bound := by
  rw [unsigned?_eq, Option.filter_eq_some_iff, digits?_eq_some_iff, decide_eq_true_iff]
  simp only [Spells, eq_signless_iff]

/-- What is written of a number is read as that number. -/
theorem spells_toString (n : Nat) : Spells n (toString n).toList := by
  have written : (toString n).toList = Nat.toDigits 10 n := Nat.toList_repr
  obtain ⟨digits, spelled⟩ : ∃ digits, row digits = Nat.toDigits 10 n :=
    exists_row fun c part => Nat.isDigit_of_mem_toDigits (by decide) (by decide) part
  refine ⟨digits, ?_, ?_, .inl (written.trans spelled.symm)⟩
  · rintro rfl
    exact Nat.toDigits_ne_nil spelled.symm
  · calc value digits = (Nat.toDigits 10 n).foldl shift 0 := by rw [← spelled, foldl_shift_row]
      _ = n := Nat.ofDigitChars_ten_toDigits

end CacheAside.Numeral
