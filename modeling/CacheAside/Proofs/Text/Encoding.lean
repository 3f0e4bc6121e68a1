import CacheAside.Text.Numeral
import CacheAside.Text.Utf8

/-!
# Digits and bytes read back

A hexadecimal digit is read as what it stands for (`Numeral.hexDigit?_eq_some_iff`), and bytes that
are the UTF-8 of a row of characters as that row, without a hole (`Utf8.scan_encode`). They are the
bytes that strings have themselves, `Utf8.encodeChar_eq`.
-/

namespace CacheAside

namespace Numeral

variable {n : Nat} {c : Char}

/-- A hexadecimal digit, of either case. -/
def HexDigit (n : Nat) (c : Char) : Prop :=
  n < 16 ∧ (c = Nat.digitChar n ∨ c = (Nat.digitChar n).toUpper)

/-- A digit of either case is read as its number. -/
theorem HexDigit.read (digit : HexDigit n c) : hexDigit? c = some n := by
  have both : ∀ n < 16, hexDigit? (Nat.digitChar n) = some n ∧
      hexDigit? (Nat.digitChar n).toUpper = some n := by decide
  obtain ⟨bound, rfl | rfl⟩ := digit
  · exact (both n bound).1
  · exact (both n bound).2

/-- Nothing beyond the letters of the digits is read as one. -/
theorem lt_of_hexDigit? (read : hexDigit? c = some n) : c.toNat < 0x67 := by
  refine Decidable.byContradiction fun beyond => ?_
  have digit : c.isDigit = false := by
    rw [Char.isDigit, Bool.and_eq_false_iff]
    exact .inr (decide_eq_false fun le => beyond (Nat.lt_of_le_of_lt le (by decide)))
  have lower : ¬ ('a' ≤ c ∧ c ≤ 'f') := fun within =>
    beyond (Nat.lt_of_le_of_lt within.2 (by decide))
  have upper : ¬ ('A' ≤ c ∧ c ≤ 'F') := fun within =>
    beyond (Nat.lt_of_le_of_lt within.2 (by decide))
  rw [hexDigit?, digit, if_neg Bool.false_ne_true, if_neg lower, if_neg upper] at read
  cases read

/-- Nothing else is read as a digit. -/
theorem hexDigit?_eq_some_iff : hexDigit? c = some n ↔ HexDigit n c := by
  have all : ∀ k < 0x67, ∀ n ∈ hexDigit? (Char.ofNat k), HexDigit n (Char.ofNat k) := by
    unfold HexDigit
    decide
  constructor
  · intro read
    have spelled := all c.toNat (lt_of_hexDigit? read) n
    rw [Char.ofNat_toNat] at spelled
    exact spelled read
  · exact HexDigit.read

end Numeral

namespace Utf8

variable {c : Char} {b : UInt8} {p : Pending} {done : List (Option Char)} {rest : List UInt8}

/-- A character is a scalar value. -/
theorem toNat_bounds (c : Char) :
    c.toNat < 0x110000 ∧ (c.toNat < 0xD800 ∨ 0xDFFF < c.toNat) := by
  have valid := c.valid
  simp only [UInt32.isValidChar, Nat.isValidChar] at valid
  have value : c.val.toNat = c.toNat := rfl
  omega

/-- The bytes of a character are those that a string has for it. -/
theorem encodeChar_eq (c : Char) : encodeChar c = String.utf8EncodeChar c := by
  have bound := (toNat_bounds c).1
  have value : c.val.toNat = c.toNat := rfl
  unfold encodeChar String.utf8EncodeChar
  simp only [value]
  generalize c.toNat = n at bound
  by_cases one : n < 0x80
  · rw [if_pos one, if_pos (Nat.le_of_lt_succ one)]
  · rw [if_neg one, if_neg fun le => one (Nat.lt_succ_of_le le)]
    by_cases two : n < 0x800
    · have high : n / 64 % 0x20 = n / 64 := Nat.mod_eq_of_lt (by omega)
      rw [if_pos two, if_pos (Nat.le_of_lt_succ two), high]
      simp only [Nat.add_comm]
    · rw [if_neg two, if_neg fun le => two (Nat.lt_succ_of_le le)]
      by_cases three : n < 0x10000
      · have high : n / 4096 % 0x10 = n / 4096 := Nat.mod_eq_of_lt (by omega)
        rw [if_pos three, if_pos (Nat.le_of_lt_succ three), high]
        simp only [Nat.add_comm]
      · have high : n / 262144 % 0x08 = n / 262144 := Nat.mod_eq_of_lt (by omega)
        rw [if_neg three, if_neg fun le => three (Nat.lt_succ_of_le le), high]
        simp only [Nat.add_comm]

theorem toNat_ofNat {n : Nat} (fits : n < 256) : (UInt8.ofNat n).toNat = n :=
  UInt8.toNat_ofNat_of_lt' fits

/-- A character of ASCII is its own byte. -/
theorem encodeChar_of_ascii (ascii : c.toNat < 0x80) : encodeChar c = [UInt8.ofNat c.toNat] :=
  if_pos ascii

/-- Bytes below 0x80 stand for nothing but the character that they are. -/
theorem le_of_mem_encodeChar (wide : ¬ c.toNat < 0x80) {b : UInt8} (part : b ∈ encodeChar c) :
    0x80 ≤ b.toNat := by
  have bound := (toNat_bounds c).1
  have tail : ∀ n, 0x80 ≤ (UInt8.ofNat (0x80 + n % 64)).toNat := fun n => by
    rw [toNat_ofNat (by omega)]
    exact Nat.le_add_right _ _
  unfold encodeChar at part
  rw [if_neg wide] at part
  by_cases two : c.toNat < 0x800
  · rw [if_pos two] at part
    obtain rfl | part := List.mem_cons.mp part
    · rw [toNat_ofNat (by omega)]
      omega
    · obtain rfl := List.mem_singleton.mp part
      exact tail _
  · rw [if_neg two] at part
    by_cases three : c.toNat < 0x10000
    · rw [if_pos three] at part
      obtain rfl | part := List.mem_cons.mp part
      · rw [toNat_ofNat (by omega)]
        omega
      · simp only [List.mem_cons, List.not_mem_nil, or_false] at part
        rcases part with rfl | rfl <;> exact tail _
    · rw [if_neg three] at part
      obtain rfl | part := List.mem_cons.mp part
      · rw [toNat_ofNat (by omega)]
        omega
      · simp only [List.mem_cons, List.not_mem_nil, or_false] at part
        rcases part with rfl | rfl | rfl <;> exact tail _

/-! ## One byte -/

theorem scanFrom_alone (alone : lead b.toNat = some (.inl c)) :
    scanFrom none done (b :: rest) = scanFrom none (some c :: done) rest := by
  simp only [scanFrom, alone]

theorem scanFrom_begun (begins : lead b.toNat = some (.inr p)) :
    scanFrom none done (b :: rest) = scanFrom (some p) done rest := by
  simp only [scanFrom, begins]

/-- A byte in the range expected adds six bits, and ends the character if it is the last one. -/
theorem scanFrom_last {bits low high t : Nat} (short : t < 64)
    (within : low ≤ 0x80 + t ∧ 0x80 + t ≤ high) :
    scanFrom (some ⟨1, bits, low, high⟩) done (UInt8.ofNat (0x80 + t) :: rest) =
      scanFrom none (some (Char.ofNat (bits * 64 + t)) :: done) rest := by
  have byte := toNat_ofNat (n := 0x80 + t) (by omega)
  simp only [scanFrom, byte, if_pos within, Nat.add_sub_cancel_left, Nat.le_refl, if_true]

theorem scanFrom_more {missing bits low high t : Nat} (short : t < 64)
    (within : low ≤ 0x80 + t ∧ 0x80 + t ≤ high) :
    scanFrom (some ⟨missing + 2, bits, low, high⟩) done (UInt8.ofNat (0x80 + t) :: rest) =
      scanFrom (some ⟨missing + 1, bits * 64 + t, 0x80, 0xBF⟩) done rest := by
  have byte := toNat_ofNat (n := 0x80 + t) (by omega)
  have more : ¬ missing + 2 ≤ 1 := by omega
  simp only [scanFrom, byte, if_pos within, if_neg more, Nat.add_sub_cancel_left]
  rfl

/-! ## One character -/

/-- What is expected after the first byte of the UTF-8 of a number below 0x10000. -/
theorem lead_three {n : Nat} (least : 0x800 ≤ n) (most : n < 0x10000)
    (valid : n < 0xD800 ∨ 0xDFFF < n) : ∃ low high,
      lead (0xE0 + n / 4096) = some (.inr ⟨2, n / 4096, low, high⟩) ∧
      low ≤ 0x80 + n / 64 % 64 ∧ 0x80 + n / 64 % 64 ≤ high := by
  unfold lead
  rw [if_neg (by omega), if_neg (by omega), if_neg (by omega)]
  by_cases first : 0xE0 + n / 4096 = 0xE0
  · rw [if_pos first]
    have zero : n / 4096 = 0 := by omega
    exact ⟨0xA0, 0xBF, by rw [zero], by omega, by omega⟩
  · rw [if_neg first]
    by_cases surrogates : 0xE0 + n / 4096 = 0xED
    · rw [if_pos surrogates]
      have bits : n / 4096 = 0xD := by omega
      exact ⟨0x80, 0x9F, by rw [bits], by omega, by omega⟩
    · rw [if_neg surrogates, if_pos (by omega), Nat.add_sub_cancel_left]
      exact ⟨0x80, 0xBF, rfl, by omega, by omega⟩

/-- What is expected after the first byte of the UTF-8 of a larger number. -/
theorem lead_four {n : Nat} (least : 0x10000 ≤ n) (most : n < 0x110000) : ∃ low high,
    lead (0xF0 + n / 262144) = some (.inr ⟨3, n / 262144, low, high⟩) ∧
      low ≤ 0x80 + n / 4096 % 64 ∧ 0x80 + n / 4096 % 64 ≤ high := by
  unfold lead
  rw [if_neg (by omega), if_neg (by omega), if_neg (by omega), if_neg (by omega),
    if_neg (by omega), if_neg (by omega)]
  by_cases first : 0xF0 + n / 262144 = 0xF0
  · rw [if_pos first]
    have zero : n / 262144 = 0 := by omega
    exact ⟨0x90, 0xBF, by rw [zero], by omega, by omega⟩
  · rw [if_neg first]
    by_cases inner : 0xF0 + n / 262144 < 0xF4
    · rw [if_pos inner, Nat.add_sub_cancel_left]
      exact ⟨0x80, 0xBF, rfl, by omega, by omega⟩
    · rw [if_neg inner, if_pos (by omega)]
      have bits : n / 262144 = 4 := by omega
      exact ⟨0x80, 0x8F, by rw [bits], by omega, by omega⟩

/-- The bytes of a character are read as the character. -/
theorem scanFrom_encodeChar (c : Char) (done : List (Option Char)) (rest : List UInt8) :
    scanFrom none done (encodeChar c ++ rest) = scanFrom none (some c :: done) rest := by
  obtain ⟨bound, valid⟩ := toNat_bounds c
  have same : Char.ofNat c.toNat = c := Char.ofNat_toNat c
  unfold encodeChar
  generalize c.toNat = n at bound valid same
  subst same
  dsimp only
  by_cases one : n < 0x80
  · have alone : lead (UInt8.ofNat n).toNat = some (.inl (Char.ofNat n)) := by
      rw [toNat_ofNat (by omega), lead, if_pos one]
    rw [if_pos one]
    exact scanFrom_alone alone
  · rw [if_neg one]
    by_cases two : n < 0x800
    · have begins : lead (UInt8.ofNat (0xC0 + n / 64)).toNat =
          some (.inr ⟨1, n / 64, 0x80, 0xBF⟩) := by
        rw [toNat_ofNat (by omega), lead, if_neg (by omega), if_neg (by omega), if_pos (by omega),
          Nat.add_sub_cancel_left]
      have whole : n / 64 * 64 + n % 64 = n := by omega
      rw [if_pos two, List.cons_append, scanFrom_begun begins, List.cons_append,
        scanFrom_last (by omega) (by omega), whole]
      rfl
    · rw [if_neg two]
      by_cases three : n < 0x10000
      · obtain ⟨low, high, begins, within⟩ := lead_three (Nat.le_of_not_lt two) three valid
        rw [← toNat_ofNat (n := 0xE0 + n / 4096) (by omega)] at begins
        have whole : (n / 4096 * 64 + n / 64 % 64) * 64 + n % 64 = n := by omega
        rw [if_pos three, List.cons_append, scanFrom_begun begins, List.cons_append,
          scanFrom_more (by omega) within, List.cons_append,
          scanFrom_last (by omega) (by omega), whole]
        rfl
      · obtain ⟨low, high, begins, within⟩ := lead_four (Nat.le_of_not_lt three) bound
        rw [← toNat_ofNat (n := 0xF0 + n / 262144) (by omega)] at begins
        have whole : ((n / 262144 * 64 + n / 4096 % 64) * 64 + n / 64 % 64) * 64 + n % 64 = n := by
          omega
        rw [if_neg three, List.cons_append, scanFrom_begun begins, List.cons_append,
          scanFrom_more (by omega) within, List.cons_append,
          scanFrom_more (by omega) (by omega), List.cons_append,
          scanFrom_last (by omega) (by omega), whole]
        rfl

/-! ## Rows of characters -/

theorem scanFrom_encode (cs : List Char) (done : List (Option Char)) :
    scanFrom none done (encode cs) = done.reverse ++ cs.map some := by
  induction cs generalizing done with
  | nil => exact (List.append_nil _).symm
  | cons c cs ih =>
      have first : encode (c :: cs) = encodeChar c ++ encode cs := rfl
      rw [first, scanFrom_encodeChar, ih, List.reverse_cons, List.append_assoc]
      rfl

/-- The bytes of a text are read without a hole. -/
theorem scan_encode (cs : List Char) : scan (encode cs) = cs.map some := scanFrom_encode cs []

theorem decode?_encode (cs : List Char) : decode? (encode cs) = some (String.ofList cs) := by
  have whole : (cs.map some).mapM id = some cs := by
    rw [List.mapM_map]
    exact List.mapM_pure.trans (congrArg some (List.map_id cs))
  rw [decode?, scan_encode, whole, Option.map_some]

end Utf8

end CacheAside
