import Mathlib.Data.List.Basic
import UnionAtlas.Text.Bytes

/-!
# Numbers and bytes as digits

Decimal and hexadecimal texts determine what they were written from, and hold no byte but digits and
small letters. A text that is put together from parts with a sign between them can therefore be
taken apart again at the last sign, even when the first part is arbitrary.
-/

namespace UnionAtlas
namespace Bytes

/-- What follows the last occurrence of a byte, and what comes before it, are determined by the
whole. -/
theorem append_sep_inj {sep : UInt8} {front front' rest rest' : Bytes} (absent : sep ∉ rest)
    (absent' : sep ∉ rest') (equal : front ++ sep :: rest = front' ++ sep :: rest') :
    front = front' ∧ rest = rest' := by
  rcases List.append_eq_append_iff.mp equal with ⟨more, rfl, tail⟩ | ⟨more, rfl, tail⟩
  · cases more with
    | nil => simpa using tail
    | cons b more =>
      obtain ⟨-, rfl⟩ := List.cons.inj tail
      exact absurd (by simp) absent
  · cases more with
    | nil => simpa [eq_comm] using tail
    | cons b more =>
      obtain ⟨-, rfl⟩ := List.cons.inj tail
      exact absurd (by simp) absent'

/-- The byte of a decimal digit has the number of the digit's character. -/
theorem toNat_ascii_of_isDigit {c : Char} (digit : c.isDigit = true) :
    (ascii c).toNat = c.toNat ∧ 48 ≤ c.toNat ∧ c.toNat ≤ 57 := by
  have range : 48 ≤ c.toNat ∧ c.toNat ≤ 57 := by
    simp only [Char.isDigit, Bool.and_eq_true, decide_eq_true_eq, ge_iff_le,
      UInt32.le_iff_toNat_le] at digit
    exact digit
  refine ⟨?_, range⟩
  have small : c.toNat < 256 := by omega
  simp [ascii, Nat.mod_eq_of_lt small]

/-- The bytes of a decimal number are digits. -/
theorem mem_decimal {n : Nat} {b : UInt8} (member : b ∈ decimal n) :
    48 ≤ b.toNat ∧ b.toNat ≤ 57 := by
  obtain ⟨c, found, rfl⟩ := List.mem_map.mp member
  have digit := Nat.isDigit_of_mem_toDigits (by decide) (by decide) found
  rw [(toNat_ascii_of_isDigit digit).1]
  exact (toNat_ascii_of_isDigit digit).2

/-- A number is read back from its decimal digits. -/
theorem digitsValue_decimal (n : Nat) : digitsValue (decimal n) = n := by
  have values : digitsValue (decimal n) = Nat.ofDigitChars 10 (Nat.toDigits 10 n) 0 := by
    rw [digitsValue, decimal, List.foldl_map, Nat.ofDigitChars]
    apply List.foldl_ext
    intro sofar c found
    have digit := Nat.isDigit_of_mem_toDigits (by decide) (by decide) found
    rw [(toNat_ascii_of_isDigit digit).1, Nat.mul_comm]
    rfl
  rw [values, Nat.ofDigitChars_ten_toDigits]

theorem decimal_injective : Function.Injective decimal := by
  intro n n' equal
  rw [← digitsValue_decimal n, equal, digitsValue_decimal]

/-- The sixteen digits are different, and none of them is a sign. -/
theorem toNat_hexDigit {n : Nat} (small : n < 16) :
    (hexDigit n).toNat = if n < 10 then 48 + n else 87 + n := by
  unfold hexDigit
  split <;> simp <;> omega

theorem hexDigit_inj {n n' : Nat} (small : n < 16) (small' : n' < 16)
    (equal : hexDigit n = hexDigit n') : n = n' := by
  have values := congrArg UInt8.toNat equal
  rw [toNat_hexDigit small, toNat_hexDigit small'] at values
  split at values <;> split at values <;> omega

/-- The bytes of a hexadecimal text are digits or small letters. -/
theorem mem_hex {bs : Bytes} {b : UInt8} (member : b ∈ hex bs) :
    48 ≤ b.toNat ∧ b.toNat ≤ 57 ∨ 97 ≤ b.toNat ∧ b.toNat ≤ 102 := by
  obtain ⟨a, -, found⟩ := List.mem_flatMap.mp member
  have digit : ∃ n < 16, b = hexDigit n := by
    rcases List.mem_pair.mp found with rfl | rfl
    · exact ⟨_, by have := a.toNat_lt; omega, rfl⟩
    · exact ⟨_, by omega, rfl⟩
  obtain ⟨n, small, rfl⟩ := digit
  rw [toNat_hexDigit small]
  split <;> omega

/-- Bytes are determined by their hexadecimal text. -/
theorem hex_injective : Function.Injective hex := by
  intro bs
  induction bs with
  | nil =>
    intro bs' equal
    cases bs' with
    | nil => rfl
    | cons b' rest' => simp [hex] at equal
  | cons b rest ih =>
    intro bs' equal
    cases bs' with
    | nil => simp [hex] at equal
    | cons b' rest' =>
      simp only [hex, List.flatMap_cons, List.cons_append, List.nil_append,
        List.cons.injEq] at equal
      obtain ⟨high, low, tail⟩ := equal
      have below := b.toNat_lt
      have below' := b'.toNat_lt
      have high' := hexDigit_inj (by omega) (by omega) high
      have low' := hexDigit_inj (by omega) (by omega) low
      have same : b = b' := UInt8.toNat_inj.mp (by omega)
      rw [same, ih tail]

end Bytes

end UnionAtlas
