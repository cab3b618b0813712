import Mathlib.Data.List.Forall2
import UnionAtlas.Proofs.Text.Characters
import UnionAtlas.Proofs.Text.Numerals
import UnionAtlas.Text.Hex

/-!
# Hexadecimal texts as people write them

The digits of a byte string are read back whether letters are small or large, and with any blanks
around them.
-/

namespace UnionAtlas

/-! ## Digits -/

namespace Bytes

/-- The first text is the second with some of its small letters written large. -/
def Recased (written digits : Bytes) : Prop :=
  List.Forall₂ (fun w d => w = d ∨ 97 ≤ d.toNat ∧ d.toNat ≤ 122 ∧ w.toNat + 32 = d.toNat)
    written digits

instance (written digits : Bytes) : Decidable (Recased written digits) :=
  inferInstanceAs (Decidable (List.Forall₂ _ written digits))

theorem hexValue?_recased {n : Nat} {w : UInt8} (small : n < 16)
    (spelled : w = hexDigit n ∨
      97 ≤ (hexDigit n).toNat ∧ (hexDigit n).toNat ≤ 122 ∧ w.toNat + 32 = (hexDigit n).toNat) :
    hexValue? w = some n := by
  have digit := toNat_hexDigit small
  rw [hexValue?]
  rcases spelled with rfl | ⟨letter, -, large⟩
  · by_cases decimal : n < 10
    · rw [if_pos decimal] at digit
      rw [if_pos (by omega)]
      exact congrArg some (by omega)
    · rw [if_neg decimal] at digit
      rw [if_neg (by omega), if_pos (by omega)]
      exact congrArg some (by omega)
  · by_cases decimal : n < 10
    · rw [if_pos decimal] at digit
      omega
    · rw [if_neg decimal] at digit
      rw [if_neg (by omega), if_neg (by omega), if_pos (by omega)]
      exact congrArg some (by omega)

/-- The two digits of a byte are its value. -/
theorem toUInt8_halves (b : UInt8) : (b.toNat / 16 * 16 + b.toNat % 16).toUInt8 = b := by
  have whole : b.toNat / 16 * 16 + b.toNat % 16 = b.toNat := by omega
  rw [whole]
  exact UInt8.ofNat_toNat

/-- Digits are read back in either case. -/
theorem unhex_recased {written data : Bytes} (spelled : Recased written (hex data)) :
    unhex written = .ok data := by
  induction data generalizing written with
  | nil =>
    cases spelled
    rfl
  | cons b data ih =>
    have below := b.toNat_lt
    cases spelled with
    | cons high rest =>
      cases rest with
      | cons low rest =>
        rw [unhex, hexValue?_recased (by omega) high, hexValue?_recased (by omega) low]
        simp only [ih rest, Except.map, toUInt8_halves]

/-- A digit in either case is a character of its own and no blank. -/
theorem Recased.digit {written digits : Bytes} (spelled : Recased written digits)
    (hexadecimal : ∀ d ∈ digits, 48 ≤ d.toNat ∧ d.toNat ≤ 57 ∨ 97 ≤ d.toNat ∧ d.toNat ≤ 102) :
    ∀ w ∈ written, 48 ≤ w.toNat ∧ w.toNat ≤ 102 := by
  induction spelled with
  | nil => simp
  | cons first rest ih =>
    rw [List.forall_mem_cons] at hexadecimal ⊢
    refine ⟨?_, ih hexadecimal.2⟩
    have range := hexadecimal.1
    rcases first with rfl | ⟨letter, -, large⟩
    · omega
    · omega

end Bytes

/-! ## Digits between blanks -/

theorem isBlank_of_digit {n : Nat} (least : 48 ≤ n) (most : n ≤ 102) : isBlank n = false := by
  simp only [isBlank, Bool.or_eq_false_iff, Bool.and_eq_false_iff, decide_eq_false_iff_not,
    beq_eq_false_iff_ne]
  omega

/-- The text is a hexadecimal one with large letters for some of the small ones, and with blanks
around it. -/
def WrittenAs (written digits : Bytes) : Prop :=
  ∃ front spelled back, Blanks front ∧ Bytes.Recased spelled digits ∧ Blanks back ∧
    written = front ++ (spelled ++ back)

/-- Bytes are read back from their digits, however these are written. -/
theorem unhex_trim {written data : Bytes} (writing : WrittenAs written (Bytes.hex data)) :
    unhex (trim written) = .ok data := by
  obtain ⟨front, spelled, back, before, recased, behind, rfl⟩ := writing
  have digits := recased.digit fun d member => Bytes.mem_hex member
  rw [trim_blanks before ?_ behind]
  · exact Bytes.unhex_recased recased
  · intro b member
    have range := digits b member
    exact ⟨by omega, isBlank_of_digit range.1 range.2⟩

theorem writtenAs_self (digits : Bytes) : WrittenAs digits digits :=
  ⟨[], digits, [], ⟨[], by simp, rfl⟩, List.forall₂_same.mpr fun _ _ => .inl rfl,
    ⟨[], by simp, rfl⟩, by simp⟩

end UnionAtlas
