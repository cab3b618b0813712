import UnionAtlas.Text.Blank

/-!
# Characters and blanks

A code point is read back from the bytes it is written as, whatever follows. So a text can be taken
apart into characters piece by piece, and blanks around a word are trimmed off without touching it.
-/

namespace UnionAtlas
namespace Utf8

/-! ## Reading what was written -/

theorem toNat_toUInt8 {n : Nat} (small : n < 256) : n.toUInt8.toNat = n := by
  rw [Nat.toUInt8, UInt8.toNat_ofNat', Nat.mod_eq_of_lt small]

theorem continuation {n : Nat} (small : n < 64) :
    isContinuation (0x80 + n).toUInt8 = true ∧ payload (0x80 + n).toUInt8 = n := by
  have value : (0x80 + n).toUInt8.toNat = 0x80 + n := toNat_toUInt8 (by omega)
  simp only [isContinuation, payload, Bool.and_eq_true, decide_eq_true_eq, UInt8.le_iff_toNat_le,
    value, UInt8.reduceToNat]
  omega

/-- A second byte is in range if it is a continuation that makes no overlong form, no surrogate and
no number beyond the last code point. -/
theorem secondRange_of_toNat {first second : UInt8} {high low : Nat}
    (lead : first.toNat = high) (value : second.toNat = 0x80 + low) (small : low < 64)
    (long : high = 0xE0 → 0x20 ≤ low) (surrogate : high = 0xED → low < 0x20)
    (overlong : high = 0xF0 → 0x10 ≤ low) (last : high = 0xF4 → low < 0x10) :
    (secondRange first).1.toNat ≤ second.toNat ∧
      second.toNat ≤ (secondRange first).2.toNat := by
  simp only [secondRange, beq_iff_eq, ← UInt8.toNat_inj, lead, UInt8.reduceToNat]
  split
  · simp only [UInt8.reduceToNat]
    omega
  · split
    · simp only [UInt8.reduceToNat]
      omega
    · split
      · simp only [UInt8.reduceToNat]
        omega
      · split
        · simp only [UInt8.reduceToNat]
          omega
        · simp only [UInt8.reduceToNat]
          omega

/-- A second byte that is in range is a continuation. -/
theorem isContinuation_of_secondRange {first b : UInt8}
    (inRange : ((secondRange first).1 ≤ b && b ≤ (secondRange first).2) = true) :
    isContinuation b = true := by
  unfold secondRange at inRange
  simp only [isContinuation, Bool.and_eq_true, decide_eq_true_eq, UInt8.le_iff_toNat_le] at *
  have range (p : UInt8 × UInt8) (least : 0x80 ≤ p.1.toNat) (most : p.2.toNat ≤ 0xBF)
      (within : p.1.toNat ≤ b.toNat ∧ b.toNat ≤ p.2.toNat) :
      0x80 ≤ b.toNat ∧ b.toNat ≤ 0xBF := by
    omega
  refine range _ ?_ ?_ inRange
  · repeat' split
    all_goals decide
  · repeat' split
    all_goals decide

section Front

variable {c : Nat} (rest : Bytes)

theorem front_one (small : c < 0x80) : front c.toUInt8 rest = (some c, 0) := by
  have first : c.toUInt8.toNat = c := toNat_toUInt8 (by omega)
  simp only [front, UInt8.lt_iff_toNat_lt, first, UInt8.reduceToNat, small, if_true]

theorem front_two (large : 0x80 ≤ c) (small : c < 0x800) :
    front (0xC0 + c / 64).toUInt8 ((0x80 + c % 64).toUInt8 :: rest) = (some c, 1) := by
  have first : (0xC0 + c / 64).toUInt8.toNat = 0xC0 + c / 64 := toNat_toUInt8 (by omega)
  obtain ⟨continues, low⟩ := continuation (n := c % 64) (by omega)
  have value : (0xC0 + c / 64 - 0xC0) * 64 + c % 64 = c := by omega
  simp only [front, UInt8.lt_iff_toNat_lt, UInt8.le_iff_toNat_le, first, continues, low, value,
    UInt8.reduceToNat, Bool.and_eq_true, decide_eq_true_eq, if_true]
  rw [if_neg (by omega), if_pos (by omega)]

theorem front_three (large : 0x800 ≤ c) (small : c < 0x10000)
    (scalar : c < 0xD800 ∨ 0xDFFF < c) :
    front (0xE0 + c / 4096).toUInt8
      ((0x80 + c / 64 % 64).toUInt8 :: (0x80 + c % 64).toUInt8 :: rest) = (some c, 2) := by
  have first : (0xE0 + c / 4096).toUInt8.toNat = 0xE0 + c / 4096 := toNat_toUInt8 (by omega)
  have second : (0x80 + c / 64 % 64).toUInt8.toNat = 0x80 + c / 64 % 64 := toNat_toUInt8 (by omega)
  obtain ⟨-, middle⟩ := continuation (n := c / 64 % 64) (by omega)
  obtain ⟨continues, low⟩ := continuation (n := c % 64) (by omega)
  have range := secondRange_of_toNat first second (by omega) (by omega) (by omega) (by omega)
    (by omega)
  have value : ((0xE0 + c / 4096 - 0xE0) * 64 + c / 64 % 64) * 64 + c % 64 = c := by omega
  simp only [front, range, continues, middle, low, value, UInt8.lt_iff_toNat_lt,
    UInt8.le_iff_toNat_le, first, UInt8.reduceToNat, Bool.and_eq_true, decide_eq_true_eq,
    and_self, if_true]
  rw [if_neg (by omega), if_neg (by omega), if_pos (by omega)]

theorem front_four (large : 0x10000 ≤ c) (small : c ≤ 0x10FFFF) :
    front (0xF0 + c / 262144).toUInt8 ((0x80 + c / 4096 % 64).toUInt8 ::
      (0x80 + c / 64 % 64).toUInt8 :: (0x80 + c % 64).toUInt8 :: rest) = (some c, 3) := by
  have first : (0xF0 + c / 262144).toUInt8.toNat = 0xF0 + c / 262144 := toNat_toUInt8 (by omega)
  have second : (0x80 + c / 4096 % 64).toUInt8.toNat = 0x80 + c / 4096 % 64 :=
    toNat_toUInt8 (by omega)
  obtain ⟨-, high⟩ := continuation (n := c / 4096 % 64) (by omega)
  obtain ⟨continues, middle⟩ := continuation (n := c / 64 % 64) (by omega)
  obtain ⟨continues', low⟩ := continuation (n := c % 64) (by omega)
  have range := secondRange_of_toNat first second (by omega) (by omega) (by omega) (by omega)
    (by omega)
  have value : (((0xF0 + c / 262144 - 0xF0) * 64 + c / 4096 % 64) * 64 + c / 64 % 64) * 64
      + c % 64 = c := by omega
  simp only [front, range, continues, continues', high, middle, low, value, UInt8.lt_iff_toNat_lt,
    UInt8.le_iff_toNat_le, first, UInt8.reduceToNat, Bool.and_eq_true, decide_eq_true_eq,
    and_self, if_true]
  rw [if_neg (by omega), if_neg (by omega), if_neg (by omega), if_pos (by omega)]

end Front

theorem runes_of_front {b : UInt8} {raw rest : Bytes} {c : Nat}
    (read : front b (raw ++ rest) = (some c, raw.length)) :
    runes (b :: raw ++ rest) = ⟨some c, b :: raw⟩ :: runes rest := by
  rw [List.cons_append, runes, read]
  simp

/-- A code point is read back, whatever follows it. -/
theorem runes_encode_append {c : Nat} (scalar : isScalar c = true) (rest : Bytes) :
    runes (encode c ++ rest) = ⟨some c, encode c⟩ :: runes rest := by
  have range : c < 0xD800 ∨ 0xDFFF < c ∧ c ≤ 0x10FFFF := by simpa [isScalar] using scalar
  simp only [encode, scalar, if_true]
  split
  · next small => exact runes_of_front (front_one _ small)
  · split
    · exact runes_of_front (front_two _ (by omega) (by omega))
    · split
      · exact runes_of_front (front_three _ (by omega) (by omega) (by omega))
      · exact runes_of_front (front_four _ (by omega) (by omega))

theorem runes_ascii_append {word : Bytes} (ascii : ∀ b ∈ word, b.toNat < 0x80) (rest : Bytes) :
    runes (word ++ rest) = (word.map fun b => ⟨some b.toNat, [b]⟩) ++ runes rest := by
  induction word with
  | nil => rfl
  | cons b word ih =>
    rw [List.forall_mem_cons] at ascii
    have read : front b (word ++ rest) = (some b.toNat, 0) := by
      simpa using front_one (word ++ rest) ascii.1
    rw [List.map_cons, List.cons_append, List.cons_append, ← ih ascii.2]
    exact @runes_of_front b [] (word ++ rest) b.toNat read

theorem isValid_of_ascii {word : Bytes} (ascii : ∀ b ∈ word, b.toNat < 0x80) :
    isValid word = true := by
  have read := runes_ascii_append ascii []
  rw [List.append_nil, runes, List.append_nil] at read
  simp [isValid, read]

end Utf8

/-! ## Blanks -/

/-- A text of blanks. -/
def Blanks (bs : Bytes) : Prop :=
  ∃ cs : List Nat, (∀ c ∈ cs, isBlank c = true) ∧ bs = cs.flatMap Utf8.encode

theorem isScalar_of_isBlank {c : Nat} (blank : isBlank c = true) : Utf8.isScalar c = true := by
  simp only [isBlank, Bool.or_eq_true, Bool.and_eq_true, decide_eq_true_eq, beq_iff_eq] at blank
  simp only [Utf8.isScalar, Bool.or_eq_true, Bool.and_eq_true, decide_eq_true_eq]
  omega

theorem runes_blanks_append {bs : Bytes} (blanks : Blanks bs) (rest : Bytes) :
    ∃ rs : List Rune, (∀ r ∈ rs, isBlank r.code = true) ∧
      Utf8.runes (bs ++ rest) = rs ++ Utf8.runes rest := by
  obtain ⟨cs, blank, rfl⟩ := blanks
  refine ⟨cs.map fun c => ⟨some c, Utf8.encode c⟩, ?_, ?_⟩
  · intro r member
    obtain ⟨c, known, rfl⟩ := List.mem_map.mp member
    exact blank c known
  · induction cs with
    | nil => rfl
    | cons c cs ih =>
      rw [List.forall_mem_cons] at blank
      rw [List.flatMap_cons, List.append_assoc,
        Utf8.runes_encode_append (isScalar_of_isBlank blank.1), ih blank.2, List.map_cons,
        List.cons_append]

/-- Dropping at both ends leaves what stands between, if nothing in it is dropped. -/
theorem dropWhile_both_ends {α : Type} {p : α → Bool} {front word back : List α}
    (before : ∀ a ∈ front, p a = true) (kept : ∀ a ∈ word, p a = false)
    (behind : ∀ a ∈ back, p a = true) :
    ((((front ++ (word ++ back)).dropWhile p).reverse).dropWhile p).reverse = word := by
  have stops {l : List α} (none : ∀ a ∈ l, p a = false) : l.dropWhile p = l := by
    cases l with
    | nil => rfl
    | cons a l => simp [none a List.mem_cons_self]
  have tail : (word ++ back).dropWhile p = if word = [] then [] else word ++ back := by
    cases word with
    | nil =>
      have gone : (back ++ []).dropWhile p = [].dropWhile p := List.dropWhile_append_of_pos behind
      simpa using gone
    | cons a word => simp [kept a List.mem_cons_self]
  rw [List.dropWhile_append_of_pos before, tail]
  by_cases empty : word = []
  · simp [empty]
  · rw [if_neg empty, List.reverse_append, List.dropWhile_append_of_pos (by simpa using behind),
      stops (by simpa using kept), List.reverse_reverse]

/-- Blanks around a word are trimmed off. -/
theorem trim_blanks {front word back : Bytes} (before : Blanks front)
    (ascii : ∀ b ∈ word, b.toNat < 0x80 ∧ isBlank b.toNat = false) (behind : Blanks back) :
    trim (front ++ (word ++ back)) = word := by
  obtain ⟨rs, blank, runes_front⟩ := runes_blanks_append before (word ++ back)
  obtain ⟨rs', blank', runes_back⟩ := runes_blanks_append behind []
  have runes_word := Utf8.runes_ascii_append (fun b member => (ascii b member).1) back
  have runes_nil : Utf8.runes [] = [] := by rw [Utf8.runes]
  rw [List.append_nil, runes_nil, List.append_nil] at runes_back
  rw [trim, runes_front, runes_word, runes_back, dropWhile_both_ends blank ?_ blank']
  · rw [Utf8.flatten, List.flatMap_map]
    simp
  · intro r member
    obtain ⟨b, known, rfl⟩ := List.mem_map.mp member
    exact (ascii b known).2

end UnionAtlas
