import Mathlib.Algebra.Group.Nat.Defs
import Mathlib.Data.Set.Function
import UnionAtlas.Handle.Codec

/-!
# Reading back what was written

Every reader of the wire format gives back what its writer wrote and leaves the bytes after it
alone. The length of a string is written in one of four widths, the widest of which has thirty-two
bits, so a name can be written if it is shorter than that. A handle is then read back by way of its
entries, one at a time, and its stored form tells it apart from every other handle.
-/

namespace UnionAtlas

namespace Bytes

@[simp]
theorem length_bigEndian (width n : Nat) : (bigEndian width n).length = width := by
  induction width generalizing n with
  | zero => rfl
  | succ width ih => simp [bigEndian, ih]

theorem ofBigEndian_append_byte (bs : Bytes) (b : UInt8) :
    ofBigEndian (bs ++ [b]) = ofBigEndian bs * 256 + b.toNat := by
  simp [ofBigEndian, List.foldl_append]

theorem ofBigEndian_bigEndian {width n : Nat} (fits : n < 256 ^ width) :
    ofBigEndian (bigEndian width n) = n := by
  induction width generalizing n with
  | zero =>
    have zero : n = 0 := by simpa using fits
    rw [zero]
    rfl
  | succ width ih =>
    have high : n / 256 < 256 ^ width := by
      rw [Nat.pow_succ] at fits
      exact Nat.div_lt_of_lt_mul (Nat.mul_comm _ _ ▸ fits)
    have low : n.toUInt8.toNat = n % 256 := by simp
    rw [bigEndian, ofBigEndian_append_byte, ih high, low]
    omega

end Bytes

namespace Wire

variable {n : Nat}

theorem take?_append (front rest : Bytes) :
    take? front.length (front ++ rest) = some (front, rest) := by
  rw [take?, if_pos (by simp), List.take_left, List.drop_left]

theorem number?_bigEndian {width : Nat} (fits : n < 256 ^ width) (rest : Bytes) :
    number? width (Bytes.bigEndian width n ++ rest) = some (n, rest) := by
  have taken := take?_append (Bytes.bigEndian width n) rest
  rw [Bytes.length_bigEndian] at taken
  simp only [number?, taken, Option.map_some, Bytes.ofBigEndian_bigEndian fits]

theorem word?_putByte (fits : n < 256 ^ 1) (rest : Bytes) :
    word? (putByte n ++ rest) = some (n.toUInt64, rest) := by
  have read := number?_bigEndian fits rest
  simp [putByte, word?, read]

theorem word?_putShort (fits : n < 256 ^ 2) (rest : Bytes) :
    word? (putShort n ++ rest) = some (n.toUInt64, rest) := by
  have read := number?_bigEndian fits rest
  simp [putShort, word?, read]

/-- The first byte of a tiny string holds the length. -/
theorem stringLength?_of_toNat {code : UInt8} (tiny : n < 32) (value : code.toNat = 0xA0 + n)
    (bs : Bytes) : stringLength? code bs = some (n, bs) := by
  have present : code ≠ 0xC0 := by
    rintro rfl
    have : (0xC0 : UInt8).toNat = 0xC0 := rfl
    omega
  have least : 0xA0 ≤ code := UInt8.le_iff_toNat_le.mpr (value ▸ Nat.le_add_right _ _)
  have most : code ≤ 0xBF :=
    UInt8.le_iff_toNat_le.mpr (value ▸ Nat.add_le_add_left (Nat.le_of_lt_succ tiny) _)
  simp [stringLength?, present, least, most, value]

theorem string?_tiny {s : Bytes} (tiny : s.length < 32) (rest : Bytes) :
    string? ((0xA0 + s.length).toUInt8 :: s ++ rest) = some (s, rest) := by
  have value : (0xA0 + s.length).toUInt8.toNat = 0xA0 + s.length := by
    rw [Nat.toUInt8, UInt8.toNat_ofNat']
    omega
  rw [List.cons_append, string?, stringLength?_of_toNat tiny value]
  exact take?_append s rest

/-- A longer string has its length after the first byte. -/
theorem string?_counted {code : UInt8} {s : Bytes} (width : Nat)
    (counted : ∀ bs, stringLength? code bs = number? width bs) (fits : s.length < 256 ^ width)
    (rest : Bytes) :
    string? (code :: Bytes.bigEndian width s.length ++ s ++ rest) = some (s, rest) := by
  rw [List.append_assoc, List.cons_append, string?, counted, number?_bigEndian fits]
  exact take?_append s rest

theorem string?_putString {s : Bytes} (short : s.length < 2 ^ 32) (rest : Bytes) :
    string? (putString s ++ rest) = some (s, rest) := by
  simp only [putString]
  split
  · next tiny => exact string?_tiny tiny rest
  · split
    · next byte => exact string?_counted 1 (fun _ => rfl) byte rest
    · split
      · next small => exact string?_counted 2 (fun _ => rfl) small rest
      · exact string?_counted 4 (fun _ => rfl) short rest

end Wire

namespace Handle

/-- The names of a handle can be written: their lengths have thirty-two bits. -/
def Fits (h : Handle) : Prop :=
  h.union.length < 2 ^ 32 ∧ h.case.length < 2 ^ 32

instance (h : Handle) : Decidable h.Fits :=
  inferInstanceAs (Decidable (_ ∧ _))

/-- An entry of a map is read by the field that its key names. -/
theorem Fields.readEntries?_cons {f f' : Fields} {key value rest : Bytes} {field : Field}
    (known : Field.ofKey? key = some field) (short : key.length < 2 ^ 32)
    (read : f.read? field (value ++ rest) = some (f', rest)) (n : Nat) :
    readEntries? (n + 1) f (Wire.putString key ++ (value ++ rest)) = readEntries? n f' rest := by
  rw [readEntries?, Wire.string?_putString short]
  simp only [known, read]

theorem Fields.read?_version (f : Fields) (rest : Bytes) :
    f.read? .version (Wire.putShort handleSchema ++ rest) =
      some ({ f with version := handleSchema }, rest) := by
  rw [read?, Wire.word?_putShort (by decide)]
  rfl

theorem Fields.read?_kind (f : Fields) (kind : HandleKind) (rest : Bytes) :
    f.read? .kind (Wire.putByte (kindCode kind) ++ rest) =
      some ({ f with kind := kindCode kind }, rest) := by
  rw [read?, Wire.word?_putByte (by cases kind <;> decide)]
  cases kind <;> rfl

theorem Fields.read?_union {s : Bytes} (f : Fields) (short : s.length < 2 ^ 32) (rest : Bytes) :
    f.read? .union (Wire.putString s ++ rest) = some ({ f with union := s }, rest) := by
  rw [read?, Wire.string?_putString short, Option.map_some]

theorem Fields.read?_case {s : Bytes} (f : Fields) (short : s.length < 2 ^ 32) (rest : Bytes) :
    f.read? .case (Wire.putString s ++ rest) = some ({ f with case := s }, rest) := by
  rw [read?, Wire.string?_putString short, Option.map_some]

/-- The stored form of a handle has its four fields, in this order. -/
theorem decode?_encode {h : Handle} (fits : h.Fits) (rest : Bytes) :
    Fields.decode? (h.encode ++ rest) =
      some (⟨handleSchema, kindCode h.kind, h.union, h.case⟩, rest) := by
  have map (bs : Bytes) : Fields.decode? (0x84 :: bs) = Fields.readEntries? 4 {} bs := rfl
  simp only [encode, List.cons_append, List.append_assoc]
  rw [map, Fields.readEntries?_cons rfl (by decide) (Fields.read?_version _ _),
    Fields.readEntries?_cons rfl (by decide) (Fields.read?_kind _ _ _),
    Fields.readEntries?_cons rfl (by decide) (Fields.read?_union _ fits.1 _),
    Fields.readEntries?_cons rfl (by decide) (Fields.read?_case _ fits.2 _)]
  rfl

/-- A handle is read back from its stored form, whatever follows. -/
theorem decode_encode {h : Handle} (fits : h.Fits) (rest : Bytes) :
    decode (h.encode ++ rest) = .ok h := by
  rw [decode, decode?_encode fits]
  cases h with
  | mk kind union case => cases kind <;> rfl

/-- Where one stored form ends and what follows it are determined by the whole. -/
theorem encode_append_inj {h h' : Handle} (fits : h.Fits) (fits' : h'.Fits) {rest rest' : Bytes}
    (equal : h.encode ++ rest = h'.encode ++ rest') : h = h' ∧ rest = rest' := by
  have read := decode_encode fits rest
  rw [equal, decode_encode fits' rest'] at read
  obtain rfl : h' = h := Except.ok.inj read
  exact ⟨rfl, List.append_cancel_left equal⟩

/-- Every handle whose names can be written is read back from its stored form, whatever bytes the
names hold and whatever follows. Hence different handles have different stored forms, and none of
these is the beginning of another. -/
theorem stored_form_determines_handle :
    (∀ h : Handle, h.Fits → ∀ rest, decode (h.encode ++ rest) = .ok h) ∧
    Set.InjOn encode {h | h.Fits} ∧
    ∀ h h' : Handle, h.Fits → h'.Fits → h.encode <+: h'.encode → h = h' := by
  refine ⟨?_, ?_, ?_⟩
  · intro h fits rest
    exact decode_encode fits rest
  · intro h fits h' fits' equal
    have padded : h.encode ++ [] = h'.encode ++ [] := congrArg (· ++ []) equal
    exact (encode_append_inj fits fits' padded).1
  · rintro h h' fits fits' ⟨rest, equal⟩
    have padded : h.encode ++ rest = h'.encode ++ [] := by rw [equal, List.append_nil]
    exact (encode_append_inj fits fits' padded).1

/-- The name of the union is the shortest with a length of two bytes, and is no text; the name of
the case is the shortest with a length of one byte. A second map follows. -/
theorem stored_form_determines_handle_wide :
    let h : Handle := ⟨.tag, List.replicate 256 0xFF, List.replicate 32 0⟩
    h.Fits ∧ decode (h.encode ++ [0x84]) = .ok h := by
  intro h
  have fits : h.Fits := by
    simp only [Fits, h, List.length_replicate]
    decide
  exact ⟨fits, stored_form_determines_handle.1 h fits [0x84]⟩

end Handle
end UnionAtlas
