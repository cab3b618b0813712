import Mathlib.Algebra.Ring.Int.Defs
import UnionAtlas.Proofs.Handle.Prompt

/-!
# Maps that others have written

A writer is free to choose widths: an integer may be written in up to nine forms and a string in up
to four, and the entries of a map may come in any order. This module lists the forms, and follows a
map of the four fields of a handle through the reader, whatever forms were chosen. The reader keeps
of an integer the bits that its field has room for.
-/

namespace UnionAtlas

namespace Wire

/-! ## Integers -/

/-- The number of bytes of a written integer. -/
inductive Width where
  | one
  | two
  | four
  | eight
  deriving Repr, DecidableEq

namespace Width

def bytes : Width → Nat
  | .one => 1
  | .two => 2
  | .four => 4
  | .eight => 8

/-- The first byte before an integer without a sign. -/
def unsignedCode : Width → UInt8
  | .one => 0xCC
  | .two => 0xCD
  | .four => 0xCE
  | .eight => 0xCF

/-- The first byte before an integer with a sign. -/
def signedCode : Width → UInt8
  | .one => 0xD0
  | .two => 0xD1
  | .four => 0xD2
  | .eight => 0xD3

end Width

/-- The low bytes of an integer in two's complement. -/
def twosComplement (width : Nat) (z : Int) : Bytes :=
  Bytes.bigEndian width (z % 256 ^ width).toNat

/-- How an integer is written. -/
inductive IntegerForm where
  /-- The first byte is the integer. -/
  | tiny
  | unsigned (width : Width)
  | signed (width : Width)
  deriving Repr, DecidableEq

namespace IntegerForm

/-- The integers that can be written in the form. -/
def Holds : IntegerForm → Int → Prop
  | .tiny, z => -32 ≤ z ∧ z < 128
  | .unsigned width, z => 0 ≤ z ∧ z < 256 ^ width.bytes
  | .signed width, z => -(256 ^ width.bytes) ≤ 2 * z ∧ 2 * z < 256 ^ width.bytes

instance (form : IntegerForm) (z : Int) : Decidable (form.Holds z) :=
  match form with
  | .tiny => inferInstanceAs (Decidable (_ ∧ _))
  | .unsigned _ => inferInstanceAs (Decidable (_ ∧ _))
  | .signed _ => inferInstanceAs (Decidable (_ ∧ _))

def write : IntegerForm → Int → Bytes
  | .tiny, z => twosComplement 1 z
  | .unsigned width, z => width.unsignedCode :: twosComplement width.bytes z
  | .signed width, z => width.signedCode :: twosComplement width.bytes z

end IntegerForm

theorem toNat_ofInt (z : Int) : (UInt64.ofInt z).toNat = (z % 2 ^ 64).toNat := by
  rw [UInt64.ofInt, UInt64.toNat_ofNat']
  omega

theorem number?_twosComplement (width : Nat) (z : Int) (rest : Bytes) :
    number? width (twosComplement width z ++ rest) = some ((z % 256 ^ width).toNat, rest) := by
  apply number?_bigEndian
  have positive : (0 : Int) < 256 ^ width := Int.pow_pos (by decide)
  have bound := Int.emod_lt_of_pos z positive
  have cast : ((256 ^ width : Nat) : Int) = 256 ^ width := by simp
  omega

/-- The higher bits of the word are filled with the sign. -/
theorem signExtend_emod {n : Nat} {z : Int} (positive : 0 < n) (most : n ≤ 8)
    (holds : -(256 ^ n) ≤ 2 * z ∧ 2 * z < 256 ^ n) :
    signExtend n (z % 256 ^ n).toNat = UInt64.ofInt z := by
  obtain ⟨half, halves⟩ : ∃ half, Nat.pow 2 (8 * n - 1) = half := ⟨_, rfl⟩
  have whole : Nat.pow 2 (8 * n) = 2 * half := by
    rw [← halves, Nat.pow_eq, Nat.pow_eq, ← Nat.pow_succ']
    congr 1
    omega
  have bytes : (256 ^ n : Int) = 2 * half := by
    have bits : (256 ^ n : Nat) = 2 * half := by
      rw [← whole, Nat.pow_eq, Nat.pow_mul]
    have cast : ((256 ^ n : Nat) : Int) = 256 ^ n := by simp
    rw [← cast, bits, Int.natCast_mul]
    rfl
  have room : 2 * half ≤ 2 ^ 64 := by
    rw [← whole]
    exact Nat.pow_le_pow_right (by decide) (by omega)
  rw [bytes] at holds ⊢
  rw [signExtend, halves, whole, ← UInt64.toNat_inj, toNat_ofInt]
  by_cases negative : z < 0
  · have wrapped : z % (2 * half) = z + 2 * half := by
      rw [← Int.add_emod_right, Int.emod_eq_of_lt] <;> omega
    rw [wrapped, if_neg (by omega)]
    simp only [Nat.toUInt64, UInt64.toNat_sub, UInt64.toNat_ofNat']
    omega
  · rw [Int.emod_eq_of_lt (by omega) (by omega), if_pos (by omega)]
    simp only [Nat.toUInt64, UInt64.toNat_ofNat']
    omega

theorem word?_unsignedCode (width : Width) (bs : Bytes) :
    word? (width.unsignedCode :: bs) =
      (number? width.bytes bs).map fun (v, rest) => (v.toUInt64, rest) := by
  cases width <;> rfl

theorem word?_signedCode (width : Width) (bs : Bytes) :
    word? (width.signedCode :: bs) =
      (number? width.bytes bs).map fun (v, rest) => (signExtend width.bytes v, rest) := by
  cases width with
  | one | two | four => rfl
  | eight =>
    have vanishes : (Nat.pow 2 (8 * 8)).toUInt64 = 0 := by decide
    have whole (v : Nat) : signExtend 8 v = v.toUInt64 := by
      rw [signExtend, vanishes, UInt64.sub_zero, ite_self]
    simp only [Width.bytes, whole]
    rfl

theorem word?_unsigned {width : Width} {z : Int} (holds : (IntegerForm.unsigned width).Holds z)
    (rest : Bytes) :
    word? ((IntegerForm.unsigned width).write z ++ rest) = some (UInt64.ofInt z, rest) := by
  have value : (z % 256 ^ width.bytes).toNat.toUInt64 = UInt64.ofInt z := by
    obtain ⟨least, most⟩ := holds
    rw [Int.emod_eq_of_lt least most, ← UInt64.toNat_inj, toNat_ofInt, Nat.toUInt64,
      UInt64.toNat_ofNat']
    omega
  simp only [IntegerForm.write, List.cons_append, word?_unsignedCode, number?_twosComplement,
    Option.map_some, value]

theorem word?_signed {width : Width} {z : Int} (holds : (IntegerForm.signed width).Holds z)
    (rest : Bytes) :
    word? ((IntegerForm.signed width).write z ++ rest) = some (UInt64.ofInt z, rest) := by
  have value : signExtend width.bytes (z % 256 ^ width.bytes).toNat = UInt64.ofInt z :=
    signExtend_emod (by cases width <;> decide) (by cases width <;> decide) holds
  simp only [IntegerForm.write, List.cons_append, word?_signedCode, number?_twosComplement,
    Option.map_some, value]

theorem word?_tiny {z : Int} (holds : IntegerForm.tiny.Holds z) (rest : Bytes) :
    word? (IntegerForm.tiny.write z ++ rest) = some (UInt64.ofInt z, rest) := by
  obtain ⟨code, byte⟩ : ∃ code, (z % 256).toNat.toUInt8 = code := ⟨_, rfl⟩
  have value : code.toNat = (z % 256).toNat := by
    rw [← byte, Nat.toUInt8, UInt8.toNat_ofNat']
    omega
  have first : IntegerForm.tiny.write z ++ rest = code :: rest := by
    rw [← byte]
    rfl
  obtain ⟨least, most⟩ := holds
  have present : (code == 0xC0) = false := by
    simp only [beq_eq_false_iff_ne, ne_eq, ← UInt8.toNat_inj, value, UInt8.reduceToNat]
    omega
  rw [first]
  by_cases negative : z < 0
  · have big : ¬ code < 0x80 := by
      simp only [UInt8.lt_iff_toNat_lt, value, UInt8.reduceToNat]
      omega
    have top : 0xE0 ≤ code := by
      simp only [UInt8.le_iff_toNat_le, value, UInt8.reduceToNat]
      omega
    have extended : signExtend 1 (z % 256 ^ 1).toNat = UInt64.ofInt z :=
      signExtend_emod (by decide) (by decide) (by omega)
    rw [Int.pow_one, ← value] at extended
    simp [word?, present, big, top, extended]
  · have small : code < 0x80 := by
      simp only [UInt8.lt_iff_toNat_lt, value, UInt8.reduceToNat]
      omega
    have widened : code.toUInt64 = UInt64.ofInt z := by
      rw [← UInt64.toNat_inj, toNat_ofInt, UInt8.toNat_toUInt64, value]
      omega
    simp [word?, present, small, widened]

theorem word?_write {form : IntegerForm} {z : Int} (holds : form.Holds z) (rest : Bytes) :
    word? (form.write z ++ rest) = some (UInt64.ofInt z, rest) := by
  cases form with
  | tiny => exact word?_tiny holds rest
  | unsigned width => exact word?_unsigned holds rest
  | signed width => exact word?_signed holds rest

/-- A written integer. -/
structure Numeral where
  value : Int
  form : IntegerForm
  holds : form.Holds value

def Numeral.bytes (n : Numeral) : Bytes :=
  n.form.write n.value

theorem word?_bytes (n : Numeral) (rest : Bytes) :
    word? (n.bytes ++ rest) = some (UInt64.ofInt n.value, rest) :=
  word?_write n.holds rest

/-! ## Strings and maps -/

/-- How the length of a string is written. -/
inductive LengthForm where
  /-- In the first byte. -/
  | tiny
  | one
  | two
  | four
  deriving Repr, DecidableEq

/-- The lengths of strings that can be written in the form. -/
def LengthForm.Holds : LengthForm → Nat → Prop
  | .tiny, n => n < 32
  | .one, n => n < 256 ^ 1
  | .two, n => n < 256 ^ 2
  | .four, n => n < 256 ^ 4

instance (form : LengthForm) (n : Nat) : Decidable (form.Holds n) :=
  match form with
  | .tiny => inferInstanceAs (Decidable (n < 32))
  | .one => inferInstanceAs (Decidable (n < 256 ^ 1))
  | .two => inferInstanceAs (Decidable (n < 256 ^ 2))
  | .four => inferInstanceAs (Decidable (n < 256 ^ 4))

def LengthForm.write (form : LengthForm) (s : Bytes) : Bytes :=
  match form with
  | .tiny => (0xA0 + s.length).toUInt8 :: s
  | .one => 0xD9 :: Bytes.bigEndian 1 s.length ++ s
  | .two => 0xDA :: Bytes.bigEndian 2 s.length ++ s
  | .four => 0xDB :: Bytes.bigEndian 4 s.length ++ s

theorem string?_write {form : LengthForm} {s : Bytes} (holds : form.Holds s.length) (rest : Bytes) :
    string? (form.write s ++ rest) = some (s, rest) := by
  cases form with
  | tiny => exact string?_tiny holds rest
  | one => exact string?_counted 1 (fun _ => rfl) holds rest
  | two => exact string?_counted 2 (fun _ => rfl) holds rest
  | four => exact string?_counted 4 (fun _ => rfl) holds rest

/-- A written string. -/
structure Literal where
  value : Bytes
  form : LengthForm
  holds : form.Holds value.length

def Literal.bytes (l : Literal) : Bytes :=
  l.form.write l.value

theorem string?_bytes (l : Literal) (rest : Bytes) :
    string? (l.bytes ++ rest) = some (l.value, rest) :=
  string?_write l.holds rest

/-- How the number of entries of a map is written. -/
inductive MapForm where
  | tiny
  | two
  | four
  deriving Repr, DecidableEq

/-- The beginning of a map with four entries. -/
def MapForm.writeFour : MapForm → Bytes
  | .tiny => [0x84]
  | .two => 0xDE :: Bytes.bigEndian 2 4
  | .four => 0xDF :: Bytes.bigEndian 4 4

end Wire

namespace Handle

theorem Fields.decode?_writeFour (form : Wire.MapForm) (bs : Bytes) :
    Fields.decode? (form.writeFour ++ bs) = Fields.readEntries? 4 {} bs := by
  cases form <;> rfl

/-- The key that names a field. -/
def Field.key : Field → Bytes
  | .version => text "v"
  | .kind => text "k"
  | .union => text "u"
  | .case => text "c"

theorem Field.ofKey?_key (field : Field) : Field.ofKey? field.key = some field := by
  cases field <;> rfl

/-- A written map of the four fields of a handle, each once. -/
structure WrittenMap where
  form : Wire.MapForm
  keyForm : Field → Wire.LengthForm
  version : Wire.Numeral
  kind : Wire.Numeral
  union : Wire.Literal
  case : Wire.Literal
  order : List Field
  once : order.Perm [.version, .kind, .union, .case]

namespace WrittenMap

variable (w : WrittenMap)

def valueBytes : Field → Bytes
  | .version => w.version.bytes
  | .kind => w.kind.bytes
  | .union => w.union.bytes
  | .case => w.case.bytes

def entry (field : Field) : Bytes :=
  (w.keyForm field).write field.key ++ w.valueBytes field

def bytes : Bytes :=
  w.form.writeFour ++ w.order.flatMap w.entry

/-- The fields after one more field was read. -/
def store (f : Fields) : Field → Fields
  | .version => { f with version := (w.version.value % 65536).toNat }
  | .kind => { f with kind := (w.kind.value % 256).toNat }
  | .union => { f with union := w.union.value }
  | .case => { f with case := w.case.value }

theorem key_holds (form : Wire.LengthForm) (field : Field) : form.Holds field.key.length := by
  cases form <;> cases field <;> decide

theorem read?_valueBytes (f : Fields) (field : Field) (rest : Bytes) :
    f.read? field (w.valueBytes field ++ rest) = some (w.store f field, rest) := by
  cases field with
  | version =>
    have low : (UInt64.ofInt w.version.value).toNat % 65536 = (w.version.value % 65536).toNat := by
      rw [Wire.toNat_ofInt]
      omega
    simp only [Fields.read?, valueBytes, Wire.word?_bytes, Option.map_some, low, store]
  | kind =>
    have low : (UInt64.ofInt w.kind.value).toNat % 256 = (w.kind.value % 256).toNat := by
      rw [Wire.toNat_ofInt]
      omega
    simp only [Fields.read?, valueBytes, Wire.word?_bytes, Option.map_some, low, store]
  | union => simp only [Fields.read?, valueBytes, Wire.string?_bytes, Option.map_some, store]
  | case => simp only [Fields.read?, valueBytes, Wire.string?_bytes, Option.map_some, store]

theorem readEntries?_entry (n : Nat) (f : Fields) (field : Field) (rest : Bytes) :
    Fields.readEntries? (n + 1) f (w.entry field ++ rest) =
      Fields.readEntries? n (w.store f field) rest := by
  have keyed := Wire.string?_write (key_holds (w.keyForm field) field)
  simp only [Fields.readEntries?_succ, entry, List.append_assoc, keyed, Option.bind_some,
    Fields.readKeyed?, Field.ofKey?_key, read?_valueBytes]

theorem readEntries?_entries (f : Fields) (order : List Field) (rest : Bytes) :
    Fields.readEntries? order.length f (order.flatMap w.entry ++ rest) =
      some (order.foldl w.store f, rest) := by
  induction order generalizing f with
  | nil => rfl
  | cons field order ih =>
    rw [List.flatMap_cons, List.append_assoc, List.length_cons, readEntries?_entry, ih,
      List.foldl_cons]

/-- The order of the entries does not matter. -/
theorem store_comm (f : Fields) (field field' : Field) :
    w.store (w.store f field) field' = w.store (w.store f field') field := by
  cases field <;> cases field' <;> rfl

theorem decode?_bytes (rest : Bytes) :
    Fields.decode? (w.bytes ++ rest) =
      some (⟨(w.version.value % 65536).toNat, (w.kind.value % 256).toNat, w.union.value,
        w.case.value⟩, rest) := by
  have four : w.order.length = 4 := w.once.length_eq
  have stored := w.once.foldl_eq' (fun a _ b _ f => w.store_comm f a b) {}
  rw [bytes, List.append_assoc, Fields.decode?_writeFour, ← four, readEntries?_entries, stored]
  rfl

theorem decode_bytes (rest : Bytes) :
    decode (w.bytes ++ rest) =
      if w.version.value % 65536 ≠ handleSchema then
        .error (.schema (w.version.value % 65536).toNat)
      else if w.kind.value % 256 = 1 then .ok ⟨.unionCase, w.union.value, w.case.value⟩
      else if w.kind.value % 256 = 2 then .ok ⟨.tag, w.union.value, w.case.value⟩
      else .error (.kind (w.kind.value % 256).toNat) := by
  have schema : (w.version.value % 65536).toNat = handleSchema ↔
      w.version.value % 65536 = handleSchema := by omega
  have unionCase : (w.kind.value % 256).toNat = 1 ↔ w.kind.value % 256 = 1 := by omega
  have tag : (w.kind.value % 256).toNat = 2 ↔ w.kind.value % 256 = 2 := by omega
  simp only [decode, decode?_bytes, ne_eq, schema, unionCase, tag]

/-- The numbers that no kind has. -/
theorem ne_kindCode_iff {z : Int} : (∀ k, z ≠ kindCode k) ↔ z ≠ 1 ∧ z ≠ 2 := by
  constructor
  · intro foreign
    exact ⟨foreign .unionCase, foreign .tag⟩
  · rintro ⟨first, second⟩ k
    cases k with
    | unionCase => exact first
    | tag => exact second

theorem decode_eq_ok_iff (rest : Bytes) (h : Handle) :
    decode (w.bytes ++ rest) = .ok h ↔
      w.version.value % 65536 = handleSchema ∧ w.kind.value % 256 = kindCode h.kind ∧
        h.union = w.union.value ∧ h.case = w.case.value := by
  obtain ⟨kind, union, case⟩ := h
  rw [decode_bytes]
  split_ifs with foreign first second
  · simp [foreign]
  · cases kind <;> simp [not_not.mp foreign, kindCode, first, eq_comm]
  · cases kind <;> simp [not_not.mp foreign, kindCode, second, eq_comm]
  · cases kind <;> simp [kindCode, first, second]

theorem decode_eq_schema_iff (rest : Bytes) (n : Nat) :
    decode (w.bytes ++ rest) = .error (.schema n) ↔
      w.version.value % 65536 ≠ handleSchema ∧ w.version.value % 65536 = n := by
  rw [decode_bytes]
  split_ifs with foreign first second
  · simp only [Except.error.injEq, HandleError.schema.injEq]
    omega
  · simp [not_not.mp foreign]
  · simp [not_not.mp foreign]
  · simp [not_not.mp foreign]

theorem decode_eq_kind_iff (rest : Bytes) (n : Nat) :
    decode (w.bytes ++ rest) = .error (.kind n) ↔
      w.version.value % 65536 = handleSchema ∧ (∀ k, w.kind.value % 256 ≠ kindCode k) ∧
        w.kind.value % 256 = n := by
  rw [decode_bytes, ne_kindCode_iff]
  split_ifs with foreign first second
  · simp [foreign]
  · simp [first]
  · simp [second]
  · simp only [Except.error.injEq, HandleError.kind.injEq]
    omega

theorem decode_ne_malformed (rest : Bytes) : decode (w.bytes ++ rest) ≠ .error .malformed := by
  rw [decode_bytes]
  split_ifs <;> simp

end WrittenMap

/-- Of a map of the four fields, in whatever order and forms they are written, the low sixteen bits
of the version and the low eight bits of the kind decide. It is read as a handle exactly if these are
the bits of the version and of a kind of handle; else the first of the two that is foreign is
reported. So a foreign version is refused if it has room in sixteen bits, and a foreign kind if it
has room in eight. -/
theorem foreign_map_read_by_low_bits (w : WrittenMap) (rest : Bytes) :
    let outcome := decode (w.bytes ++ rest)
    let version := w.version.value
    let kind := w.kind.value
    (∀ h, outcome = .ok h ↔ version % 65536 = handleSchema ∧ kind % 256 = kindCode h.kind ∧
      h.union = w.union.value ∧ h.case = w.case.value) ∧
    (∀ n, outcome = .error (.schema n) ↔
      version % 65536 ≠ handleSchema ∧ version % 65536 = n) ∧
    (∀ n, outcome = .error (.kind n) ↔ version % 65536 = handleSchema ∧
      (∀ k, kind % 256 ≠ kindCode k) ∧ kind % 256 = n) ∧
    outcome ≠ .error .malformed ∧
    (0 ≤ version → version < 65536 → version ≠ handleSchema →
      outcome = .error (.schema version.toNat)) ∧
    (version = handleSchema → 0 ≤ kind → kind < 256 → (∀ k, kind ≠ kindCode k) →
      outcome = .error (.kind kind.toNat)) := by
  intro outcome version kind
  refine ⟨w.decode_eq_ok_iff rest, w.decode_eq_schema_iff rest, w.decode_eq_kind_iff rest,
    w.decode_ne_malformed rest, ?_, ?_⟩
  · intro least most foreign
    apply (w.decode_eq_schema_iff rest _).mpr
    rw [Int.emod_eq_of_lt least most]
    exact ⟨foreign, by omega⟩
  · intro own least most foreign
    apply (w.decode_eq_kind_iff rest _).mpr
    rw [Int.emod_eq_of_lt least most]
    have known : w.version.value = handleSchema := own
    have same : w.version.value % 65536 = handleSchema := by
      rw [known]
      rfl
    exact ⟨same, foreign, by omega⟩

/-- A version of seventeen bits is read as the version that its low sixteen bits are. -/
theorem foreign_version_read :
    ∃ w : WrittenMap, w.version.value = 65537 ∧ w.kind.value = 2 ∧
      w.bytes = [0x84, 0xA1, 0x76, 0xCE, 0, 1, 0, 1, 0xA1, 0x6B, 2, 0xA1, 0x75, 0xA1, 0x55,
        0xA1, 0x63, 0xA1, 0x41] ∧
      decode w.bytes = .ok ⟨.tag, text "U", text "A"⟩ := by
  refine ⟨⟨.tiny, fun _ => .tiny, ⟨65537, .unsigned .four, by decide⟩, ⟨2, .tiny, by decide⟩,
    ⟨text "U", .tiny, by decide⟩, ⟨text "A", .tiny, by decide⟩, _, .refl _⟩, rfl, rfl, ?_, ?_⟩
  · decide
  · decide

end Handle
end UnionAtlas
