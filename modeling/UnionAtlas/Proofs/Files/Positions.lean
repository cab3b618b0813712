import Mathlib.Algebra.Group.Nat.Defs
import UnionAtlas.Proofs.Files.Versions

/-!
# Lines and columns

The line of an offset is one more than the line feeds before it, and its column counts the bytes
from behind the last of them on. The program finds both by halving in the offsets of the line feeds,
with words of thirty-two bits. This module compares that with counting: the two agree for every
offset whose line and column fit in words, offsets behind the end included, so the order of offsets
is the order of their positions and an offset is got back from its position.
-/

namespace UnionAtlas

/-- The byte at the end of a line. -/
def lineFeed : UInt8 := 0x0A

variable {content : Bytes} {base k m n start start' : Nat} {off : UInt32}

/-! ## Counting line feeds -/

theorem count_take_le (content : Bytes) (le : m ≤ n) :
    (content.take m).count lineFeed ≤ (content.take n).count lineFeed :=
  (List.take_prefix_take_left le).sublist.count_le lineFeed

/-- A line feed is counted from the next offset on. -/
theorem count_take_lt (stands : content[k]? = some lineFeed) (le : m ≤ k) (lt : k < n) :
    (content.take m).count lineFeed < (content.take n).count lineFeed := by
  have upTo : (content.take (k + 1)).count lineFeed = (content.take k).count lineFeed + 1 := by
    rw [List.take_add_one, stands, Option.toList_some, List.count_append, List.count_singleton_self]
  have before := count_take_le content le
  have behind : (content.take (k + 1)).count lineFeed ≤ (content.take n).count lineFeed :=
    count_take_le content lt
  omega

/-- The line that an offset is on starts at the beginning or behind a line feed, and no line feed
stands between its start and the offset. -/
structure StartsLine (content : Bytes) (off start : Nat) : Prop where
  before : start ≤ off
  opens : start = 0 ∨ content[start - 1]? = some lineFeed
  unbroken : ∀ k, start ≤ k → k < off → content[k]? ≠ some lineFeed

namespace StartsLine

theorem le (starts : StartsLine content n start) (starts' : StartsLine content n start') :
    start' ≤ start := by
  rcases starts'.opens with here | stands
  · omega
  · have inside := starts'.before
    by_cases beyond : start' ≤ start
    · exact beyond
    · exact absurd stands (starts.unbroken (start' - 1) (by omega) (by omega))

theorem unique (starts : StartsLine content n start) (starts' : StartsLine content n start') :
    start = start' :=
  Nat.le_antisymm (starts'.le starts) (starts.le starts')

/-- The line goes on up to an offset before which no more line feeds are counted. -/
theorem extend (starts : StartsLine content m start) (le : m ≤ n)
    (same : (content.take n).count lineFeed = (content.take m).count lineFeed) :
    StartsLine content n start := by
  refine ⟨Nat.le_trans starts.before le, starts.opens, ?_⟩
  intro k least lt stands
  by_cases early : k < m
  · exact starts.unbroken k least early stands
  · have more := count_take_lt stands (Nat.not_lt.mp early) lt
    omega

end StartsLine

/-- A position tells the line and the column of an offset, counted from one. -/
structure LineCol.Tells (p : LineCol) (content : Bytes) (off : UInt32) : Prop where
  line : p.line.toNat = 1 + (content.take off.toNat).count lineFeed
  col : ∃ start, StartsLine content off.toNat start ∧ p.col.toNat = 1 + (off.toNat - start)

/-- A position is on an earlier line than another, or in an earlier column of the same line. -/
def LineCol.Before (p q : LineCol) : Prop :=
  p.line < q.line ∨ p.line = q.line ∧ p.col < q.col

namespace LineCol.Tells

variable {p q : LineCol} {off' : UInt32}

theorem before_of_lt (tells : p.Tells content off) (tells' : q.Tells content off')
    (lt : off < off') : p.Before q := by
  obtain ⟨start, starts, col⟩ := tells.col
  obtain ⟨start', starts', col'⟩ := tells'.col
  have line := tells.line
  have line' := tells'.line
  rw [UInt32.lt_iff_toNat_lt] at lt
  have more := count_take_le content (Nat.le_of_lt lt)
  rw [Before, UInt32.lt_iff_toNat_lt, UInt32.lt_iff_toNat_lt, ← UInt32.toNat_inj]
  rcases Nat.eq_or_lt_of_le more with same | less
  · have one := (starts.extend (Nat.le_of_lt lt) same.symm).unique starts'
    have first := starts.before
    omega
  · omega

theorem unique (tells : p.Tells content off) (tells' : q.Tells content off) : p = q := by
  obtain ⟨start, starts, col⟩ := tells.col
  obtain ⟨start', starts', col'⟩ := tells'.col
  obtain rfl := starts.unique starts'
  have line : p.line = q.line := UInt32.toNat_inj.mp (tells.line.trans tells'.line.symm)
  have column : p.col = q.col := UInt32.toNat_inj.mp (col.trans col'.symm)
  cases p
  cases q
  simp only at line column
  rw [line, column]

/-- Positions are in the order of their offsets. -/
theorem lt_iff_before (tells : p.Tells content off) (tells' : q.Tells content off') :
    off < off' ↔ p.Before q := by
  constructor
  · exact tells.before_of_lt tells'
  · intro before
    rcases UInt32.lt_or_le off off' with lt | le
    · exact lt
    · rcases UInt32.lt_or_eq_of_le le with gt | rfl
      · have after := tells'.before_of_lt tells gt
        simp only [Before, UInt32.lt_iff_toNat_lt, ← UInt32.toNat_inj] at before after
        omega
      · obtain rfl := tells.unique tells'
        simp only [Before, UInt32.lt_iff_toNat_lt] at before
        omega

end LineCol.Tells

/-! ## The offsets of the line feeds -/

theorem toNat_toUInt32 (lt : n < 2 ^ 32) : n.toUInt32.toNat = n := by
  simp only [Nat.toUInt32, UInt32.toNat_ofNat']
  exact Nat.mod_eq_of_lt lt

theorem newlineOffsets_cons (b : UInt8) (rest : Bytes) :
    newlineOffsets base (b :: rest) =
      if b = lineFeed then base.toUInt32 :: newlineOffsets (base + 1) rest
      else newlineOffsets (base + 1) rest := by
  by_cases ends : b = lineFeed
  · simp [newlineOffsets, lineFeed, ends]
  · rw [if_neg ends]
    simp only [lineFeed] at ends
    simp [newlineOffsets, ends]

theorem mem_newlineOffsets (short : base + content.length ≤ 2 ^ 32) :
    off ∈ newlineOffsets base content ↔
      ∃ k, content[k]? = some lineFeed ∧ off.toNat = base + k := by
  induction content generalizing base with
  | nil => simp [newlineOffsets]
  | cons b rest ih =>
    rw [List.length_cons] at short
    have later : off ∈ newlineOffsets (base + 1) rest ↔
        ∃ k, rest[k]? = some lineFeed ∧ off.toNat = base + 1 + k := ih (by omega)
    have split : (∃ k, (b :: rest)[k]? = some lineFeed ∧ off.toNat = base + k) ↔
        b = lineFeed ∧ off.toNat = base ∨
          ∃ k, rest[k]? = some lineFeed ∧ off.toNat = base + 1 + k := by
      constructor
      · rintro ⟨k, stands, here⟩
        cases k with
        | zero => exact .inl ⟨Option.some.inj stands, here⟩
        | succ k => exact .inr ⟨k, stands, by omega⟩
      · rintro (⟨rfl, here⟩ | ⟨k, stands, here⟩)
        · exact ⟨0, rfl, here⟩
        · exact ⟨k + 1, stands, by omega⟩
    rw [split, newlineOffsets_cons, ← later]
    by_cases ends : b = lineFeed
    · rw [if_pos ends, List.mem_cons, ← UInt32.toNat_inj, toNat_toUInt32 (by omega)]
      simp [ends]
    · simp [ends]

theorem pairwise_newlineOffsets (short : base + content.length ≤ 2 ^ 32) :
    (newlineOffsets base content).Pairwise (· < ·) := by
  induction content generalizing base with
  | nil => exact .nil
  | cons b rest ih =>
    rw [List.length_cons] at short
    have later : (newlineOffsets (base + 1) rest).Pairwise (· < ·) := ih (by omega)
    rw [newlineOffsets_cons]
    split
    · refine List.pairwise_cons.mpr ⟨?_, later⟩
      intro off member
      obtain ⟨k, -, here⟩ := (mem_newlineOffsets (by omega)).mp member
      rw [UInt32.lt_iff_toNat_lt, toNat_toUInt32 (by omega)]
      omega
    · exact later

theorem length_newlineOffsets (base : Nat) (content : Bytes) :
    (newlineOffsets base content).length = content.count lineFeed := by
  induction content generalizing base with
  | nil => rfl
  | cons b rest ih =>
    rw [newlineOffsets_cons, List.count_cons]
    by_cases ends : b = lineFeed
    · simp [ends, ih]
    · simp [ends, ih]

/-- The line feeds before an offset are those of the content up to it. -/
theorem filter_newlineOffsets (short : base + content.length ≤ 2 ^ 32) (off : UInt32) :
    (newlineOffsets base content).filter (· < off) =
      newlineOffsets base (content.take (off.toNat - base)) := by
  induction content generalizing base with
  | nil => rw [List.take_nil]; rfl
  | cons b rest ih =>
    rw [List.length_cons] at short
    have later : (newlineOffsets (base + 1) rest).filter (· < off) =
        newlineOffsets (base + 1) (rest.take (off.toNat - (base + 1))) := ih (by omega)
    have first : base.toUInt32 < off ↔ base < off.toNat := by
      rw [UInt32.lt_iff_toNat_lt, toNat_toUInt32 (by omega)]
    by_cases inside : base < off.toNat
    · obtain ⟨k, width⟩ : ∃ k, off.toNat - base = k + 1 := ⟨off.toNat - base - 1, by omega⟩
      rw [width, List.take_succ_cons, newlineOffsets_cons, newlineOffsets_cons,
        show k = off.toNat - (base + 1) by omega, ← later]
      by_cases ends : b = lineFeed
      · rw [if_pos ends, if_pos ends, List.filter_cons_of_pos (by simpa [first] using inside)]
      · rw [if_neg ends, if_neg ends]
    · rw [Nat.sub_eq_zero_of_le (Nat.not_lt.mp inside), List.take_zero]
      rw [List.filter_eq_nil_iff.mpr]
      · rfl
      · intro x member
        obtain ⟨k, -, here⟩ := (mem_newlineOffsets (by simpa using short)).mp member
        simp only [decide_eq_true_eq, UInt32.lt_iff_toNat_lt]
        omega

/-! ## The line of an offset -/

/-- In an ascending list no element up to a place is greater than the one there. -/
theorem le_of_mem_take {l : List UInt32} {x last : UInt32} (ascending : l.Pairwise (· < ·))
    (stands : l[n]? = some last) (member : x ∈ l.take (n + 1)) : x ≤ last := by
  have front := ascending.sublist (List.take_sublist (n + 1) l)
  rw [List.take_add_one, stands, Option.toList_some] at front member
  rcases List.mem_append.mp member with early | same
  · have less := (List.pairwise_append.mp front).2.2 x early last (List.mem_singleton_self last)
    exact UInt32.le_of_lt less
  · rw [List.mem_singleton.mp same]
    exact UInt32.le_refl last

section Lines

variable (small : content.length < 2 ^ 32)
include small

theorem lasting_newlineOffsets (off : UInt32) :
    Search.Lasting (off ≤ ·) (newlineOffsets 0 content) := by
  refine (pairwise_newlineOffsets (by omega)).imp ?_
  intro x y lt le
  simp only [decide_eq_true_eq] at le ⊢
  exact UInt32.le_of_lt (UInt32.lt_of_le_of_lt le lt)

/-- In front of what the search finds stand the line feeds before the offset. -/
theorem take_first_newlineOffsets (off : UInt32) :
    (newlineOffsets 0 content).take (Search.first (off ≤ ·) (newlineOffsets 0 content)) =
      newlineOffsets 0 (content.take off.toNat) := by
  rw [(lasting_newlineOffsets small off).take_first, ← Nat.sub_zero off.toNat,
    ← filter_newlineOffsets (by omega) off]
  congr 1
  funext x
  rw [← decide_not]
  simp only [UInt32.not_le]

theorem first_newlineOffsets (off : UInt32) :
    Search.first (off ≤ ·) (newlineOffsets 0 content) = (content.take off.toNat).count lineFeed := by
  rw [← length_newlineOffsets 0, ← take_first_newlineOffsets small off, List.length_take,
    Nat.min_eq_left (lasting_newlineOffsets small off).parts.1]

theorem mem_newlineOffsets_take (off : UInt32) :
    off ∈ newlineOffsets 0 (content.take n) ↔
      off.toNat < n ∧ content[off.toNat]? = some lineFeed := by
  have short : 0 + (content.take n).length ≤ 2 ^ 32 := by
    rw [List.length_take]
    omega
  rw [mem_newlineOffsets short]
  constructor
  · rintro ⟨k, stands, here⟩
    rw [Nat.zero_add] at here
    rw [← here] at stands
    have inside := (List.getElem?_eq_some_iff.mp stands).1
    rw [List.length_take] at inside
    have lt : off.toNat < n := Nat.lt_of_lt_of_le inside (Nat.min_le_left _ _)
    rw [List.getElem?_take_of_lt lt] at stands
    exact ⟨lt, stands⟩
  · rintro ⟨lt, stands⟩
    refine ⟨off.toNat, ?_, (Nat.zero_add _).symm⟩
    rw [List.getElem?_take_of_lt lt]
    exact stands

/-- The line of an offset starts at the beginning, or behind the last line feed before the offset. -/
theorem startsLine_cases (off : UInt32) :
    (content.take off.toNat).count lineFeed = 0 ∧ StartsLine content off.toNat 0 ∨
      ∃ n last, (content.take off.toNat).count lineFeed = n + 1 ∧
        (newlineOffsets 0 content)[n]? = some last ∧
        StartsLine content off.toNat (last.toNat + 1) := by
  have front := take_first_newlineOffsets small off
  rw [first_newlineOffsets small off] at front
  have many := length_newlineOffsets 0 (content.take off.toNat)
  rw [← front, List.length_take] at many
  cases feeds : (content.take off.toNat).count lineFeed with
  | zero =>
    refine .inl ⟨rfl, Nat.zero_le _, .inl rfl, ?_⟩
    intro k least lt stands
    have more := count_take_lt stands (Nat.le_refl k) lt
    omega
  | succ n =>
    rw [feeds] at front many
    obtain ⟨last, stands⟩ : ∃ last, (newlineOffsets 0 content)[n]? = some last :=
      ⟨_, List.getElem?_eq_getElem (by omega)⟩
    have inFront : last ∈ newlineOffsets 0 (content.take off.toNat) := by
      rw [← front, List.take_add_one, stands]
      exact List.mem_append_right _ (List.mem_singleton_self last)
    obtain ⟨inside, feed⟩ := (mem_newlineOffsets_take small last).mp inFront
    refine .inr ⟨n, last, rfl, stands, inside, .inr feed, ?_⟩
    intro k beyond lt stands'
    have word : k.toUInt32.toNat = k := toNat_toUInt32 (Nat.lt_trans lt off.toNat_lt)
    have member : k.toUInt32 ∈ (newlineOffsets 0 content).take (n + 1) := by
      rw [front, mem_newlineOffsets_take small, word]
      exact ⟨lt, stands'⟩
    have upTo := le_of_mem_take (pairwise_newlineOffsets (by omega)) stands member
    rw [UInt32.le_iff_toNat_le, word] at upTo
    omega

end Lines

/-! ## Positions in words -/

/-- The line and the column of an offset fit in words. At the last offset of all, the column does
not if the text has no line feed, and the line does not if the text ends there and is made of line
feeds alone. -/
def Placeable (content : Bytes) (off : UInt32) : Prop :=
  off.toNat + 1 = 2 ^ 32 →
    lineFeed ∈ content ∧ (content.length + 1 = 2 ^ 32 → ∃ b ∈ content, b ≠ lineFeed)

instance : Decidable (Placeable content off) :=
  inferInstanceAs (Decidable (off.toNat + 1 = 2 ^ 32 →
    lineFeed ∈ content ∧ (content.length + 1 = 2 ^ 32 → ∃ b ∈ content, b ≠ lineFeed)))

theorem count_take_succ_lt (small : content.length < 2 ^ 32) (fits : Placeable content off) :
    (content.take off.toNat).count lineFeed + 1 < 2 ^ 32 := by
  have inside := off.toNat_lt
  have most := List.count_le_length (a := lineFeed) (l := content.take off.toNat)
  rw [List.length_take] at most
  by_cases final : off.toNat + 1 = 2 ^ 32
  · have whole : content.take off.toNat = content := List.take_of_length_le (by omega)
    rw [whole] at most ⊢
    by_cases full : content.length + 1 = 2 ^ 32
    · obtain ⟨b, member, other⟩ := (fits final).2 full
      have mixed : content.count lineFeed ≠ content.length := by
        intro same
        exact other (List.count_eq_length.mp same b member).symm
      omega
    · omega
  · omega

namespace LineCol

/-- The offset of a position, given the offsets of the line feeds. -/
def offset (lines : List UInt32) (p : LineCol) : Nat :=
  match p.line.toNat with
  | line + 2 => (lines.getD line 0).toNat + p.col.toNat
  | _ => p.col.toNat - 1

/-- Only offsets whose line and column fit in words have a position that tells them. -/
theorem Tells.placeable {p : LineCol} (tells : p.Tells content off)
    (small : content.length < 2 ^ 32) : Placeable content off := by
  intro final
  have whole : content.take off.toNat = content := List.take_of_length_le (by omega)
  have line := tells.line
  obtain ⟨start, starts, col⟩ := tells.col
  rw [whole] at line
  have lineWord := p.line.toNat_lt
  have colWord := p.col.toNat_lt
  constructor
  · rcases starts.opens with rfl | feed
    · omega
    · exact List.mem_of_getElem? feed
  · intro full
    by_contra alone
    have all : content.count lineFeed = content.length := by
      refine List.count_eq_length.mpr ?_
      intro b member
      by_contra other
      exact alone ⟨b, member, Ne.symm other⟩
    omega

/-- What the search makes of the line feeds tells the offset, with no word wrapping around. -/
theorem tells_ofOffset (small : content.length < 2 ^ 32) (fits : Placeable content off) :
    (ofOffset (newlineOffsets 0 content) off).Tells content off := by
  have inside := off.toNat_lt
  have lineFits := count_take_succ_lt small fits
  unfold ofOffset
  rw [first_newlineOffsets small off]
  rcases startsLine_cases small off with ⟨none, starts⟩ | ⟨n, last, many, stands, starts⟩
  · rw [none]
    have early : off.toNat + 1 < 2 ^ 32 := by
      by_cases final : off.toNat + 1 = 2 ^ 32
      · obtain ⟨k, feed⟩ := List.mem_iff_getElem?.mp (fits final).1
        have bound := (List.getElem?_eq_some_iff.mp feed).1
        exact absurd feed (starts.unbroken k (Nat.zero_le k) (by omega))
      · omega
    refine ⟨?_, 0, starts, ?_⟩
    · rw [none]
      rfl
    · rw [UInt32.toNat_add, UInt32.toNat_one, Nat.mod_eq_of_lt early, Nat.sub_zero, Nat.add_comm]
  · rw [many] at lineFits ⊢
    have before := starts.before
    have start : (last + 1).toNat = last.toNat + 1 := by
      rw [UInt32.toNat_add, UInt32.toNat_one, Nat.mod_eq_of_lt (by omega)]
    have reached : last + 1 ≤ off := by
      rw [UInt32.le_iff_toNat_le, start]
      exact before
    have found : (newlineOffsets 0 content).getD n 0 = last := by
      rw [List.getD_eq_getElem?_getD, stands, Option.getD_some]
    refine ⟨?_, last.toNat + 1, starts, ?_⟩
    · simp only
      rw [toNat_toUInt32 lineFits, many]
      omega
    · simp only
      rw [found, UInt32.toNat_add, UInt32.toNat_one, UInt32.toNat_sub_of_le _ _ reached, start,
        Nat.mod_eq_of_lt (by omega)]
      omega

/-- A position that tells an offset leads back to it. -/
theorem Tells.offset_eq {p : LineCol} (tells : p.Tells content off)
    (small : content.length < 2 ^ 32) : p.offset (newlineOffsets 0 content) = off.toNat := by
  have line := tells.line
  obtain ⟨start, starts, col⟩ := tells.col
  rcases startsLine_cases small off with ⟨none, starts'⟩ | ⟨n, last, many, stands, starts'⟩
  · rw [none] at line
    obtain rfl := starts.unique starts'
    simp only [offset, line, col]
    omega
  · rw [many, Nat.add_comm] at line
    obtain rfl := starts.unique starts'
    have before := starts.before
    simp only [offset, line, col, List.getD_eq_getElem?_getD, stands, Option.getD_some]
    omega

end LineCol

namespace FileSet

/-- In a file shorter than the words reach, both ends of a span are resolved to the line and the
column that counting gives, and got back from them through the line feeds of the file; the order of
the positions is that of the offsets. The offsets left out have no position in words. -/
theorem resolve_tells_offsets (calls : List FileCall) {f : SourceFile} (s : Span)
    (known : (empty.run calls).get? s.file = some f) (small : f.content.length < 2 ^ 32) :
    let ends := (empty.run calls).resolve s
    (Placeable f.content s.start →
      ends.1.Tells f.content s.start ∧ ends.1.offset f.lines = s.start.toNat) ∧
    (Placeable f.content s.stop →
      ends.2.Tells f.content s.stop ∧ ends.2.offset f.lines = s.stop.toNat) ∧
    (Placeable f.content s.start → Placeable f.content s.stop →
      (s.start < s.stop ↔ ends.1.Before ends.2)) ∧
    ∀ off, (∃ p : LineCol, p.Tells f.content off) ↔ Placeable f.content off := by
  have lined := (coherent_run calls).lined s.file f known
  simp only [resolve, known, lined]
  have tells (off : UInt32) (fits : Placeable f.content off) :
      (LineCol.ofOffset (newlineOffsets 0 f.content) off).Tells f.content off :=
    LineCol.tells_ofOffset small fits
  refine ⟨?_, ?_, ?_, ?_⟩
  · intro fits
    exact ⟨tells _ fits, (tells _ fits).offset_eq small⟩
  · intro fits
    exact ⟨tells _ fits, (tells _ fits).offset_eq small⟩
  · intro fits fits'
    exact (tells _ fits).lt_iff_before (tells _ fits')
  · intro off
    constructor
    · rintro ⟨p, told⟩
      exact told.placeable small
    · intro fits
      exact ⟨_, tells off fits⟩

/-- Two line feeds and two letters: the first letter opens the third line, and the last offset of all
is far behind the end on that line. -/
theorem resolve_tells_offsets_past_end :
    let content : Bytes := [0x0A, 0x0A, 0x61, 0x62]
    let files := empty.run [.addInMemory [0x61] content]
    let ends := files.resolve ⟨0, 2, 4294967295⟩
    ends = (⟨3, 1⟩, ⟨3, 4294967294⟩) ∧ ends.1.Tells content 2 ∧ ends.2.Tells content 4294967295 ∧
      ends.1.Before ends.2 ∧ ends.2.offset [0, 1] = 4294967295 := by
  intro content files ends
  have result := resolve_tells_offsets [.addInMemory [0x61] content] ⟨0, 2, 4294967295⟩
    (f := ⟨0, Path.clean [0x61], content, newlineOffsets 0 content, Sha256.digest content,
      FileFlags.inMemory⟩) rfl (by decide)
  obtain ⟨first, last, order, -⟩ := result
  have fits : Placeable content 2 := by decide
  have fits' : Placeable content 4294967295 := by decide
  refine ⟨by decide +kernel, (first fits).1, (last fits').1, (order fits fits').mp (by decide), ?_⟩
  exact (last fits').2

end FileSet
end UnionAtlas
