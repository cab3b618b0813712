import Mathlib.Data.List.Basic
import UnionAtlas.Proofs.Text.Characters
import UnionAtlas.Text.Cluster

/-!
# Texts cut and continued between clusters

A text is read piece by piece, and each piece asks only for the few bytes it announces. So when the
first pieces of a text are kept and something else follows that begins a character, the same pieces
are read, and the clusters they make are the same but for the last one, which may go on.
-/

namespace UnionAtlas

/-- The text does not begin in the middle of a character. -/
def Bytes.Opens (bs : Bytes) : Prop :=
  ∀ b ∈ bs.head?, Utf8.isContinuation b = false

theorem Bytes.Opens.takeWhile {bs : Bytes} (opens : bs.Opens) :
    bs.takeWhile Utf8.isContinuation = [] := by
  cases bs with
  | nil => rfl
  | cons b bs => exact List.takeWhile_cons_of_neg (Bool.eq_false_iff.mp (opens b rfl))

theorem Bytes.opens_of_takeWhile {bs : Bytes} (none : bs.takeWhile Utf8.isContinuation = []) :
    bs.Opens := by
  cases bs with
  | nil => exact fun b member => by cases member
  | cons b bs =>
    rintro _ ⟨⟩
    rw [List.takeWhile_cons] at none
    cases continues : Utf8.isContinuation b with
    | false => rfl
    | true =>
      rw [if_pos continues] at none
      cases none

namespace Utf8

variable {b : UInt8} {rest t : Bytes}

/-- What comes after a text does not change its last character, if it opens one of its own. -/
theorem front_append (opens : t.Opens) : front b (rest ++ t) = front b rest := by
  have second (c : UInt8) :
      ((secondRange b).1 ≤ c && c ≤ (secondRange b).2) = true → isContinuation c = true :=
    isContinuation_of_secondRange
  have next : ∀ c cs, t = c :: cs → isContinuation c = false := by
    rintro c cs rfl
    exact opens c rfl
  unfold front
  rcases rest with _ | ⟨c, _ | ⟨d, _ | ⟨e, rest⟩⟩⟩ <;> rcases t with _ | ⟨c', t⟩ <;> grind

theorem front_snd_le (b : UInt8) (rest : Bytes) : (front b rest).2 ≤ rest.length := by
  unfold front
  rcases rest with _ | ⟨c, _ | ⟨d, _ | ⟨e, rest⟩⟩⟩ <;> grind

theorem runes_append (opens : t.Opens) (bs : Bytes) : runes (bs ++ t) = runes bs ++ runes t := by
  fun_induction runes bs with
  | case1 => rfl
  | case2 b rest extra ih =>
    have few : extra ≤ rest.length := front_snd_le b rest
    rw [List.cons_append, runes, front_append opens, List.take_append_of_le_length few,
      List.drop_append_of_le_length few, ih]
    rfl

theorem isValid_append (opens : t.Opens) (bs : Bytes) :
    isValid (bs ++ t) = (isValid bs && isValid t) := by
  rw [isValid, runes_append opens, List.all_append]
  rfl

end Utf8

namespace Cluster

variable {b : UInt8} {bs rest mid x y t : Bytes} {us vs more : List Piece} {w w' : Walk}

/-! ## The bytes of a piece -/

/-- How many bytes a first byte announces. -/
def need (b : UInt8) : Nat :=
  if b < 0xC2 then 0 else if b < 0xE0 then 1 else if b < 0xF0 then 2 else if b < 0xF8 then 3 else 0

theorem need_le (b : UInt8) : need b ≤ 3 := by
  unfold need
  repeat' split
  all_goals decide

theorem following_eq (b : UInt8) (rest : Bytes) :
    following b rest =
      if rest.length < need b then none
      else some (min (rest.takeWhile Utf8.isContinuation).length (need b)) := by
  unfold following need
  repeat' split
  all_goals simp_all

/-- A character that is valid has all the bytes that it announces. -/
theorem front_eq_none (short : (rest.takeWhile Utf8.isContinuation).length < need b) :
    (Utf8.front b rest).1 = none := by
  have second (c : UInt8) : ((Utf8.secondRange b).1 ≤ c && c ≤ (Utf8.secondRange b).2) = true →
      Utf8.isContinuation c = true :=
    Utf8.isContinuation_of_secondRange
  unfold need at short
  unfold Utf8.front
  simp only [UInt8.lt_iff_toNat_lt, UInt8.le_iff_toNat_le, UInt8.reduceToNat, Bool.and_eq_true,
    decide_eq_true_eq] at *
  rcases rest with _ | ⟨c, _ | ⟨d, _ | ⟨e, rest⟩⟩⟩ <;>
    grind [List.takeWhile_cons, List.takeWhile_nil]

/-- Bytes beyond those that are announced do not matter. -/
theorem front_take (b : UInt8) (rest : Bytes) :
    (Utf8.front b (rest.take (need b))).1 = (Utf8.front b rest).1 := by
  unfold need Utf8.front
  simp only [UInt8.lt_iff_toNat_lt, UInt8.le_iff_toNat_le, UInt8.reduceToNat, Bool.and_eq_true,
    decide_eq_true_eq]
  rcases rest with _ | ⟨c, _ | ⟨d, _ | ⟨e, rest⟩⟩⟩ <;> grind

/-- The bytes that belong to a first byte are announced, continue a character, and end where they are
all or where no more follow. -/
theorem following_eq_some (read : following b (mid ++ x) = some mid.length) :
    need b ≤ (mid ++ x).length ∧ (∀ c ∈ mid, Utf8.isContinuation c = true) ∧
      (mid.length = need b ∨ mid.length < need b ∧ x.Opens) := by
  rw [following_eq] at read
  split at read
  · cases read
  · next enough =>
    have length := Option.some.inj read
    have within : mid <+: (mid ++ x).takeWhile Utf8.isContinuation :=
      List.prefix_of_prefix_length_le (List.prefix_append mid x) (List.takeWhile_prefix _) (by omega)
    have continues : ∀ c ∈ mid, Utf8.isContinuation c = true := fun c member =>
      List.all_eq_true.mp List.all_takeWhile c (within.subset member)
    refine ⟨Nat.not_lt.mp enough, continues, ?_⟩
    rw [List.takeWhile_append_of_pos continues, List.length_append] at length
    by_cases all : mid.length = need b
    · exact .inl all
    · have none : (x.takeWhile Utf8.isContinuation).length = 0 := by omega
      exact .inr ⟨by omega, Bytes.opens_of_takeWhile (List.length_eq_zero_iff.mp none)⟩

/-- A piece is read the same if something else follows. -/
theorem following_congr (read : following b (mid ++ x) = some mid.length)
    (long : need b ≤ mid.length + y.length) (starts : y.Opens ∨ y.head? = x.head?) :
    following b (mid ++ y) = some mid.length ∧
      frontClass b (mid ++ y) = frontClass b (mid ++ x) := by
  obtain ⟨-, continues, ends⟩ := following_eq_some read
  have run (z : Bytes) : ((mid ++ z).takeWhile Utf8.isContinuation).length =
      mid.length + (z.takeWhile Utf8.isContinuation).length := by
    rw [List.takeWhile_append_of_pos continues, List.length_append]
  have enough : ¬ (mid ++ y).length < need b := by
    rw [List.length_append]
    omega
  rw [following_eq, if_neg enough, run, frontClass, frontClass]
  rcases ends with all | ⟨short, opens⟩
  · have kept (z : Bytes) : (mid ++ z).take (need b) = mid := by rw [← all, List.take_left]
    rw [← front_take b (mid ++ y), ← front_take b (mid ++ x), kept, kept]
    exact ⟨congrArg some (by omega), rfl⟩
  · have opens' : y.Opens := by
      rcases starts with opens' | same
      · exact opens'
      · exact fun c member => opens c (same ▸ member)
    rw [front_eq_none (by rw [run, opens'.takeWhile]; exact short),
      front_eq_none (by rw [run, opens.takeWhile]; exact short), opens'.takeWhile]
    refine ⟨congrArg some ?_, rfl⟩
    rw [List.length_nil]
    omega

/-! ## Pieces -/

/-- The bytes of a piece. -/
def Piece.raw : Piece → Bytes
  | .unit _ raw => raw
  | .cutOff raw => raw

/-- The piece is no sequence cut off. -/
def Piece.Whole : Piece → Prop
  | .unit _ _ => True
  | .cutOff _ => False

/-- The bytes of pieces. -/
def raws (ps : List Piece) : Bytes :=
  ps.flatMap Piece.raw

theorem pieces_of_following {n : Nat} (read : following b rest = some n) :
    pieces (b :: rest) = .unit (frontClass b rest) (b :: rest.take n) :: pieces (rest.drop n) := by
  rw [pieces, read]

theorem length_le_of_following {n : Nat} (read : following b rest = some n) : n ≤ rest.length := by
  rw [following_eq] at read
  split at read
  · cases read
  · have run := (List.takeWhile_prefix (l := rest) Utf8.isContinuation).length_le
    have length := Option.some.inj read
    omega

theorem raws_pieces (bs : Bytes) : raws (pieces bs) = bs := by
  fun_induction pieces bs with
  | case1 => rfl
  | case2 b rest none => exact List.append_nil _
  | case3 b rest n read ih =>
    rw [raws, List.flatMap_cons, ← raws, ih]
    exact congrArg (b :: ·) (List.take_append_drop n rest)

/-- The first piece begins with the first byte. -/
theorem head?_raws {p : Piece} (read : pieces bs = p :: us) (more : Bytes) :
    (p.raw ++ more).head? = bs.head? := by
  cases bs with
  | nil =>
    rw [pieces] at read
    cases read
  | cons b rest =>
    rw [pieces] at read
    split at read
    · obtain ⟨rfl, -⟩ := List.cons.inj read
      rfl
    · obtain ⟨rfl, -⟩ := List.cons.inj read
      rfl

/-- The first pieces of a text are read again when something else follows that begins a character:
three bytes or more, or anything at the end of the text. -/
theorem pieces_append (read : pieces bs = us ++ vs) (whole : ∀ p ∈ us, p.Whole) (opens : t.Opens)
    (long : 3 ≤ t.length ∨ vs = []) : pieces (raws us ++ t) = us ++ pieces t := by
  induction us generalizing bs with
  | nil => rfl
  | cons p us ih =>
    obtain ⟨first, others⟩ := List.forall_mem_cons.mp whole
    cases bs with
    | nil =>
      rw [pieces] at read
      cases read
    | cons b rest =>
      cases ends : following b rest with
      | none =>
        rw [pieces, ends] at read
        obtain ⟨rfl, -⟩ := List.cons.inj read
        cases first
      | some n =>
        rw [pieces_of_following ends] at read
        obtain ⟨rfl, later⟩ := List.cons.inj read
        change pieces (rest.drop n) = us ++ vs at later
        have few := length_le_of_following ends
        have length : (rest.take n).length = n := List.length_take_of_le few
        have ends' : following b (rest.take n ++ rest.drop n) = some (rest.take n).length := by
          rw [List.take_append_drop, length, ends]
        have long' : need b ≤ (rest.take n).length + (raws us ++ t).length := by
          rw [List.length_append]
          rcases long with three | rfl
          · have announced := need_le b
            omega
          · -- Nothing was cut away, so there are as many bytes as before.
            have all : raws us = rest.drop n := by
              rw [← raws_pieces (rest.drop n), later, List.append_nil]
            have enough := (following_eq_some ends').1
            rw [List.length_append] at enough
            rw [all]
            omega
        have starts : (raws us ++ t).Opens ∨ (raws us ++ t).head? = (rest.drop n).head? := by
          cases us with
          | nil => exact .inl opens
          | cons q us =>
            refine .inr ?_
            rw [raws, List.flatMap_cons, List.append_assoc]
            exact head?_raws later _
        obtain ⟨again, sameClass⟩ := following_congr ends' long' starts
        have text : raws (.unit (frontClass b rest) (b :: rest.take n) :: us) ++ t =
            b :: (rest.take n ++ (raws us ++ t)) := by
          rw [raws, List.flatMap_cons, ← raws, List.append_assoc]
          rfl
        rw [text, pieces_of_following again, sameClass, List.take_append_drop, List.take_left,
          List.drop_left, ih later others]
        rfl

/-! ## Clusters -/

/-- Goes through pieces with a cluster open: the clusters that are closed, and the one that is open
in the end with what is remembered of it. -/
def walk (current : Bytes) (w : Walk) : List Piece → List Bytes × Bytes × Walk
  | .unit k raw :: rest =>
    if joins w k then walk (current ++ raw) (w.push k) rest
    else
      let (closed, last) := walk raw (.start k) rest
      (current :: closed, last)
  | _ => ([], current, w)

theorem gather_append (whole : ∀ p ∈ us, p.Whole) (current : Bytes) (w : Walk) (more : List Piece) :
    gather current w (us ++ more) =
      (walk current w us).1 ++ gather (walk current w us).2.1 (walk current w us).2.2 more := by
  induction us generalizing current w with
  | nil => rfl
  | cons p us ih =>
    obtain ⟨first, others⟩ := List.forall_mem_cons.mp whole
    cases p with
    | cutOff raw => cases first
    | unit k raw =>
      rw [List.cons_append, gather, walk]
      by_cases join : joins w k = true
      · rw [if_pos join, if_pos join]
        exact ih others _ _
      · rw [if_neg join, if_neg join]
        exact congrArg (current :: ·) (ih others raw (.start k))

theorem flatten_walk (whole : ∀ p ∈ us, p.Whole) (current : Bytes) (w : Walk) :
    (walk current w us).1.flatten ++ (walk current w us).2.1 = current ++ raws us := by
  induction us generalizing current w with
  | nil => exact (List.append_nil current).symm
  | cons p us ih =>
    obtain ⟨first, others⟩ := List.forall_mem_cons.mp whole
    cases p with
    | cutOff raw => cases first
    | unit k raw =>
      rw [walk, raws, List.flatMap_cons, ← raws]
      by_cases join : joins w k = true
      · rw [if_pos join, ih others, List.append_assoc]
        rfl
      · rw [if_neg join]
        change (current :: (walk raw (.start k) us).1).flatten ++ (walk raw (.start k) us).2.1 = _
        rw [List.flatten_cons, List.append_assoc, ih others]
        rfl

/-- All clusters but the last close within the pieces before the next one. -/
theorem exists_walk {current c : Bytes} {ps : List Piece} {closed rest : List Bytes}
    (clusters : gather current w ps = closed ++ c :: rest) (more : rest ≠ []) :
    ∃ us vs w', ps = us ++ vs ∧ (∀ p ∈ us, p.Whole) ∧ walk current w us = (closed, c, w') := by
  have single (closed : List Bytes) {d : Bytes} : [d] ≠ closed ++ c :: rest := by
    intro one
    have length := congrArg List.length one
    have one_more := List.length_pos_iff.mpr more
    simp only [List.length_append, List.length_cons, List.length_nil] at length
    omega
  induction ps generalizing current w closed with
  | nil => exact absurd clusters (single closed)
  | cons p ps ih =>
    cases p with
    | cutOff raw => exact absurd clusters (single closed)
    | unit k raw =>
      rw [gather] at clusters
      by_cases join : joins w k = true
      · rw [if_pos join] at clusters
        obtain ⟨us, vs, w', rfl, whole, walked⟩ := ih clusters
        refine ⟨.unit k raw :: us, vs, w', rfl, List.forall_mem_cons.mpr ⟨trivial, whole⟩, ?_⟩
        rw [walk, if_pos join, walked]
      · rw [if_neg join] at clusters
        cases closed with
        | nil =>
          obtain ⟨rfl, -⟩ := List.cons.inj clusters
          exact ⟨[], _, w, rfl, List.forall_mem_nil _, rfl⟩
        | cons d closed =>
          obtain ⟨rfl, later⟩ := List.cons.inj clusters
          change gather raw (.start k) ps = closed ++ c :: rest at later
          obtain ⟨us, vs, w', rfl, whole, walked⟩ := ih later
          refine ⟨.unit k raw :: us, vs, w', rfl, List.forall_mem_cons.mpr ⟨trivial, whole⟩, ?_⟩
          rw [walk, if_neg join, walked]

/-! ## Visible ASCII -/

/-- The byte is a space or a sign of ASCII that is shown. -/
def Visible (b : UInt8) : Prop :=
  0x20 ≤ b ∧ b < 0x7F

instance (b : UInt8) : Decidable (Visible b) :=
  inferInstanceAs (Decidable (_ ∧ _))

theorem pieces_visible (visible : Visible b) (rest : Bytes) :
    pieces (b :: rest) = .unit .other [b] :: pieces rest := by
  obtain ⟨least, most⟩ := visible
  have ends : following b rest = some 0 := by
    have low : b < 0xC2 := UInt8.lt_trans most (by decide)
    unfold following
    exact if_pos low
  have kind : frontClass b rest = .other := by
    have low : b < 0x80 := UInt8.lt_trans most (by decide)
    have code : 0x20 ≤ b.toNat ∧ b.toNat < 0x7F :=
      ⟨UInt8.le_iff_toNat_le.mp least, UInt8.lt_iff_toNat_lt.mp most⟩
    have front : Utf8.front b rest = (some b.toNat, 0) := if_pos low
    rw [frontClass, front]
    exact if_pos code
  rw [pieces_of_following ends, kind, List.take_zero, List.drop_zero]

theorem joins_other (w : Walk) : joins w .other = (w.last == .prepend) := by
  obtain ⟨last, solid, earlier, pairs⟩ := w
  cases last <;> rfl

end Cluster
end UnionAtlas
