import UnionAtlas.Proofs.Text.Characters
import UnionAtlas.Proofs.Text.Numerals
import UnionAtlas.Proofs.Text.Pieces
import UnionAtlas.Proofs.Trace.NoteOrder

/-!
# Lines of JSON

Whatever bytes an event holds, its line of JSON has one byte below the space, which is the newline at
its end: in a JSON text such bytes are escaped, and the bytes of all longer characters are large. So
lines of JSON that are written one after the other are told apart by their newlines.
-/

namespace UnionAtlas

/-! ## Bytes from the space on -/

/-- No byte is below the space. -/
def Bytes.Shown (bs : Bytes) : Prop :=
  ∀ b ∈ bs, 0x20 ≤ b

instance (bs : Bytes) : Decidable bs.Shown :=
  List.decidableBAll (0x20 ≤ ·) bs

namespace Bytes

variable {bs more : Bytes} {parts : List Bytes}

theorem Shown.append (shown : bs.Shown) (shown' : more.Shown) : (bs ++ more).Shown :=
  List.forall_mem_append.mpr ⟨shown, shown'⟩

theorem Shown.ite {p : Prop} [Decidable p] (yes : p → bs.Shown) (no : ¬ p → more.Shown) :
    (if p then bs else more).Shown := by
  split
  · next holds => exact yes holds
  · next fails => exact no fails

theorem Shown.join {sep : Bytes} (shown : sep.Shown) (all : ∀ part ∈ parts, part.Shown) :
    (Bytes.join sep parts).Shown := by
  induction parts with
  | nil => exact fun b member => absurd member List.not_mem_nil
  | cons part rest ih =>
    obtain ⟨first, others⟩ := List.forall_mem_cons.mp all
    cases rest with
    | nil => exact first
    | cons next more => exact (first.append shown).append (ih others)

theorem shown_decimal (n : Nat) : (decimal n).Shown := by
  intro b member
  have least := (mem_decimal member).1
  rw [UInt8.le_iff_toNat_le]
  exact Nat.le_trans (by decide) least

theorem shown_hexPadded (width n : Nat) : (hexPadded width n).Shown := by
  induction width generalizing n with
  | zero => exact fun b member => absurd member List.not_mem_nil
  | succ width ih =>
    refine (ih (n / 16)).append fun b member => ?_
    obtain rfl := List.mem_singleton.mp member
    have digit := toNat_hexDigit (n := n % 16) (Nat.mod_lt n (by decide))
    have least : 48 ≤ (hexDigit (n % 16)).toNat := by
      rw [digit]
      split <;> omega
    rw [UInt8.le_iff_toNat_le]
    exact Nat.le_trans (by decide) least

end Bytes

/-- The bytes of a character that is not a control are not below the space: it is one byte, or it is
made of bytes with the highest bit. -/
theorem Utf8.shown_front {first : UInt8} {rest : Bytes} {c : Nat}
    (valid : (front first rest).1 = some c) (visible : 0x20 ≤ c) :
    Bytes.Shown (first :: rest.take (front first rest).2) := by
  have large {b : UInt8} (high : 0x80 ≤ b) : 0x20 ≤ b := UInt8.le_trans (by decide) high
  have continues {b : UInt8} (continuation : isContinuation b = true) : 0x20 ≤ b :=
    large (by simpa using (Bool.and_eq_true_iff.mp continuation).1)
  revert valid
  unfold front
  dsimp only
  split
  · intro valid
    obtain rfl := Option.some.inj valid
    simpa [Bytes.Shown, UInt8.le_iff_toNat_le] using visible
  · next high =>
    have high : 0x20 ≤ first := large (UInt8.not_lt.mp high)
    split
    · split
      · next b tail =>
        split
        · next second =>
          intro _
          simp [Bytes.Shown, high, continues second]
        · exact nofun
      · exact nofun
    · split
      · split
        · next b c tail =>
          split
          · next both =>
            obtain ⟨second, third⟩ := Bool.and_eq_true_iff.mp both
            intro _
            simp [Bytes.Shown, high, continues (isContinuation_of_secondRange second), continues third]
          · exact nofun
        · exact nofun
      · split
        · split
          · next b c d tail =>
            split
            · next all =>
              obtain ⟨both, fourth⟩ := Bool.and_eq_true_iff.mp all
              obtain ⟨second, third⟩ := Bool.and_eq_true_iff.mp both
              intro _
              simp [Bytes.Shown, high, continues (isContinuation_of_secondRange second),
                continues third, continues fourth]
            · exact nofun
          · exact nofun
        · exact nofun

theorem Utf8.shown_raw {bs : Bytes} {r : Rune} (member : r ∈ runes bs) {c : Nat}
    (valid : r.scalar = some c) (visible : 0x20 ≤ c) : r.raw.Shown := by
  fun_induction runes bs with
  | case1 => cases member
  | case2 b rest extra ih =>
    rcases List.mem_cons.mp member with rfl | later
    · exact shown_front valid visible
    · exact ih later

namespace JsonText

theorem shown_rune {bs : Bytes} {r : Rune} (member : r ∈ Utf8.runes bs) : (rune r).Shown := by
  unfold rune
  split
  · decide
  · next c valid =>
    refine .ite (fun mark => ?_) fun _ => .ite (fun _ => by decide) fun _ =>
      .ite (fun _ => by decide) fun _ => .ite (fun _ => by decide) fun _ =>
      .ite (fun _ => by decide) fun _ => .ite (fun _ => by decide) fun _ =>
      .ite (fun _ => ?_) fun plain => Utf8.shown_raw member valid ?_
    · rcases mark with rfl | rfl <;> decide
    · have escape : (text "\\u").Shown := by decide
      exact escape.append (Bytes.shown_hexPadded 4 c)
    · omega

theorem shown_encode (bs : Bytes) : (encode bs).Shown := by
  have quote : (text "\"").Shown := by decide
  refine (quote.append fun b member => ?_).append quote
  obtain ⟨r, inside, member⟩ := List.mem_flatMap.mp member
  exact shown_rune inside b member

end JsonText

namespace Event

variable {members more : List (Bytes × Bytes)}

/-- The values of the members have no byte below the space; the keys are written as JSON texts. -/
def ShownMembers (members : List (Bytes × Bytes)) : Prop :=
  ∀ m ∈ members, Bytes.Shown m.2

theorem ShownMembers.append (shown : ShownMembers members) (shown' : ShownMembers more) :
    ShownMembers (members ++ more) :=
  List.forall_mem_append.mpr ⟨shown, shown'⟩

theorem shownMembers_singleton (k : Bytes) {v : Bytes} (shown : v.Shown) :
    ShownMembers [(k, v)] :=
  List.forall_mem_singleton.mpr shown

theorem shownMembers_optional (present : Bool) (k : Bytes) {v : Bytes} (shown : v.Shown) :
    ShownMembers (if present then [(k, v)] else []) := by
  split
  · exact shownMembers_singleton k shown
  · exact List.forall_mem_nil _

theorem shown_object (values : ShownMembers members) : (object members).Shown := by
  have opening : (text "\x7b").Shown := by decide
  have closing : (text "\x7d").Shown := by decide
  have colon : (text ":").Shown := by decide
  refine (opening.append (Bytes.Shown.join (by decide) ?_)).append closing
  intro part member
  obtain ⟨⟨k, v⟩, inside, rfl⟩ := List.mem_map.mp member
  exact ((JsonText.shown_encode k).append colon).append (values _ inside)

theorem shown_notes (notes : Notes) :
    (object (notes.map fun (k, v) => (k, JsonText.encode v))).Shown := by
  refine shown_object fun m member => ?_
  obtain ⟨⟨k, v⟩, -, rfl⟩ := List.mem_map.mp member
  exact JsonText.shown_encode v

/-- The first member of the line of JSON is the time. -/
theorem json_eq_object (e : Event) :
    ∃ members, ShownMembers members ∧
      e.json = object ((text "time", JsonText.encode e.time.render) :: members) ++ text "\n" := by
  refine ⟨_, ?_, rfl⟩
  have number (n : UInt64) := Bytes.shown_decimal n.toNat
  have none : ShownMembers [] := List.forall_mem_nil _
  exact (((((((none.append (shownMembers_singleton _ (number e.seq))).append
    (shownMembers_singleton _ (JsonText.shown_encode _))).append
    (shownMembers_singleton _ (JsonText.shown_encode _))).append
    (shownMembers_optional _ _ (number e.span))).append
    (shownMembers_optional _ _ (number e.parent))).append
    (shownMembers_singleton _ (JsonText.shown_encode e.name))).append
    (shownMembers_optional _ _ (JsonText.shown_encode e.detail))).append
    (shownMembers_optional _ _ (shown_notes e.notes.sorted))

/-- An object begins with its first key. -/
theorem object_cons (k v : Bytes) (members : List (Bytes × Bytes)) :
    ∃ rest, object ((k, v) :: members) = text "\x7b" ++ JsonText.encode k ++ text ":" ++ rest := by
  cases members with
  | nil => exact ⟨v ++ text "\x7d", by simp [object, Bytes.join]⟩
  | cons next members =>
    refine ⟨v ++ text "," ++ Bytes.join (text ",")
      ((next :: members).map fun (k, v) => JsonText.encode k ++ text ":" ++ v) ++ text "\x7d", ?_⟩
    simp [object, Bytes.join]

/-- The line of JSON begins with the time, and its end is its only byte below the space. -/
theorem json_eq (e : Event) :
    ∃ line, e.json = line ++ [0x0A] ∧ Bytes.Shown line ∧ text "\x7b\"time\":" <+: line := by
  obtain ⟨members, values, json⟩ := json_eq_object e
  have shown := shown_object ((shownMembers_singleton (text "time")
    (JsonText.shown_encode e.time.render)).append values)
  obtain ⟨rest, object⟩ := object_cons (text "time") (JsonText.encode e.time.render) members
  have opening : text "\x7b" ++ JsonText.encode (text "time") ++ text ":" = text "\x7b\"time\":" := by
    decide +kernel
  refine ⟨_, json, shown, ?_⟩
  rw [object, opening]
  exact List.prefix_append _ rest

/-- Lines of JSON are told apart by their newlines. -/
theorem split_lines (log : List Event) :
    Bytes.split 0x0A (log.flatMap json) = (log.map fun e => e.json.dropLast) ++ [[]] := by
  induction log with
  | nil => rfl
  | cons e log ih =>
    obtain ⟨line, json, shown, -⟩ := json_eq e
    have absent : 0x0A ∉ line := fun member => absurd (shown _ member) (by decide)
    rw [List.flatMap_cons, json, List.append_assoc, List.singleton_append, Bytes.split_append_cons,
      Bytes.split_of_not_mem absent, ih, List.map_cons, json, List.dropLast_concat]
    rfl

/-- What is written of an event does not hang on the order of its notes. -/
theorem render_congr (e : Event) {notes : Notes} (distinct : e.notes.Distinct)
    (distinct' : notes.Distinct) (same : ∀ p, p ∈ e.notes ↔ p ∈ notes) (format : TraceFormat) :
    e.render format = { e with notes }.render format := by
  rw [← render_tidy, ← render_tidy { e with notes }, tidy, tidy,
    Notes.sorted_congr distinct distinct' same]

end Event

/-- The line of JSON of an event is an object that begins with the time, with a newline behind it,
which is the only byte below the space: the lines of many events are told apart by it. In every form
the text of an event is told by which notes there are. And programs that differ only in when notes
are set, with the same last values, leave the same things to read. -/
theorem written_events_are_framed_and_unordered :
    (∀ e : Event, ∃ line, e.render .ndjson = line ++ [0x0A] ∧ (∀ b ∈ line, 0x20 ≤ b) ∧
      text "\x7b\"time\":" <+: line) ∧
    (∀ log : List Event, Bytes.split 0x0A (log.flatMap (Event.render .ndjson)) =
      (log.map fun e => (e.render .ndjson).dropLast) ++ [[]]) ∧
    (∀ (e : Event) (notes : Notes) (format : TraceFormat), e.notes.Distinct → notes.Distinct →
      (∀ p, p ∈ e.notes ↔ p ∈ notes) → e.render format = { e with notes }.render format) ∧
    ∀ (r : Recorder) (t : Tracer) (program program' : TracerProgram), r.Keyed →
      program.SameNotes program' →
      (r.performAll t r.spans.length program).ShowsSame (r.performAll t r.spans.length program') :=
  ⟨Event.json_eq, Event.split_lines, fun e _ format distinct distinct' same =>
    e.render_congr distinct distinct' same format, fun _ _ _ _ keyed same =>
    (Recorder.alike_of_sameNotes keyed same).showsSame⟩

/-- An event with a newline, a quote and stray bytes in it, and a span that is given two notes around
a point, in one order and in the other. -/
theorem written_events_are_framed_and_unordered_hostile :
    let notes : Notes := [(text "b\n", [0x07, 0xFF]), (text "a", text "\"")]
    let e : Event :=
      ⟨default, 1, .spanEnd, .file, 1, 0, text "x\ny", [0x80, 0x0D], notes, none⟩
    let r : Recorder :=
      { Recorder.new (.empty []) with
        outlets := [.stream .debug .ndjson (.memory ⟨.complete, 0, [], 0, 0⟩)] }
    let note (key : String) : Stamp × TracerCall := (default, .annotate 0 (text key) (text "v"))
    let mark : Stamp × TracerCall := (default, .point .file (text "p") [])
    let start : TracerProgram := [(default, .beginSpan .file (text "s") 0)]
    let finish : TracerProgram := [(default, .endSpan 0 [])]
    let program := start ++ note "k" :: mark :: note "l" :: finish
    let program' := start ++ mark :: note "l" :: note "k" :: finish
    (Bytes.split 0x0A (e.render .ndjson ++ e.render .ndjson)).length = 3 ∧
      e.render .ndjson = { e with notes := notes.reverse }.render .ndjson ∧
      r.Keyed ∧ program.SameNotes program' ∧
      (r.performAll (.single 0) 0 program).ShowsSame (r.performAll (.single 0) 0 program') := by
  intro notes e r note mark start finish program program'
  obtain ⟨-, lines, unordered, same⟩ := written_events_are_framed_and_unordered
  have keyed : r.Keyed := List.forall_mem_nil _
  have sameNotes : program.SameNotes program' := by
    refine .trans _ (start ++ mark :: note "k" :: note "l" :: finish) _ (.rel _ _ ?_) (.rel _ _ ?_)
    · exact .pass start (note "l" :: finish) trivial
    · exact .pass (start ++ [mark]) finish (fun _ => by decide)
  refine ⟨?_, ?_, keyed, sameNotes, same r (.single 0) program program' keyed sameNotes⟩
  · have two := congrArg List.length (lines [e, e])
    simpa using two
  · exact unordered e notes.reverse .ndjson (by decide) (by decide) fun p =>
      List.mem_reverse.symm

end UnionAtlas
