import UnionAtlas.Proofs.Handle.RoundTrip

/-!
# Readers that look no further than they read

A reader of the wire format looks at no byte behind the value that it reads: whatever follows is
left over and changes nothing else. So what is read of the beginning of a stored form is read of the
whole form as well, with what was cut off left over. Nothing is left over of a whole stored form,
and hence none of its shorter beginnings is read.
-/

namespace UnionAtlas

namespace Wire

variable {α β : Type} {read other : Bytes → Option (α × Bytes)}

/-- More bytes behind what is read are left over and change nothing else. -/
structure Prompt (read : Bytes → Option (α × Bytes)) : Prop where
  append {bs rest : Bytes} {a : α} :
    read bs = some (a, rest) → ∀ more, read (bs ++ more) = some (a, rest ++ more)

namespace Prompt

theorem never : Prompt fun _ => (none : Option (α × Bytes)) :=
  ⟨fun found => nomatch found⟩

theorem always (a : α) : Prompt fun bs => some (a, bs) := by
  constructor
  rintro bs rest b ⟨⟩ more
  rfl

theorem ite {c : Prop} [Decidable c] (yes : Prompt read) (no : Prompt other) :
    Prompt fun bs => if c then read bs else other bs := by
  constructor
  intro bs rest a found more
  split at found
  · next holds => exact (if_pos holds).trans (yes.append found more)
  · next fails => exact (if_neg fails).trans (no.append found more)

theorem map (prompt : Prompt read) (f : α → β) :
    Prompt fun bs => (read bs).map fun (a, rest) => (f a, rest) := by
  constructor
  intro bs rest b found more
  obtain ⟨⟨a, after⟩, here, ⟨⟩⟩ := Option.map_eq_some_iff.mp found
  simp only [prompt.append here more, Option.map_some]

/-- What is read next may depend on what was read. -/
theorem bind (prompt : Prompt read) {next : α → Bytes → Option (β × Bytes)}
    (prompts : ∀ a, Prompt (next a)) :
    Prompt fun bs => (read bs).bind fun (a, rest) => next a rest := by
  constructor
  intro bs rest b found more
  obtain ⟨⟨a, after⟩, here, there⟩ := Option.bind_eq_some_iff.mp found
  simp only [prompt.append here more, Option.bind_some]
  exact (prompts a).append there more

/-- Something else may be read in the place of a value if it can be told apart without a look at the
value: otherwise more bytes might complete a value where there was none. -/
theorem orElse {instead whole : Bytes → Option (β × Bytes)} {next : α → Bytes → Option (β × Bytes)}
    (prompt : Prompt read) (prompts : ∀ a, Prompt (next a)) (second : Prompt instead)
    (apart : ∀ {bs p}, instead bs = some p → ∀ bs', read bs' = none)
    (present : ∀ {bs a rest}, read bs = some (a, rest) → whole bs = next a rest)
    (absent : ∀ {bs}, read bs = none → whole bs = instead bs) : Prompt whole := by
  constructor
  intro bs rest b found more
  cases here : read bs with
  | some p =>
    rw [present here] at found
    rw [present (prompt.append here more)]
    exact (prompts p.1).append found more
  | none =>
    rw [absent here] at found
    rw [absent (apart found _)]
    exact second.append found more

/-- The first byte of a value may tell how to read on. -/
theorem cons {next : UInt8 → Bytes → Option (α × Bytes)} (empty : read [] = none)
    (starts : ∀ code bs, read (code :: bs) = next code bs) (prompts : ∀ code, Prompt (next code)) :
    Prompt read := by
  constructor
  intro bs rest a found more
  cases bs with
  | nil => cases empty.symm.trans found
  | cons code bs =>
    rw [starts] at found
    rw [List.cons_append, starts]
    exact (prompts code).append found more

end Prompt

/-! ## Lengths, strings and numbers -/

theorem prompt_take? (n : Nat) : Prompt (take? n) := by
  constructor
  intro bs rest front found more
  unfold take? at found ⊢
  split at found
  · next enough =>
    cases found
    have enough' : n ≤ (bs ++ more).length := by
      rw [List.length_append]
      exact Nat.le_add_right_of_le enough
    rw [if_pos enough', List.take_append_of_le_length enough, List.drop_append_of_le_length enough]
  · cases found

theorem prompt_number? (n : Nat) : Prompt (number? n) :=
  (prompt_take? n).map Bytes.ofBigEndian

theorem prompt_stringLength? (code : UInt8) : Prompt (stringLength? code) := by
  unfold stringLength?
  refine .ite (.always 0) (.ite (.always _) ?_)
  exact .ite (prompt_number? 1) (.ite (prompt_number? 2) (.ite (prompt_number? 4) .never))

theorem prompt_mapLength? (code : UInt8) : Prompt (mapLength? code) :=
  .ite (.always _) (.ite (prompt_number? 2) (.ite (prompt_number? 4) .never))

theorem prompt_arrayLength? (code : UInt8) : Prompt (arrayLength? code) :=
  .ite (.always _) (.ite (prompt_number? 2) (.ite (prompt_number? 4) .never))

theorem prompt_string? : Prompt string? := by
  refine .cons rfl ?_ fun code => (prompt_stringLength? code).bind prompt_take?
  intro code bs
  rw [string?]
  cases stringLength? code bs <;> rfl

theorem prompt_word? : Prompt word? := by
  apply Prompt.cons rfl (fun code bs => rfl)
  intro code
  have unsigned (n : Nat) := (prompt_number? n).map Nat.toUInt64
  have signed (n : Nat) := (prompt_number? n).map (signExtend n)
  refine .ite (.always 0) (.ite (.always _) (.ite (.always _) ?_))
  refine .ite (unsigned 1) (.ite (unsigned 2) (.ite (unsigned 4) (.ite (unsigned 8) ?_)))
  exact .ite (signed 1) (.ite (signed 2) (.ite (signed 4) .never))

/-! ## First bytes -/

section FirstBytes

variable {code : UInt8} {bs : Bytes} {p : Nat × Bytes}

theorem stringLength?_eq_none (outside : code.toNat < 0xA0 ∨ 0xDC ≤ code.toNat) (bs : Bytes) :
    stringLength? code bs = none := by
  simp only [stringLength?, ← UInt8.toNat_inj, UInt8.le_iff_toNat_le, beq_iff_eq, Bool.and_eq_true,
    Bool.or_eq_true, decide_eq_true_eq, UInt8.reduceToNat]
  repeat rw [if_neg (by omega)]

theorem mapLength?_eq_none (outside : 0x90 ≤ code.toNat ∧ code.toNat < 0xDE) (bs : Bytes) :
    mapLength? code bs = none := by
  simp only [mapLength?, ← UInt8.toNat_inj, UInt8.le_iff_toNat_le, beq_iff_eq, Bool.and_eq_true,
    decide_eq_true_eq, UInt8.reduceToNat]
  repeat rw [if_neg (by omega)]

theorem code_of_mapLength? (found : mapLength? code bs = some p) :
    code.toNat < 0x90 ∨ 0xDE ≤ code.toNat := by
  by_contra outside
  rw [mapLength?_eq_none (by omega)] at found
  cases found

theorem code_of_arrayLength? (found : arrayLength? code bs = some p) :
    0x90 ≤ code.toNat ∧ code.toNat < 0xDE ∧ (code.toNat < 0xA0 ∨ 0xDC ≤ code.toNat) := by
  by_contra outside
  simp only [arrayLength?, ← UInt8.toNat_inj, UInt8.le_iff_toNat_le, beq_iff_eq, Bool.and_eq_true,
    decide_eq_true_eq, UInt8.reduceToNat] at found
  repeat rw [if_neg (by omega)] at found
  cases found

end FirstBytes

/-! ## Values that are passed over -/

/-- No first byte begins two of a string, a map and an array, so they can be tried in turn. -/
theorem prompt_body? (code : UInt8) : Prompt (body? code) := by
  have raw (n : Nat) : Prompt fun bs => some (Body.mk n 0, bs) := .always _
  have counted (width kind : Nat) := (prompt_number? width).map fun n => Body.mk (n + kind) 0
  unfold body?
  refine .ite (raw 0) (.ite (raw 0) (.ite (raw 1) (.ite (raw 2) (.ite (raw 4) (.ite (raw 8) ?_)))))
  refine .ite (raw 2) (.ite (raw 3) (.ite (raw 5) (.ite (raw 9) (.ite (raw 17) ?_))))
  refine .ite (counted 1 1) (.ite (counted 2 1) (.ite (counted 4 1) ?_))
  refine .orElse (prompt_stringLength? code) (fun n => .always (Body.mk n 0)) ?mapOrArray ?_
    (fun here => by rw [here]) (fun here => by rw [here])
  case mapOrArray =>
    refine .orElse (prompt_mapLength? code) (fun n => .always (Body.mk 0 (2 * n))) ?array ?_
      (fun here => by rw [here]) (fun here => by rw [here])
    case array => exact (prompt_arrayLength? code).map fun n => Body.mk 0 n
    · intro bs p found
      obtain ⟨length, here, -⟩ := Option.map_eq_some_iff.mp found
      have array := code_of_arrayLength? here
      exact mapLength?_eq_none ⟨array.1, array.2.1⟩
  · intro bs p found
    apply stringLength?_eq_none
    cases map : mapLength? code bs with
    | some q =>
      have first := code_of_mapLength? map
      omega
    | none =>
      rw [map] at found
      obtain ⟨length, here, -⟩ := Option.map_eq_some_iff.mp found
      exact (code_of_arrayLength? here).2.2

/-- A value is passed over by its lengths and its bytes; the values in it come before all others. -/
theorem skipWithin_cons (fuel pending : Nat) (code : UInt8) (bs : Bytes) :
    skipWithin (fuel + 1) (pending + 1) (code :: bs) =
      (body? code bs).bind fun (body, rest) =>
        (take? body.bytes rest).bind fun (_, rest) =>
          skipWithin fuel (pending + body.values) rest := by
  rw [skipWithin]
  cases body? code bs with
  | none => rfl
  | some p =>
    dsimp only [Option.bind_some]
    cases take? p.1.bytes p.2 <;> rfl

/-- More bytes, and more fuel to pass over them, change nothing. -/
theorem skipWithin_append {fuel fuel' pending : Nat} {bs rest : Bytes} (enough : fuel ≤ fuel')
    (found : skipWithin fuel pending bs = some rest) (more : Bytes) :
    skipWithin fuel' pending (bs ++ more) = some (rest ++ more) := by
  induction fuel generalizing fuel' pending bs with
  | zero =>
    cases pending with
    | zero =>
      obtain rfl : bs = rest := by simpa [skipWithin] using found
      simp [skipWithin]
    | succ pending => simp [skipWithin] at found
  | succ fuel ih =>
    cases pending with
    | zero =>
      obtain rfl : bs = rest := by simpa [skipWithin] using found
      simp [skipWithin]
    | succ pending =>
      obtain ⟨fuel', rfl⟩ := Nat.exists_eq_add_one_of_ne_zero (Nat.ne_zero_of_lt enough)
      cases bs with
      | nil => simp [skipWithin] at found
      | cons code bs =>
        rw [skipWithin_cons] at found
        obtain ⟨⟨body, inner⟩, lengths, found⟩ := Option.bind_eq_some_iff.mp found
        obtain ⟨⟨front, after⟩, bytes, found⟩ := Option.bind_eq_some_iff.mp found
        have longer := (prompt_body? code).append lengths more
        have taken := (prompt_take? body.bytes).append bytes more
        simp only [List.cons_append, skipWithin_cons, longer, taken, Option.bind_some]
        exact ih (Nat.le_of_succ_le_succ enough) found

/-- A value that is passed over is read as nothing. -/
theorem prompt_skip? (a : α) : Prompt fun bs => (skip? bs).map fun rest => (a, rest) := by
  constructor
  intro bs rest b found more
  obtain ⟨after, skipped, ⟨⟩⟩ := Option.map_eq_some_iff.mp found
  have longer : bs.length ≤ (bs ++ more).length := by
    rw [List.length_append]
    exact Nat.le_add_right _ _
  have again : skip? (bs ++ more) = some (rest ++ more) := skipWithin_append longer skipped more
  rw [again, Option.map_some]

end Wire

namespace Handle

open Wire (Prompt)

namespace Fields

theorem prompt_read? (f : Fields) (field : Field) : Prompt (f.read? field) := by
  cases field with
  | version => exact Wire.prompt_word?.map fun v => { f with version := v.toNat % 65536 }
  | kind => exact Wire.prompt_word?.map fun v => { f with kind := v.toNat % 256 }
  | union => exact Wire.prompt_string?.map fun s => { f with union := s }
  | case => exact Wire.prompt_string?.map fun s => { f with case := s }

/-- Reads the value behind a key. -/
def readKeyed? (f : Fields) (key bs : Bytes) : Option (Fields × Bytes) :=
  match Field.ofKey? key with
  | some field => f.read? field bs
  | none => (Wire.skip? bs).map fun rest => (f, rest)

theorem prompt_readKeyed? (f : Fields) (key : Bytes) : Prompt (f.readKeyed? key) := by
  unfold readKeyed?
  split
  · exact f.prompt_read? _
  · exact Wire.prompt_skip? f

/-- An entry is a key and the value behind it. -/
theorem readEntries?_succ (n : Nat) (f : Fields) :
    readEntries? (n + 1) f = fun bs =>
      (Wire.string? bs).bind fun (key, rest) =>
        (f.readKeyed? key rest).bind fun (f, rest) => readEntries? n f rest := by
  funext bs
  rw [readEntries?]
  cases Wire.string? bs with
  | none => rfl
  | some p =>
    dsimp only [Option.bind_some]
    unfold readKeyed?
    cases Field.ofKey? p.1 with
    | some field =>
      dsimp only
      cases f.read? field p.2 <;> rfl
    | none =>
      dsimp only
      cases Wire.skip? p.2 <;> rfl

theorem prompt_readEntries? (n : Nat) (f : Fields) : Prompt (readEntries? n f) := by
  induction n generalizing f with
  | zero => exact .always f
  | succ n ih =>
    rw [readEntries?_succ]
    exact Wire.prompt_string?.bind fun key => (f.prompt_readKeyed? key).bind ih

theorem prompt_readValues? (fields : List Field) (f : Fields) : Prompt (readValues? fields f) := by
  induction fields generalizing f with
  | nil => exact .always f
  | cons field fields ih =>
    have read : readValues? (field :: fields) f = fun bs =>
        (f.read? field bs).bind fun (f, rest) => readValues? fields f rest := by
      funext bs
      rw [readValues?]
      cases f.read? field bs <;> rfl
    rw [read]
    exact (f.prompt_read? field).bind ih

/-- Reads an array of a number of values: there must be none or all four. -/
def readArray? (n : Nat) (bs : Bytes) : Option (Fields × Bytes) :=
  if n = 0 then some ({}, bs)
  else if n = 4 then readValues? [.version, .kind, .union, .case] {} bs
  else none

theorem prompt_readArray? (n : Nat) : Prompt (readArray? n) :=
  .ite (.always _) (.ite (prompt_readValues? _ _) .never)

theorem prompt_decode? : Prompt decode? := by
  apply Prompt.cons rfl (fun code bs => rfl)
  intro code
  have array := (Wire.prompt_arrayLength? code).bind prompt_readArray?
  refine .ite (.always _) ?_
  refine .orElse (Wire.prompt_mapLength? code) (fun n => prompt_readEntries? n {}) array ?_
    (fun here => by rw [here]) ?_
  · intro bs p found
    obtain ⟨length, here, -⟩ := Option.bind_eq_some_iff.mp found
    have first := Wire.code_of_arrayLength? here
    exact Wire.mapLength?_eq_none ⟨first.1, first.2.1⟩
  · intro bs here
    rw [here]
    cases Wire.arrayLength? code bs with
    | none => rfl
    | some p =>
      obtain ⟨n, rest⟩ := p
      simp only [Option.bind_some, readArray?]
      split
      · next same =>
        cases same
        rfl
      · next same =>
        cases same
        rfl
      · next filled wrong =>
        have nonempty : n ≠ 0 := by
          rintro rfl
          exact filled rest rfl
        have partly : n ≠ 4 := by
          rintro rfl
          exact wrong rest rfl
        rw [if_neg nonempty, if_neg partly]

/-- If nothing is left over of the whole, nothing is read of a shorter beginning. -/
theorem decode?_eq_none {bs cut : Bytes} {f : Fields} (whole : decode? bs = some (f, []))
    (begins : cut <+: bs) (shorter : cut ≠ bs) : decode? cut = none := by
  obtain ⟨more, rfl⟩ := begins
  cases read : decode? cut with
  | none => rfl
  | some p =>
    have again := prompt_decode?.append read more
    rw [whole] at again
    have nothing : p.2 ++ more = [] := (Prod.mk.inj (Option.some.inj again)).2.symm
    rw [(List.append_eq_nil_iff.mp nothing).2, List.append_nil] at shorter
    exact absurd rfl shorter

end Fields

/-- The stored form of a handle cannot be cut short, be it in the middle of a length, of a key or of
a name, or between two entries: what is left of it is no handle. -/
theorem shortened_form_refused {h : Handle} (fits : h.Fits) {cut : Bytes}
    (begins : cut <+: h.encode) (shorter : cut ≠ h.encode) : decode cut = .error .malformed := by
  have whole := decode?_encode fits []
  rw [List.append_nil] at whole
  rw [decode, Fields.decode?_eq_none whole begins shorter]

/-- Nothing is left of the last name, which begins with the byte of an absent value, but its
length of one byte. -/
theorem shortened_form_refused_after_length :
    let h : Handle := ⟨.tag, [], List.replicate 32 0xC0⟩
    let cut := h.encode.take (h.encode.length - 32)
    h.Fits ∧ cut <+: h.encode ∧ cut ≠ h.encode ∧ cut.getLast? = some 32 ∧
      decode cut = .error .malformed := by
  intro h cut
  have fits : h.Fits := by decide
  have begins : cut <+: h.encode := List.take_prefix _ _
  have shorter : cut ≠ h.encode := by decide
  exact ⟨fits, begins, shorter, by decide, shortened_form_refused fits begins shorter⟩

end Handle
end UnionAtlas
