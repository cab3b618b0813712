import UnionAtlas.Proofs.Files.Positions

/-!
# Line ends of two bytes

Text read from disk loses the carriage returns that stand right before a line feed. The program
drops them in one pass. Here that pass is compared with a rule for each offset of the text, which
says what is dropped and what is kept, and with replacing pairs from the left. A byte that is kept
is on the same line before and after. The result may hold a pair again, where a second carriage
return stood before the one that was dropped.
-/

namespace UnionAtlas

/-- The byte before the line feed in a line end of two bytes. -/
def carriageReturn : UInt8 := 0x0D

/-- A carriage return stands at an offset, and a line feed right behind it. -/
def ReturnAt (content : Bytes) (k : Nat) : Prop :=
  content[k]? = some carriageReturn ∧ content[k + 1]? = some lineFeed

instance (content : Bytes) (k : Nat) : Decidable (ReturnAt content k) :=
  inferInstanceAs (Decidable (_ ∧ _))

/-- The offsets without a carriage return that has a line feed right behind it, in order. -/
def keptOffsets (content : Bytes) : List Nat :=
  (List.range content.length).filter (¬ ReturnAt content ·)

/-- The content with each pair of a carriage return and a line feed replaced by a line feed, from
the left and without overlaps. -/
def replacePairs : Bytes → Bytes
  | b :: c :: rest =>
    if b = carriageReturn ∧ c = lineFeed then lineFeed :: replacePairs rest
    else b :: replacePairs (c :: rest)
  | short => short

/-- The line of an offset, counted from one. -/
def lineAt (content : Bytes) (k : Nat) : Nat :=
  1 + (content.take k).count lineFeed

variable {b : UInt8} {content rest : Bytes} {j k : Nat}

theorem returnAt_zero_iff :
    ReturnAt (b :: rest) 0 ↔ b = carriageReturn ∧ rest.head? = some lineFeed := by
  simp [ReturnAt, List.head?_eq_getElem?]

theorem dropReturns_cons (b : UInt8) (rest : Bytes) :
    dropReturns (b :: rest) =
      if ReturnAt (b :: rest) 0 then dropReturns rest else b :: dropReturns rest := by
  simp only [dropReturns, returnAt_zero_iff, carriageReturn, lineFeed, Bool.and_eq_true, beq_iff_eq]

/-- Two pairs do not overlap. -/
theorem not_returnAt_succ (here : ReturnAt content k) : ¬ ReturnAt content (k + 1) := by
  rintro ⟨back, -⟩
  have feed := here.2
  rw [back] at feed
  exact absurd (Option.some.inj feed) (by decide)

theorem exists_returnAt_cons :
    (∃ k, ReturnAt (b :: rest) k) ↔ ReturnAt (b :: rest) 0 ∨ ∃ k, ReturnAt rest k := by
  constructor
  · rintro ⟨k, stands⟩
    cases k with
    | zero => exact .inl stands
    | succ k => exact .inr ⟨k, stands⟩
  · rintro (here | ⟨k, stands⟩)
    · exact ⟨0, here⟩
    · exact ⟨k + 1, stands⟩

theorem hasReturns_iff : hasReturns content = true ↔ ∃ k, ReturnAt content k := by
  induction content with
  | nil => simp [hasReturns, ReturnAt]
  | cons b rest ih =>
    rw [exists_returnAt_cons, ← ih, returnAt_zero_iff]
    simp only [hasReturns, carriageReturn, lineFeed, Bool.or_eq_true, Bool.and_eq_true, beq_iff_eq]

instance (content : Bytes) : Decidable (∃ k, ReturnAt content k) :=
  decidable_of_iff _ hasReturns_iff

/-! ## What is kept -/

theorem mem_keptOffsets : k ∈ keptOffsets content ↔ k < content.length ∧ ¬ ReturnAt content k := by
  simp [keptOffsets]

theorem keptOffsets_cons (b : UInt8) (rest : Bytes) :
    keptOffsets (b :: rest) =
      if ReturnAt (b :: rest) 0 then (keptOffsets rest).map (· + 1)
      else 0 :: (keptOffsets rest).map (· + 1) := by
  have later : ((List.range rest.length).map Nat.succ).filter (¬ ReturnAt (b :: rest) ·) =
      (keptOffsets rest).map (· + 1) := by
    rw [List.filter_map]
    rfl
  rw [keptOffsets, List.length_cons, List.range_succ_eq_map, List.filter_cons, later]
  by_cases here : ReturnAt (b :: rest) 0
  · simp [here]
  · simp [here]

theorem filterMap_map_succ (b : UInt8) (rest : Bytes) (offsets : List Nat) :
    (offsets.map (· + 1)).filterMap ((b :: rest)[·]?) = offsets.filterMap (rest[·]?) := by
  rw [List.filterMap_map]
  rfl

/-- The pass keeps the bytes at the kept offsets, in order. -/
theorem dropReturns_eq_filterMap (content : Bytes) :
    dropReturns content = (keptOffsets content).filterMap (content[·]?) := by
  induction content with
  | nil => rfl
  | cons b rest ih =>
    rw [dropReturns_cons, keptOffsets_cons]
    by_cases here : ReturnAt (b :: rest) 0
    · rw [if_pos here, if_pos here, filterMap_map_succ, ih]
    · rw [if_neg here, if_neg here, List.filterMap_cons, filterMap_map_succ, ← ih]
      rfl

/-- Pairs do not overlap, so the pass drops in each of them what the replacement drops. -/
theorem dropReturns_eq_replacePairs (content : Bytes) :
    dropReturns content = replacePairs content := by
  induction content using replacePairs.induct with
  | case1 b c rest pair ih =>
    obtain ⟨rfl, rfl⟩ := pair
    have alone : ¬ ReturnAt (lineFeed :: rest) 0 := by
      simp [returnAt_zero_iff, lineFeed, carriageReturn]
    rw [dropReturns_cons, if_pos ⟨rfl, rfl⟩, dropReturns_cons, if_neg alone, ih, replacePairs,
      if_pos ⟨rfl, rfl⟩]
  | case2 b c rest apart ih =>
    have alone : ¬ ReturnAt (b :: c :: rest) 0 := by
      simpa [returnAt_zero_iff] using apart
    rw [dropReturns_cons, if_neg alone, ih, replacePairs, if_neg apart]
  | case3 short single =>
    cases short with
    | nil => rfl
    | cons b rest =>
      cases rest with
      | nil => simp [dropReturns, replacePairs]
      | cons c rest => exact absurd rfl (single b c rest)

theorem count_lineFeed_cons_of_returnAt (here : ReturnAt (b :: rest) 0) (content : Bytes) :
    (b :: content).count lineFeed = content.count lineFeed := by
  rw [(returnAt_zero_iff.mp here).1]
  exact List.count_cons_of_ne (by decide)

theorem count_lineFeed_dropReturns (content : Bytes) :
    (dropReturns content).count lineFeed = content.count lineFeed := by
  induction content with
  | nil => rfl
  | cons b rest ih =>
    rw [dropReturns_cons]
    by_cases here : ReturnAt (b :: rest) 0
    · rw [if_pos here, count_lineFeed_cons_of_returnAt here, ih]
    · rw [if_neg here, List.count_cons, List.count_cons, ih]

/-- A kept byte comes to stand at the place that its offset has among the kept ones, and as many
line feeds are in front of it as before. -/
theorem kept_byte (kept : (keptOffsets content)[j]? = some k) :
    (dropReturns content)[j]? = content[k]? ∧
      lineAt (dropReturns content) j = lineAt content k := by
  induction content generalizing j k with
  | nil => simp [keptOffsets] at kept
  | cons b rest ih =>
    rw [keptOffsets_cons] at kept
    rw [dropReturns_cons]
    by_cases here : ReturnAt (b :: rest) 0
    · rw [if_pos here, List.getElem?_map] at kept
      obtain ⟨k, later, rfl⟩ := Option.map_eq_some_iff.mp kept
      obtain ⟨same, line⟩ := ih later
      rw [if_pos here, List.getElem?_cons_succ]
      refine ⟨same, line.trans ?_⟩
      rw [lineAt, lineAt, List.take_succ_cons, count_lineFeed_cons_of_returnAt here]
    · rw [if_neg here] at kept ⊢
      cases j with
      | zero =>
        obtain rfl := Option.some.inj kept
        exact ⟨rfl, rfl⟩
      | succ j =>
        rw [List.getElem?_cons_succ, List.getElem?_map] at kept
        obtain ⟨k, later, rfl⟩ := Option.map_eq_some_iff.mp kept
        obtain ⟨same, line⟩ := ih later
        rw [List.getElem?_cons_succ, List.getElem?_cons_succ]
        refine ⟨same, ?_⟩
        simp only [lineAt, List.take_succ_cons, List.count_cons] at line ⊢
        omega

theorem lt_length_of_kept (kept : (keptOffsets content)[j]? = some k) :
    j < (dropReturns content).length := by
  have inside := (mem_keptOffsets.mp (List.mem_of_getElem? kept)).1
  have stands := (kept_byte kept).1
  rw [List.getElem?_eq_getElem inside] at stands
  exact (List.getElem?_eq_some_iff.mp stands).1

theorem length_dropReturns_le (content : Bytes) :
    (dropReturns content).length ≤ content.length := by
  induction content with
  | nil => exact Nat.le_refl 0
  | cons b rest ih =>
    rw [dropReturns_cons]
    split
    · exact Nat.le_succ_of_le ih
    · exact Nat.succ_le_succ ih

/-- Nothing is dropped from a text without pairs, and only from such a text. -/
theorem dropReturns_eq_self_iff : dropReturns content = content ↔ ¬ ∃ k, ReturnAt content k := by
  induction content with
  | nil => simp [dropReturns, ReturnAt]
  | cons b rest ih =>
    rw [exists_returnAt_cons, dropReturns_cons]
    by_cases here : ReturnAt (b :: rest) 0
    · rw [if_pos here]
      constructor
      · intro same
        have shorter := length_dropReturns_le rest
        rw [same, List.length_cons] at shorter
        omega
      · intro none
        exact absurd (.inl here) none
    · rw [if_neg here, List.cons.injEq, ih]
      simp [here]

/-! ## What the result looks like -/

theorem head?_dropReturns (content : Bytes) :
    (dropReturns content).head? = if ReturnAt content 0 then some lineFeed else content.head? := by
  induction content with
  | nil => simp [dropReturns, ReturnAt]
  | cons b rest ih =>
    rw [dropReturns_cons]
    by_cases here : ReturnAt (b :: rest) 0
    · have next : ¬ ReturnAt rest 0 := not_returnAt_succ here
      rw [if_pos here, if_pos here, ih, if_neg next, (returnAt_zero_iff.mp here).2]
    · rw [if_neg here, if_neg here]
      rfl

/-- A pair is left exactly where two carriage returns stood before a line feed. -/
theorem exists_returnAt_dropReturns :
    (∃ k, ReturnAt (dropReturns content) k) ↔
      ∃ k, content[k]? = some carriageReturn ∧ ReturnAt content (k + 1) := by
  induction content with
  | nil => simp [dropReturns, ReturnAt]
  | cons b rest ih =>
    have later : (∃ k, (b :: rest)[k]? = some carriageReturn ∧ ReturnAt (b :: rest) (k + 1)) ↔
        (b = carriageReturn ∧ ReturnAt rest 0) ∨
          ∃ k, rest[k]? = some carriageReturn ∧ ReturnAt rest (k + 1) := by
      constructor
      · rintro ⟨k, back, stands⟩
        cases k with
        | zero => exact .inl ⟨Option.some.inj back, stands⟩
        | succ k => exact .inr ⟨k, back, stands⟩
      · rintro (⟨rfl, stands⟩ | ⟨k, back, stands⟩)
        · exact ⟨0, rfl, stands⟩
        · exact ⟨k + 1, back, stands⟩
    rw [dropReturns_cons, later, ← ih]
    by_cases here : ReturnAt (b :: rest) 0
    · have next : ¬ ReturnAt rest 0 := not_returnAt_succ here
      simp [if_pos here, next]
    · have first : ReturnAt (b :: dropReturns rest) 0 ↔ b = carriageReturn ∧ ReturnAt rest 0 := by
        rw [returnAt_zero_iff, head?_dropReturns]
        by_cases next : ReturnAt rest 0
        · simp [next]
        · rw [if_neg next]
          constructor
          · intro pair
            exact absurd (returnAt_zero_iff.mpr pair) here
          · intro pair
            exact absurd pair.2 next
      rw [if_neg here, exists_returnAt_cons, first]

/-- A beginning without line ends is left as it is. -/
theorem prefix_dropReturns_iff {front : Bytes}
    (plain : ∀ b ∈ front, b ≠ carriageReturn ∧ b ≠ lineFeed) :
    front <+: dropReturns content ↔ front <+: content := by
  induction front generalizing content with
  | nil => simp
  | cons a front ih =>
    obtain ⟨notReturn, notFeed⟩ := plain a List.mem_cons_self
    have rest' : ∀ b ∈ front, b ≠ carriageReturn ∧ b ≠ lineFeed := fun b member =>
      plain b (List.mem_cons_of_mem a member)
    cases content with
    | nil => rfl
    | cons b rest =>
      rw [dropReturns_cons, List.cons_prefix_cons]
      by_cases here : ReturnAt (b :: rest) 0
      · obtain ⟨back, feed⟩ := returnAt_zero_iff.mp here
        have next : ¬ ReturnAt rest 0 := not_returnAt_succ here
        rw [if_pos here]
        constructor
        · rintro ⟨tail, whole⟩
          have head := congrArg List.head? whole
          rw [head?_dropReturns, if_neg next, feed] at head
          exact absurd (Option.some.inj head) notFeed
        · rintro ⟨same, -⟩
          exact absurd (same.trans back) notReturn
      · rw [if_neg here, List.cons_prefix_cons, ih rest']

end UnionAtlas
