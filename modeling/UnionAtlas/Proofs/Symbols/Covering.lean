import UnionAtlas.Proofs.Search
import UnionAtlas.Proofs.Symbols.StableOrder

/-!
# The use at an offset

An offset is answered by the use that covers it and starts last; of several that start together, by
the one that was given last. Spans may nest, overlap, be empty or end before they start. The answer
is found from the last use that starts no later than the offset on, backwards in the stable order,
and this module says what that comes to in the order of the given list.
-/

namespace UnionAtlas

/-- An empty span is hit at its own offset, a span that ends before it starts is never hit. -/
theorem Span.contains_iff (s : Span) (off : UInt32) :
    s.contains off = true ↔ s.start ≤ off ∧ off < s.stop ∨ off = s.start ∧ s.start = s.stop := by
  by_cases empty : s.start = s.stop
  · simp only [contains, isEmpty, empty, beq_self_eq_true, if_true, beq_iff_eq, and_true]
    constructor
    · exact .inr
    · rintro (⟨above, below⟩ | same)
      · exact absurd (UInt32.lt_of_le_of_lt above below) (UInt32.lt_irrefl _)
      · exact same
  · simp [contains, isEmpty, empty]

theorem Span.start_le_of_contains {s : Span} {off : UInt32} (hit : s.contains off = true) :
    s.start ≤ off := by
  rcases (s.contains_iff off).mp hit with ⟨above, -⟩ | ⟨rfl, -⟩
  · exact above
  · exact UInt32.le_refl _

/-- The use at a position of a list is admitted and covers the offset. All other such uses start
before it, or start with it and stand in front of it. -/
structure NearestAt (uses : List SymbolUse) (admitted : SymbolUse → Bool) (off : UInt32) (i : Nat)
    (u : SymbolUse) : Prop where
  stands : uses[i]? = some u
  admits : admitted u = true
  covers : u.span.contains off = true
  last : ∀ j v, uses[j]? = some v → admitted v = true → v.span.contains off = true →
    v.span.start < u.span.start ∨ v.span.start = u.span.start ∧ j ≤ i

variable {uses sorted : List SymbolUse} {admitted : SymbolUse → Bool} {off : UInt32} {i j : Nat}
  {u v : SymbolUse}

theorem NearestAt.unique (nearest : NearestAt uses admitted off i u)
    (nearest' : NearestAt uses admitted off j v) : u = v := by
  have earlier := nearest.last j v nearest'.stands nearest'.admits nearest'.covers
  have later := nearest'.last i u nearest.stands nearest.admits nearest.covers
  have same : j = i := by
    simp only [UInt32.lt_iff_toNat_lt, ← UInt32.toNat_inj] at earlier later
    omega
  subst same
  exact Option.some.inj (nearest.stands.symm.trans nearest'.stands)

/-- The last of a stable order starts last, and it is the last of those that start with it. -/
theorem StablySorted.getLast? (stable : StablySorted uses sorted) (last : sorted.getLast? = some u) :
    (∀ v ∈ uses, v.span.start ≤ u.span.start) ∧
      (startingAt u.span.start uses).getLast? = some u := by
  obtain ⟨front, rfl⟩ := List.getLast?_eq_some_iff.mp last
  refine ⟨?_, ?_⟩
  · intro v member
    rcases List.mem_append.mp (stable.ties.mem member) with earlier | here
    · exact (List.pairwise_append.mp stable.ordered).2.2 v earlier u List.mem_cons_self
    · rw [List.mem_singleton.mp here]
      exact UInt32.le_refl _
  · rw [← stable.ties, startingAt, List.filter_append, List.filter_cons_of_pos (by simp),
      List.filter_nil, List.getLast?_concat]

namespace FileSymbols

/-- Halving cuts off the uses that start behind the offset, none of which covers it. -/
theorem covering?_ofUses (uses : List SymbolUse) (admitted : SymbolUse → Bool) (off : UInt32) :
    (ofUses uses).covering? admitted off =
      ((ofUses uses).uses.filter fun u => admitted u && u.span.contains off).getLast? := by
  have lasting : Search.Lasting (fun u : SymbolUse => decide (off < u.span.start))
      (ofUses uses).uses := by
    apply (ordered_ofUses uses).imp
    intro a b before behind
    simp only [decide_eq_true_eq] at behind ⊢
    exact UInt32.lt_of_lt_of_le behind before
  rw [covering?, ← List.getLast?_filter, lasting.take_first, List.filter_filter]
  congr 1
  apply List.filter_congr
  intro u _
  by_cases covered : u.span.contains off = true
  · have early := Span.start_le_of_contains covered
    simp [covered, early]
  · simp [covered]

theorem nearestAt_of_covering? (found : (ofUses uses).covering? admitted off = some u) :
    ∃ i, NearestAt uses admitted off i u := by
  rw [covering?_ofUses] at found
  obtain ⟨greatest, last⟩ := ((stablySorted_ofUses uses).filter _).getLast? found
  rw [startingAt, List.filter_filter, List.getLast?_filter] at last
  obtain ⟨passes, i, stands, behind⟩ := Search.exists_of_find?_reverse last
  simp only [Bool.and_eq_true, beq_iff_eq, true_and] at passes
  refine ⟨i, stands, passes.1, passes.2, ?_⟩
  intro j v there admits covers
  have member : v ∈ uses.filter fun u => admitted u && u.span.contains off := by
    rw [List.mem_filter, admits, covers]
    exact ⟨List.mem_of_getElem? there, rfl⟩
  rcases UInt32.lt_or_eq_of_le (greatest v member) with earlier | same
  · exact .inl earlier
  · refine .inr ⟨same, behind j v there ?_⟩
    rw [same, admits, covers, beq_self_eq_true]
    rfl

theorem covering?_eq_none_iff : (ofUses uses).covering? admitted off = none ↔
    ∀ u ∈ uses, admitted u = true → u.span.contains off = false := by
  rw [covering?_ofUses, List.getLast?_eq_none_iff, List.filter_eq_nil_iff]
  simp only [(sameTies_ofUses uses).perm.mem_iff, Bool.and_eq_true, not_and, Bool.not_eq_true]

theorem covering?_eq_some_iff : (ofUses uses).covering? admitted off = some u ↔
    ∃ i, NearestAt uses admitted off i u := by
  constructor
  · exact nearestAt_of_covering?
  · rintro ⟨i, nearest⟩
    cases found : (ofUses uses).covering? admitted off with
    | none =>
      have missed := covering?_eq_none_iff.mp found u (List.mem_of_getElem? nearest.stands)
        nearest.admits
      rw [nearest.covers] at missed
      cases missed
    | some v =>
      obtain ⟨j, nearest'⟩ := nearestAt_of_covering? found
      rw [nearest.unique nearest']

/-- An offset has a use exactly if some use covers it. The answer is the one that starts last, and
of those that start together the one that was given last. Declarations are answered alike among
themselves. -/
theorem use_at_offset_nearest (uses : List SymbolUse) (off : UInt32) :
    (∀ u, (ofUses uses).useAt? off = some u ↔ ∃ i, NearestAt uses (fun _ => true) off i u) ∧
    ((ofUses uses).useAt? off = none ↔ ∀ u ∈ uses, u.span.contains off = false) ∧
    (∀ u, (ofUses uses).declAt? off = some u ↔ ∃ i, NearestAt uses (·.isDecl) off i u) ∧
    ((ofUses uses).declAt? off = none ↔
      ∀ u ∈ uses, u.isDecl = true → u.span.contains off = false) := by
  refine ⟨?_, ?_, ?_, ?_⟩
  · intro u
    exact covering?_eq_some_iff
  · rw [useAt?, covering?_eq_none_iff]
    simp only [true_implies]
  · intro u
    exact covering?_eq_some_iff
  · exact covering?_eq_none_iff

end FileSymbols
end UnionAtlas
