import UnionAtlas.Symbols.FileSymbols

/-!
# Uses in a stable order

The uses of a file are sorted by their first offsets, and those that start together stay in the
order they were given in. Order and ties determine the sorted list: of one list of uses there is one
stable order, and two lists whose uses of each offset are the same have the same one.
-/

namespace UnionAtlas

variable {uses uses' sorted sorted' : List SymbolUse} {u a : SymbolUse} {start : UInt32}

/-- The uses that start at an offset, in their order. -/
def startingAt (start : UInt32) (uses : List SymbolUse) : List SymbolUse :=
  uses.filter (·.span.start == start)

theorem mem_startingAt : u ∈ startingAt start uses ↔ u ∈ uses ∧ u.span.start = start := by
  rw [startingAt, List.mem_filter, beq_iff_eq]

/-- The same uses in another order, in which those that start together keep theirs. -/
def SameTies (uses uses' : List SymbolUse) : Prop :=
  ∀ start, startingAt start uses' = startingAt start uses

namespace SameTies

theorem symm (same : SameTies uses uses') : SameTies uses' uses := by
  intro start
  exact (same start).symm

theorem trans {uses'' : List SymbolUse} (first : SameTies uses uses')
    (second : SameTies uses' uses'') : SameTies uses uses'' := by
  intro start
  rw [second, first]

theorem mem (same : SameTies uses uses') (member : u ∈ uses) : u ∈ uses' := by
  have standing := mem_startingAt.mpr ⟨member, rfl⟩
  rw [← same] at standing
  exact (mem_startingAt.mp standing).1

theorem perm (same : SameTies uses uses') : uses'.Perm uses := by
  rw [List.perm_iff_count]
  intro u
  have own : (u.span.start == u.span.start) = true := beq_self_eq_true u.span.start
  rw [← List.count_filter (p := (·.span.start == u.span.start)) (l := uses') own,
    ← List.count_filter (p := (·.span.start == u.span.start)) (l := uses) own]
  exact congrArg (List.count u) (same u.span.start)

theorem filter (same : SameTies uses uses') (p : SymbolUse → Bool) :
    SameTies (uses.filter p) (uses'.filter p) := by
  intro start
  have commutes (us : List SymbolUse) :
      startingAt start (us.filter p) = (startingAt start us).filter p := by
    simp only [startingAt, List.filter_filter, Bool.and_comm]
  rw [commutes, commutes, same]

theorem tail (same : SameTies (a :: uses) (a :: uses')) : SameTies uses uses' := by
  intro start
  have here := same start
  simp only [startingAt, List.filter_cons] at here
  split at here
  · exact (List.cons.inj here).2
  · exact here

end SameTies

/-- No use starts before one in front of it. -/
def Ordered (uses : List SymbolUse) : Prop :=
  uses.Pairwise fun a b => a.span.start ≤ b.span.start

namespace Ordered

theorem head_le (ordered : Ordered (a :: uses)) (member : u ∈ a :: uses) :
    a.span.start ≤ u.span.start := by
  rcases List.mem_cons.mp member with rfl | later
  · exact UInt32.le_refl _
  · exact (List.pairwise_cons.mp ordered).1 u later

theorem tail (ordered : Ordered (a :: uses)) : Ordered uses :=
  (List.pairwise_cons.mp ordered).2

/-- The heads start together because each is least, so they are the first of one tie. -/
theorem eq_of_sameTies (ordered : Ordered uses) (ordered' : Ordered uses')
    (same : SameTies uses uses') : uses' = uses := by
  induction uses generalizing uses' with
  | nil =>
    cases uses' with
    | nil => rfl
    | cons b rest' => cases same.symm.mem List.mem_cons_self
  | cons a rest ih =>
    cases uses' with
    | nil => cases same.mem List.mem_cons_self
    | cons b rest' =>
      have starts : a.span.start = b.span.start := by
        apply UInt32.le_antisymm
        · exact ordered.head_le (same.symm.mem List.mem_cons_self)
        · exact ordered'.head_le (same.mem List.mem_cons_self)
      have heads : b = a := by
        have here := same a.span.start
        simp only [startingAt, List.filter_cons, beq_self_eq_true, starts, if_true] at here
        exact (List.cons.inj here).1
      subst heads
      rw [ih ordered.tail ordered'.tail same.tail]

end Ordered

/-- The same uses by their first offsets. Those that start together stay in their order. -/
structure StablySorted (uses sorted : List SymbolUse) : Prop where
  ordered : Ordered sorted
  ties : SameTies uses sorted

namespace StablySorted

/-- There is one stable order of a list of uses. -/
theorem unique (stable : StablySorted uses sorted) (stable' : StablySorted uses sorted') :
    sorted' = sorted :=
  stable.ordered.eq_of_sameTies stable'.ordered (stable.ties.symm.trans stable'.ties)

theorem filter (stable : StablySorted uses sorted) (p : SymbolUse → Bool) :
    StablySorted (uses.filter p) (sorted.filter p) :=
  ⟨List.Pairwise.filter p stable.ordered, stable.ties.filter p⟩

end StablySorted

theorem SymbolUse.startsBy_trans (a b c : SymbolUse) (first : a.startsBy b = true)
    (second : b.startsBy c = true) : a.startsBy c = true := by
  simp only [startsBy, decide_eq_true_eq] at first second ⊢
  exact UInt32.le_trans first second

theorem SymbolUse.startsBy_total (a b : SymbolUse) : (a.startsBy b || b.startsBy a) = true := by
  simp only [startsBy, Bool.or_eq_true, decide_eq_true_eq]
  exact UInt32.le_total _ _

namespace FileSymbols

theorem ordered_ofUses (uses : List SymbolUse) : Ordered (ofUses uses).uses := by
  apply (List.pairwise_mergeSort SymbolUse.startsBy_trans SymbolUse.startsBy_total uses).imp
  intro a b before
  simpa [SymbolUse.startsBy] using before

/-- The uses that start at an offset are sorted already, and sorting leaves a sorted part of a list
as it is. -/
theorem sameTies_ofUses (uses : List SymbolUse) : SameTies uses (ofUses uses).uses := by
  intro start
  have together : (startingAt start uses).Pairwise fun a b => a.startsBy b = true := by
    rw [List.pairwise_iff_forall_sublist]
    intro a b pair
    have first := (mem_startingAt.mp (pair.subset List.mem_cons_self)).2
    have second := (mem_startingAt.mp (pair.subset (List.mem_cons_of_mem a List.mem_cons_self))).2
    rw [SymbolUse.startsBy, first, second, decide_eq_true_eq]
    exact UInt32.le_refl start
  have kept := (List.sublist_mergeSort SymbolUse.startsBy_trans SymbolUse.startsBy_total together
    List.filter_sublist).filter (·.span.start == start)
  simp only [startingAt, List.filter_filter, Bool.and_self] at kept
  have sizes := (List.mergeSort_perm uses SymbolUse.startsBy).filter (·.span.start == start)
  exact (kept.eq_of_length sizes.length_eq.symm).symm

theorem stablySorted_ofUses (uses : List SymbolUse) : StablySorted uses (ofUses uses).uses :=
  ⟨ordered_ofUses uses, sameTies_ofUses uses⟩

/-- Lists whose uses of each offset are the same have the same index. -/
theorem ofUses_of_sameTies (same : SameTies uses uses') : ofUses uses' = ofUses uses := by
  have stable : StablySorted uses (ofUses uses').uses :=
    ⟨ordered_ofUses uses', same.trans (sameTies_ofUses uses')⟩
  exact congrArg FileSymbols.mk ((stablySorted_ofUses uses).unique stable)

end FileSymbols

end UnionAtlas
