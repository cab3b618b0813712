import Mathlib.Data.List.Basic
import UnionAtlas.Proofs.Symbols.StableOrder

/-!
# What the symbols of a file hold

The index by names is entered use by use, and a name is answered from the positions that were
entered for it. So the uses of a name are found where they stand in the stable order, and all of
them are. Declarations and other uses part the list. None of it depends on how uses of different
offsets were mixed when they were given.
-/

namespace UnionAtlas

namespace NameIndex

variable {name : Bytes}

theorem positions?_enter (index : NameIndex) (known : Bytes) (i : Nat) (name : Bytes) :
    (index.enter known i).positions? name =
      if known = name then some ((index.positions? name).getD [] ++ [i])
      else index.positions? name := by
  induction index with
  | nil =>
    by_cases here : known = name
    · simp [enter, positions?, here]
    · simp [enter, positions?, here]
  | cons entry rest ih =>
    obtain ⟨first, positions⟩ := entry
    by_cases same : first = known
    · subst same
      by_cases here : first = name
      · simp [enter, positions?, here]
      · simp [enter, positions?, here]
    · by_cases here : first = name
      · subst here
        simp [enter, positions?, same, Ne.symm same]
      · simp only [positions?] at ih
        simp [enter, positions?, same, here, ih]

/-- The numbers of the uses of a name, in their order. -/
def standing (name : Bytes) (numbered : List (SymbolUse × Nat)) : List Nat :=
  (numbered.filter (·.1.name == name)).map (·.2)

theorem positions?_foldl (numbered : List (SymbolUse × Nat)) (index : NameIndex) (name : Bytes) :
    (numbered.foldl (fun index (u, i) => index.enter u.name i) index).positions? name =
      if standing name numbered = [] then index.positions? name
      else some ((index.positions? name).getD [] ++ standing name numbered) := by
  induction numbered generalizing index with
  | nil => rfl
  | cons first rest ih =>
    obtain ⟨u, i⟩ := first
    rw [List.foldl_cons, ih, positions?_enter]
    by_cases here : u.name = name
    · have front : standing name ((u, i) :: rest) = i :: standing name rest := by
        simp [standing, here]
      by_cases none : standing name rest = []
      · simp [front, here, none]
      · simp [front, here, none]
    · have absent : standing name ((u, i) :: rest) = standing name rest := by
        simp [standing, here]
      simp only [absent, here, if_false]

theorem positions?_ofUses (uses : List SymbolUse) (name : Bytes) :
    (ofUses uses).positions? name =
      if standing name uses.zipIdx = [] then none else some (standing name uses.zipIdx) := by
  rw [ofUses, positions?_foldl]
  rfl

end NameIndex

namespace FileSymbols

/-- The uses of a name are read off their positions. -/
theorem lookup?_eq (fs : FileSymbols) (name : Bytes) :
    fs.lookup? name =
      if fs.uses.filter (·.name == name) = [] then none
      else some (fs.uses.filter (·.name == name)) := by
  have named : fs.uses.filter (·.name == name) =
      (fs.uses.zipIdx.filter (·.1.name == name)).map (·.1) := by
    calc fs.uses.filter (·.name == name)
        = (fs.uses.zipIdx.map (·.1)).filter (·.name == name) := by rw [List.zipIdx_map_fst]
      _ = (fs.uses.zipIdx.filter (·.1.name == name)).map (·.1) := List.filter_map
  have read : (NameIndex.standing name fs.uses.zipIdx).filterMap (fun i => fs.uses[i]?) =
      fs.uses.filter (·.name == name) := by
    rw [NameIndex.standing, List.filterMap_map, named, ← List.filterMap_eq_map]
    apply List.filterMap_congr
    intro entry member
    exact List.mem_zipIdx_iff_getElem?.mp (List.mem_of_mem_filter member)
  have nowhere : NameIndex.standing name fs.uses.zipIdx = [] ↔
      fs.uses.filter (·.name == name) = [] := by
    rw [NameIndex.standing, named, List.map_eq_nil_iff, List.map_eq_nil_iff]
  rw [lookup?, NameIndex.positions?_ofUses]
  by_cases absent : fs.uses.filter (·.name == name) = []
  · rw [if_pos (nowhere.mpr absent), if_pos absent, Option.map_none]
  · rw [if_neg (mt nowhere.mp absent), if_neg absent, Option.map_some, read]

/-- Look-ups, declarations and other uses show the given uses in their stable order, each of them
once. A name is not found exactly if it stands nowhere. Another order of the uses with the same ties
makes the same index. -/
theorem index_keeps_uses (uses : List SymbolUse) :
    (∀ name, (ofUses uses).lookup? name = none ↔ ∀ u ∈ uses, u.name ≠ name) ∧
    (∀ name found, (ofUses uses).lookup? name = some found →
      StablySorted (uses.filter (·.name == name)) found) ∧
    StablySorted (uses.filter (·.isDecl)) (ofUses uses).declared ∧
    StablySorted (uses.filter (!·.isDecl)) (ofUses uses).resolved ∧
    ((ofUses uses).declared ++ (ofUses uses).resolved).Perm uses ∧
    (ofUses uses).size = uses.length ∧
    ∀ uses', SameTies uses uses' → ofUses uses' = ofUses uses := by
  have stable := stablySorted_ofUses uses
  refine ⟨?_, ?_, stable.filter _, stable.filter _, ?_, size_ofUses uses, ?_⟩
  · intro name
    have absent : (ofUses uses).uses.filter (·.name == name) = [] ↔ ∀ u ∈ uses, u.name ≠ name := by
      rw [List.filter_eq_nil_iff]
      simp only [beq_iff_eq, stable.ties.perm.mem_iff, ne_eq]
    rw [lookup?_eq, ← absent]
    by_cases nowhere : (ofUses uses).uses.filter (·.name == name) = []
    · rw [if_pos nowhere]
      exact iff_of_true rfl nowhere
    · rw [if_neg nowhere]
      exact iff_of_false (Option.some_ne_none _) nowhere
  · intro name found answered
    rw [lookup?_eq] at answered
    split at answered
    · cases answered
    · obtain rfl := Option.some.inj answered
      exact stable.filter _
  · exact (List.filter_append_perm _ _).trans stable.ties.perm
  · intro uses' same
    exact ofUses_of_sameTies same

/-- Two uses start together behind a third one, which is given between them or in front of them. -/
theorem index_keeps_uses_mixed :
    let near : SymbolUse := ⟨text "U", ⟨0, 1, 2⟩, none, false⟩
    let far : SymbolUse := ⟨text "A", ⟨0, 3, 4⟩, none, true⟩
    let again : SymbolUse := ⟨text "A", ⟨0, 3, 9⟩, none, false⟩
    SameTies [far, near, again] [near, far, again] ∧
      ofUses [near, far, again] = ofUses [far, near, again] := by
  intro near far again
  have same : SameTies [far, near, again] [near, far, again] := by
    intro start
    by_cases early : (1 : UInt32) = start
    · subst early
      rfl
    · by_cases late : (3 : UInt32) = start
      · subst late
        rfl
      · simp [startingAt, near, far, again, early, late]
  obtain ⟨-, -, -, -, -, -, mixed⟩ := index_keeps_uses [far, near, again]
  exact ⟨same, mixed _ same⟩

end FileSymbols
end UnionAtlas
