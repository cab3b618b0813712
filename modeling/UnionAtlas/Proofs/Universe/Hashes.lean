import UnionAtlas.Proofs.Universe.TagEquivalence

/-!
# Hashes of equal elements

Elements of one kind only are equal, and it does not matter which of the two is asked. A union made
by hand may go by several numbers, but it has one tags class and shares it with no other union. So
two tags are equal exactly when they have one name and are of one union of one model. Comparing two
elements may make a tags class; no hash depends on that.

Equal elements have equal hashes, except for views of a case. Two views of one record are equal
whatever models they are seen in, but each is hashed by the name that its own model knows, and
models that do not share their names may know different ones under one number.
-/

namespace UnionAtlas
namespace TypeTable

variable {t t' : TypeTable} {d : TypeDesc} {e : ModelEdit}

/-- Tags classes are types of the table, and no two unions have the same. -/
structure TagsApart (t : TypeTable) : Prop where
  known : ∀ {place tags}, t.tagsAt? place = some tags → tags < t.types.length
  apart : ∀ {place place' tags}, t.tagsAt? place = some tags → t.tagsAt? place' = some tags →
    place = place'

theorem tagsApart_new (ident : Nat) : TagsApart (new ident) := by
  constructor
  · intro place tags made
    simp [tagsAt?, new] at made
  · intro place place' tags made
    simp [tagsAt?, new] at made

theorem TagsApart.adds (tagsApart : TagsApart t) (adds : Adds t e t') : TagsApart t' := by
  have longer := adds.extends.types.length_le
  constructor
  · intro place tags made
    rcases adds.tagsAt?_cases made with old | ⟨owner, -, rfl, types, -⟩
    · exact Nat.lt_of_lt_of_le (tagsApart.known old) longer
    · rw [types, List.length_append]
      exact Nat.lt_succ_self _
  · intro place place' tags made made'
    -- A tags class that is added has a number that no other one has.
    rcases adds.tagsAt?_cases made with old | ⟨owner, found, new, -, owners⟩ <;>
      rcases adds.tagsAt?_cases made' with old' | ⟨owner', found', new', -, owners'⟩
    · exact tagsApart.apart old old'
    · exact absurd (tagsApart.known old) (Nat.not_lt.mpr (Nat.le_of_eq new'.symm))
    · exact absurd (tagsApart.known old') (Nat.not_lt.mpr (Nat.le_of_eq new.symm))
    · have same := List.append_cancel_left (owners.symm.trans owners')
      obtain rfl := List.singleton_inj.mp same
      exact Option.some.inj (found.symm.trans found')

/-- Interning adds a type and touches no union, whatever the descriptor. -/
theorem TagsApart.intern (tagsApart : TagsApart t) (d : TypeDesc) : TagsApart (t.intern d).2 := by
  have longer := (evolves_intern t d).types.length_le
  have same (place : Nat) : (t.intern d).2.tagsAt? place = t.tagsAt? place := by
    rw [tagsAt?, tagsAt?, (intern_leaves t d).1]
  constructor
  · intro place tags made
    exact Nat.lt_of_lt_of_le (tagsApart.known (same place ▸ made)) longer
  · intro place place' tags made made'
    exact tagsApart.apart (same place ▸ made) (same place' ▸ made')

end TypeTable

namespace Model

open TypeTable (TagsApart)

theorem tagsApart_edit {m : Model} (tagsApart : m.types.TagsApart) (e : ModelEdit) :
    (m.edit e).types.TagsApart := by
  cases e with
  | intern d => exact tagsApart.intern d
  | _ => exact tagsApart.adds (m.adds_edit (by trivial))

theorem unionName_eq (m : Model) (id : TypeId) :
    m.unionName id = (((m.types.info? id).map (·.name)).map m.nameOf).getD [] := by
  rw [unionName]
  cases m.types.info? id <;> rfl

end Model

namespace Universe

variable {u : Universe} {i j : Nat}

/-! ## One model of many, made by hand or not -/

theorem types_get (u : Universe) (i : Nat) : (u.get i).types = u.models[i]?.getD default :=
  rfl

theorem names_get (u : Universe) (i : Nat) :
    (u.get i).names = u.tables[u.tableOf i]?.getD default :=
  rfl

/-- An operation on one model leaves the types of the others alone. -/
theorem types_edit_cases (u : Universe) (i : Nat) (e : ModelEdit) (j : Nat) :
    ((u.edit i e).get j).types = (u.get j).types ∨
      ((u.edit i e).get j).types = ((u.get j).edit e).types := by
  have models : (u.edit i e).models = u.models.set i ((u.get i).edit e).types := rfl
  rw [types_get, models, List.getElem?_set]
  split
  · next same =>
    subst same
    split
    · exact .inr rfl
    · next beyond =>
      rw [types_get, List.getElem?_eq_none (Nat.not_lt.mp beyond)]
      exact .inl rfl
  · exact .inl rfl

/-- In every model, no two unions have the same tags class, whatever was made by hand. -/
theorem tagsApart_editAll (count : Nat) (shared : Bool) (edits : List (Nat × ModelEdit)) (i : Nat) :
    (((new count shared).editAll edits).get i).types.TagsApart := by
  have start (j : Nat) : ((new count shared).get j).types.TagsApart := by
    by_cases inside : j < count
    · rw [get_new inside]
      exact TypeTable.tagsApart_new j
    · have beyond : (new count shared).models[j]? = none := by simpa [new] using inside
      rw [types_get, beyond]
      exact TypeTable.tagsApart_new 0
  generalize new count shared = u at start
  induction edits generalizing u with
  | nil => exact start i
  | cons p edits ih =>
    refine ih (u.edit p.1 p.2) fun j => ?_
    rcases u.types_edit_cases p.1 p.2 j with kept | edited
    · exact kept ▸ start j
    · exact edited ▸ Model.tagsApart_edit (start j) p.2

/-- A union keeps its place. -/
theorem unionPlace?_editAll {id : TypeId} {place : Nat}
    (found : (u.get i).types.unionPlace? id = some place) (edits : List (Nat × ModelEdit)) :
    ((u.editAll edits).get i).types.unionPlace? id = some place := by
  induction edits generalizing u with
  | nil => exact found
  | cons p edits ih =>
    refine ih (u := u.edit p.1 p.2) ?_
    rcases u.types_edit_cases p.1 p.2 i with kept | edited
    · exact kept ▸ found
    · exact edited ▸ ((u.get i).evolves_edit p.2).unionPlace? found

/-! ## What comparing leaves alone -/

theorem names_tagsClass (u : Universe) (i : Nat) (union : TypeId) (j : Nat) :
    ((u.tagsClass i union).2.get j).names = (u.get j).names := by
  have tables : (u.tagsClass i union).2.tables = u.tables.set (u.tableOf i) (u.get i).names := rfl
  have table : (u.tagsClass i union).2.tableOf j = u.tableOf j := rfl
  rw [names_get, names_get, table, tables, List.getElem?_set]
  split
  · next same =>
    split
    · rw [names_get, same]
      rfl
    · next beyond => rw [List.getElem?_eq_none (same ▸ Nat.not_lt.mp beyond)]
  · rfl

theorem shortName_tagsClass (u : Universe) (i : Nat) (union : TypeId) (l : Located) :
    (u.tagsClass i union).2.shortName l = u.shortName l := by
  have names := u.names_tagsClass i union l.model
  have spelled : ((u.tagsClass i union).2.get l.model).nameOf = (u.get l.model).nameOf := by
    funext name
    rw [Model.nameOf, Model.nameOf, names]
  have info (id : TypeId) : (((u.tagsClass i union).2.get l.model).types.info? id).map (·.name) =
      ((u.get l.model).types.info? id).map (·.name) := by
    rcases u.types_edit_cases i (.tagsClass union) l.model with kept | made
    · exact congrArg (fun t => (TypeTable.info? t id).map (·.name)) kept
    · exact (congrArg (fun t => (TypeTable.info? t id).map (·.name)) made).trans
        (TypeTable.infoName_tagsClass _ union id)
  rcases l with ⟨model, id | id | uc | uc⟩
  · change Model.unionName _ id = Model.unionName _ id
    rw [Model.unionName_eq, Model.unionName_eq, spelled, info]
  · rfl
  · exact congrFun spelled uc.name
  · exact congrFun spelled uc.name

/-- The hash of an element is told by its short name and, for a tags class, its number. -/
theorem hash_of_shortName {u u' : Universe} {l : Located}
    (named : u'.shortName l = u.shortName l) : u'.hash l = u.hash l := by
  rcases l with ⟨model, id | id | uc | uc⟩
  · exact congrArg fnv1a named
  · rfl
  · exact congrArg fnv1a named
  · exact congrArg fnv1a named

theorem equal_snd_shortName (u : Universe) (a b l : Located) :
    (u.equal a b).2.shortName l = u.shortName l := by
  obtain ⟨i, a⟩ := a
  obtain ⟨j, b⟩ := b
  cases a with
  | tag x =>
    cases b with
    | tag y =>
      by_cases named : u.shortName ⟨i, .tag x⟩ = u.shortName ⟨j, .tag y⟩
      · simp only [equal, named, if_true]
        rw [shortName_tagsClass, shortName_tagsClass]
      · simp [equal, named]
    | _ => rfl
  | _ => cases b <;> rfl

/-! ## Which elements are equal -/

/-- Two tags are equal exactly when they have one name and are of one union of one model. -/
theorem equal_tag_iff_place (tagsApart : (u.get i).types.TagsApart) (x y : UnionCase) :
    (u.equal ⟨i, .tag x⟩ ⟨j, .tag y⟩).1 = true ↔
      u.shortName ⟨i, .tag x⟩ = u.shortName ⟨j, .tag y⟩ ∧ i = j ∧
        ∃ place, (u.get i).types.unionPlace? x.union = some place ∧
          (u.get i).types.unionPlace? y.union = some place := by
  constructor
  · intro equal
    obtain ⟨named, rfl, tags, given, given'⟩ := (equal_tag_iff u _ _ _ _).mp equal
    refine ⟨named, rfl, ?_⟩
    have asked : ((u.get i).types.tagsClass x.union).1 = some tags := given
    obtain ⟨place, found, made⟩ := TypeTable.tagsClass_eq_some asked
    have again : ((((u.tagsClass i x.union).2).get i).types.tagsClass y.union).1 = some tags :=
      given'
    rw [types_tagsClass found] at again
    obtain ⟨place', found', made'⟩ := TypeTable.tagsClass_eq_some again
    rw [TypeTable.unionPlace?_tagsClass] at found'
    -- Both unions have the tags class once both were asked for it.
    have first := TypeTable.adds_tagsClass (u.get i).types x.union
    have second := TypeTable.adds_tagsClass ((u.get i).types.tagsClass x.union).2 y.union
    obtain rfl := ((tagsApart.adds first).adds second).apart (second.tagsAt? made) made'
    exact ⟨place, found, found'⟩
  · rintro ⟨named, rfl, place, found, found'⟩
    exact equal_tags named found found'

/-- What two equal elements are. -/
inductive Same (u : Universe) : Located → Located → Prop where
  | union (i : Nat) (id : TypeId) : Same u ⟨i, .union id⟩ ⟨i, .union id⟩
  | tagsClass (i : Nat) (id : TypeId) : Same u ⟨i, .tagsClass id⟩ ⟨i, .tagsClass id⟩
  | unionCase (i j : Nat) (uc : UnionCase) : Same u ⟨i, .unionCase uc⟩ ⟨j, .unionCase uc⟩
  | tag (i place : Nat) (x y : UnionCase)
      (named : u.shortName ⟨i, .tag x⟩ = u.shortName ⟨i, .tag y⟩)
      (found : (u.get i).types.unionPlace? x.union = some place)
      (found' : (u.get i).types.unionPlace? y.union = some place) :
      Same u ⟨i, .tag x⟩ ⟨i, .tag y⟩

variable {a b : Located}

theorem same_of_equal (tagsApart : ∀ i, (u.get i).types.TagsApart)
    (equal : (u.equal a b).1 = true) : u.Same a b := by
  obtain ⟨i, a⟩ := a
  obtain ⟨j, b⟩ := b
  cases a with
  | union id =>
    cases b with
    | union id' =>
      obtain ⟨rfl, rfl⟩ : i = j ∧ id = id' := by simpa [Universe.equal] using equal
      exact .union i id
    | _ => cases equal
  | tagsClass id =>
    cases b with
    | tagsClass id' =>
      obtain ⟨rfl, rfl⟩ : i = j ∧ id = id' := by simpa [Universe.equal] using equal
      exact .tagsClass i id
    | _ => cases equal
  | unionCase uc =>
    cases b with
    | unionCase uc' =>
      obtain rfl : uc = uc' := by simpa [Universe.equal] using equal
      exact .unionCase i j uc
    | _ => cases equal
  | tag x =>
    cases b with
    | tag y =>
      obtain ⟨named, rfl, place, found, found'⟩ := (equal_tag_iff_place (tagsApart i) x y).mp equal
      exact .tag i place x y named found found'
    | _ => cases equal

theorem Same.equal (same : u.Same a b) : (u.equal a b).1 = true := by
  cases same with
  | tag i place x y named found found' => exact equal_tags named found found'
  | _ => simp [Universe.equal]

theorem Same.symm (same : u.Same a b) : u.Same b a := by
  cases same with
  | union i id => exact .union i id
  | tagsClass i id => exact .tagsClass i id
  | unionCase i j uc => exact .unionCase j i uc
  | tag i place x y named found found' => exact .tag i place y x named.symm found' found

/-- Elements that are equal are so after any comparison. -/
theorem Same.equal_snd (same : u.Same a b) (c d : Located) : (u.equal c d).2.Same a b := by
  obtain ⟨edits, -, compared⟩ := u.equal_snd c d
  have named := u.equal_snd_shortName c d
  cases same with
  | union i id => exact .union i id
  | tagsClass i id => exact .tagsClass i id
  | unionCase i j uc => exact .unionCase i j uc
  | tag i place x y same found found' =>
    refine .tag i place x y ((named _).trans (same.trans (named _).symm)) ?_ ?_
    · exact compared ▸ unionPlace?_editAll found edits
    · exact compared ▸ unionPlace?_editAll found' edits

/-- Only two views of a case can have different hashes. -/
theorem Same.hash (same : u.Same a b) (different : u.hash a ≠ u.hash b) :
    ∃ uc, a.element = .unionCase uc ∧ b.element = .unionCase uc ∧
      u.tableOf a.model ≠ u.tableOf b.model ∧ u.shortName a ≠ u.shortName b := by
  cases same with
  | union i id => exact absurd rfl different
  | tagsClass i id => exact absurd rfl different
  | unionCase i j uc =>
    have names : u.shortName ⟨i, .unionCase uc⟩ ≠ u.shortName ⟨j, .unionCase uc⟩ :=
      fun named => different (congrArg fnv1a named)
    refine ⟨uc, rfl, rfl, fun table => names ?_, names⟩
    have shared : (u.get i).names = (u.get j).names := by rw [names_get, names_get, table]
    exact congrArg (fun t : NameTable => (t.lookup? uc.name).getD []) shared
  | tag i place x y named found found' => exact absurd (congrArg fnv1a named) different

/-- In any history of any number of models, operations by hand included: if an element is equal to
another, then the other is equal to it, before and after comparing; comparing changes no hash; and
the two hashes are the same, unless the elements are views of one case in models that do not share
their names and know different names under the same number. -/
theorem equal_elements_hash (count : Nat) (shared : Bool) (edits : List (Nat × ModelEdit))
    (a b : Located) :
    let u := (new count shared).editAll edits
    (u.equal a b).1 = true →
      (u.equal b a).1 = true ∧ ((u.equal a b).2.equal b a).1 = true ∧
      (∀ l, (u.equal a b).2.hash l = u.hash l) ∧
      (u.hash a ≠ u.hash b → ∃ uc, a.element = .unionCase uc ∧ b.element = .unionCase uc ∧
        u.tableOf a.model ≠ u.tableOf b.model ∧ u.shortName a ≠ u.shortName b) := by
  intro u equal
  have same := same_of_equal (tagsApart_editAll count shared edits) equal
  refine ⟨same.symm.equal, (same.equal_snd a b).symm.equal, fun l => ?_, same.hash⟩
  exact hash_of_shortName (u.equal_snd_shortName a b l)

/-- A union goes by a number that was made by hand and by the number it was registered with. The
tags of its case under the two numbers are equal. -/
theorem equal_elements_hash_forged :
    let u := (new 1 true).editAll [(0, .intern { kind := .union, payload := 1 }),
      (0, .register 0 .none), (0, .add 9 0 .none)]
    let a : Located := ⟨0, .tag ⟨⟨0, 0⟩, 0, 8, .none⟩⟩
    let b : Located := ⟨0, .tag ⟨⟨0, 0⟩, 0, 9, .none⟩⟩
    (u.equal a b).1 = true ∧ (u.equal b a).1 = true ∧ u.hash a = u.hash b := by
  intro u a b
  have equal : (u.equal a b).1 = true := by decide
  obtain ⟨symm, -, -, hashes⟩ := equal_elements_hash 1 true _ a b equal
  refine ⟨equal, symm, ?_⟩
  by_contra different
  obtain ⟨uc, tag, -⟩ := hashes different
  cases tag

/-- A case is seen in its own model and in one that knows no names. -/
theorem not_equal_elements_hash :
    let u := (new 2 false).editAll [(0, .name (text "U")), (0, .register 1 .none),
      (0, .name (text "A")), (0, .add 8 2 .none)]
    let uc : UnionCase := ⟨⟨0, 0⟩, 2, 8, .none⟩
    uc ∈ (u.get 0).types.cases 8 ∧
      (u.equal ⟨0, .unionCase uc⟩ ⟨1, .unionCase uc⟩).1 = true ∧
      u.hash ⟨0, .unionCase uc⟩ ≠ u.hash ⟨1, .unionCase uc⟩ := by
  decide

end Universe
end UnionAtlas
