import UnionAtlas.Proofs.Model.TagOrdinals
import UnionAtlas.Proofs.Session.Changes
import UnionAtlas.Proofs.Workspace.Bindings
import UnionAtlas.Proofs.Workspace.Denotation

/-!
# Answers that outlive edits

A stored answer shows elements of the model as it was when its file was bound. Elements are views,
so they show the model as it is, and while cases are only moved, or added under names that their
unions do not list, a new bind of the file comes to the very same elements. So a stored answer
agrees with a new bind, use by use, at every time and whatever else happens to the cache meanwhile.
-/

namespace UnionAtlas

namespace TypeTable

theorem infoName_registerUnion {t : TypeTable} (nonempty : t.types ≠ []) (name : NameId)
    (decl : Span) :
    ((t.registerUnion name decl).2.info? (t.registerUnion name decl).1).map (·.name) =
      some name := by
  rw [info?, unionPlace?_registerUnion nonempty]
  simp [registerUnion, append]

end TypeTable

namespace Workspace

variable {ws ws' : Workspace} {disk : Disk} {base content : Bytes} {f : SourceFile} {m m' : Model}
  {b : Binding} {bs : List Binding} {use : SymbolUse} {uses : List SymbolUse}
  {edits : List ModelEdit}

/-! ## Described models are orderly -/

/-- A union that is registered has no cases yet, and is found under its name. -/
theorem orderly_register (orderly : m.Orderly) (name : NameId) (decl : Span) :
    (m.edit (.register name decl)).Orderly := by
  have adds : TypeTable.Adds m.types _ _ := TypeTable.adds_registerUnion m.types name decl
  refine ⟨orderly.rooted.adds adds, orderly.sound.evolves (m.evolves_edit _), ?_, ?_⟩
  · intro place
    have lists : (m.edit (.register name decl)).types.casesAt place = m.types.casesAt place :=
      TypeTable.casesAt_registerUnion m.types name decl place
    rw [lists]
    exact orderly.distinct place
  · intro other id current
    have current : (m.types.registerUnion name decl).2.unionByName? other = some id := current
    rw [TypeTable.unionByName?_registerUnion] at current
    by_cases new : name = other
    · rw [if_pos new] at current
      obtain rfl := Option.some.inj current
      rw [← new]
      exact TypeTable.infoName_registerUnion orderly.rooted.nonempty name decl
    · rw [if_neg new] at current
      exact orderly.title adds.extends current

/-- Cases of different names are added to a union without cases. -/
theorem AddsCases.orderly {place : Nat} {added : List UnionCase} (adds : AddsCases m m' place added)
    (orderly : m.Orderly) (spelled : m.Spelled) (empty : m.types.casesAt place = [])
    (distinct : (added.map fun uc => m'.nameOf uc.name).Nodup) : m'.Orderly := by
  obtain ⟨edits, plain, rfl⟩ := adds.history
  refine ⟨Model.editAll_adds TypeTable.Rooted TypeTable.Rooted.adds orderly.rooted plain,
    Model.editAll_types TypeTable.Sound TypeTable.Sound.evolves orderly.sound edits, ?_, ?_⟩
  · intro other
    rw [adds.cases]
    by_cases here : other = place
    · rw [here, empty, if_pos rfl, List.nil_append]
      exact distinct
    · have texts : (m.types.casesAt other).map (fun uc => (m.editAll edits).nameOf uc.name) =
          (m.types.casesAt other).map fun uc => m.nameOf uc.name := by
        refine List.map_congr_left fun uc listed => ?_
        obtain ⟨s, known⟩ := spelled other uc listed
        rw [Model.nameOf_of_lookup? known, Model.nameOf_of_lookup? (Model.lookup?_editAll known _)]
      rw [if_neg here, List.append_nil, texts]
      exact orderly.distinct other
  · intro name id current
    rw [TypeTable.unionByName?, adds.registered] at current
    exact orderly.title (Model.extends_editAll plain) current

/-- Every union of a description gets its cases once, all under different names. -/
theorem orderly_addUnion {u : UnionEntry} (spelled : ws.model.Spelled) (orderly : ws.model.Orderly)
    (added : ws.addUnion u = .ok ws') : ws'.model.Orderly := by
  obtain ⟨-, m', done, rfl⟩ := addUnion_ok added
  set named := ws.model.edit (.name (identifier u.name))
  set number := (ws.model.names.intern (identifier u.name)).1
  have orderly' : named.Orderly := orderly.edit (e := .name _) spelled
  have lists (place : Nat) : (named.edit (.register number .none)).types.casesAt place =
      ws.model.types.casesAt place :=
    TypeTable.casesAt_registerUnion ws.model.types number .none place
  have spelled' : (named.edit (.register number .none)).Spelled := by
    intro place uc listed
    obtain ⟨s, known⟩ := spelled place uc (lists place ▸ listed)
    exact ⟨s, Model.lookup?_editAll known [.name (identifier u.name)]⟩
  obtain ⟨cs, adds, written, distinct, -⟩ :=
    addCases_ok (TypeTable.unionPlace?_registerUnion orderly.rooted.nonempty number .none) done
  refine adds.orderly (orderly_register orderly' number .none) spelled' ?_ ?_
  · rw [lists]
    simp [TypeTable.casesAt]
  · have texts := congrArg (List.map (Option.getD · [])) written
    simp only [List.map_map, Function.comp_def, Option.getD_some] at texts
    exact texts ▸ distinct

theorem orderly_empty : empty.model.Orderly := by
  refine ⟨TypeTable.rooted_new 0, TypeTable.sound_new 0, ?_, ?_⟩
  · intro place
    exact List.nodup_nil
  · intro name id current
    cases current

theorem orderly_of_parse (parsed : parse disk base content = .ok ws) : ws.model.Orderly := by
  obtain ⟨d, -, -, made⟩ := parse_ok parsed
  obtain ⟨ws₁, unions, files⟩ := ofDescription_ok made
  let described (ws : Workspace) : Prop := ws.model.Spelled ∧ ws.model.Orderly
  have afterUnions : described ws₁ := by
    refine addUnions_keeps described ?_ ⟨spelled_empty, orderly_empty⟩ unions
    intro ws u ws' ⟨spelled, orderly⟩ added
    exact ⟨spelled_addUnion orderly.rooted spelled added, orderly_addUnion spelled orderly added⟩
  refine (addFiles_keeps described ?_ afterUnions files).2
  intro ws f ws' holds added
  obtain ⟨file, bindings, -, -, -, -, rfl⟩ := addFile_ok added
  exact holds

/-! ## A bind and the next one -/

theorem quiet_resolveReference (m : Model) (ref : Bytes) :
    ∃ edits, m.QuietHistory edits ∧ (m.resolveReference ref).2 = m.editAll edits := by
  rcases m.resolveReference_snd ref with same | ⟨id, made⟩
  · exact ⟨[], trivial, same⟩
  · exact ⟨[.tagsClass id], ⟨trivial, trivial⟩, made⟩

/-- A bind edits the model quietly, for it makes tags classes at most. -/
theorem quiet_bindAll (cancelled : Bool) (f : SourceFile) (m : Model) (bs : List Binding) :
    ∃ edits, m.QuietHistory edits ∧ (bindAll cancelled f m bs).2 = m.editAll edits := by
  induction bs generalizing m with
  | nil => exact ⟨[], trivial, rfl⟩
  | cons b bs ih =>
    obtain ⟨first, quiet, led⟩ := quiet_resolveReference m b.ref
    unfold bindAll
    split
    · exact ⟨[], trivial, rfl⟩
    · generalize m.resolveReference b.ref = x at led ⊢
      obtain ⟨_ | element, m₁⟩ := x
      · exact ⟨first, quiet, led⟩
      · obtain ⟨rest, quiet', led'⟩ := ih m₁
        obtain rfl : m₁ = m.editAll first := led
        refine ⟨first ++ rest, quiet.append quiet', ?_⟩
        rw [Model.editAll_append, ← led']
        dsimp only
        generalize bindAll cancelled f (m.editAll first) bs = y
        obtain ⟨_ | uses, m₂⟩ := y <;> rfl

/-- The use is served for a described one, whose reference denotes its element. -/
def Serves (f : SourceFile) (m : Model) (b : Binding) (use : SymbolUse) : Prop :=
  ∃ element, m.Denotes (Bytes.split 0x2E (identifier b.ref)) element ∧
    use = ⟨element.shortName m, { b.span with file := f.id }, some element, b.isDecl⟩

/-- The use is the same after a quiet history, with the name that is shown for its element. -/
theorem Serves.editAll (serves : Serves f m b use) (orderly : m.Orderly)
    (quiet : m.QuietHistory edits) : Serves f (m.editAll edits) b use := by
  obtain ⟨element, denotes, rfl⟩ := serves
  have later := denotes.editAll orderly quiet
  refine ⟨element, later, ?_⟩
  rw [later.shortName (orderly.editAll quiet), denotes.shortName orderly]

theorem serves_of_bindAll {cancelled : Bool} (orderly : m.Orderly)
    (found : (bindAll cancelled f m bs).1 = .ok uses) :
    List.Forall₂ (Serves f (bindAll cancelled f m bs).2) bs uses := by
  induction bs generalizing m uses with
  | nil =>
    cases found
    exact .nil
  | cons b bs ih =>
    have denoted (element : Element) (given : (m.resolveReference b.ref).1 = some element) :=
      Model.denotes_of_resolveReference given
    obtain ⟨first, quiet, led⟩ := quiet_resolveReference m b.ref
    unfold bindAll at found ⊢
    split at found
    · cases found
    · next going =>
      rw [if_neg going]
      generalize m.resolveReference b.ref = x at denoted led found ⊢
      obtain ⟨_ | element, m₁⟩ := x
      · cases found
      · have orderly' : m₁.Orderly := by
          obtain rfl : m₁ = m.editAll first := led
          exact orderly.editAll quiet
        obtain ⟨rest, quiet', led'⟩ := quiet_bindAll cancelled f m₁ bs
        have served : Serves f m₁ b ⟨element.shortName m₁, _, some element, b.isDecl⟩ :=
          ⟨element, denoted element rfl, rfl⟩
        have still := served.editAll orderly' quiet'
        rw [← led'] at still
        have ih := @ih m₁
        dsimp only at found ⊢
        generalize bindAll cancelled f m₁ bs = y at ih still found ⊢
        obtain ⟨_ | later, m₂⟩ := y
        · cases found
        · obtain rfl := Except.ok.inj found
          exact .cons still (ih orderly' rfl)

/-- Served uses are bound again to themselves, and the model stays as it is. -/
theorem bindAll_of_serves (orderly : m.Orderly) (served : List.Forall₂ (Serves f m) bs uses) :
    bindAll false f m bs = (.ok uses, m) := by
  induction served with
  | nil => rfl
  | cons first _ ih =>
    obtain ⟨element, denotes, rfl⟩ := first
    simp only [bindAll, denotes.resolveReference orderly rfl, ih, Bool.false_eq_true, if_false]

/-! ## What a stored answer is worth -/

/-- The stored answer is that of a registered version, and a bind of this version finds it now. -/
def Upholds (ws : Workspace) (files : FileSet) (m : Model) (entry : CacheEntry) : Prop :=
  ∃ f uses, files.get? entry.file = some f ∧ f.path = entry.path ∧ f.digest = entry.digest ∧
    entry.answer.symbols = .ofUses uses ∧ List.Forall₂ (Serves f m) (ws.bindingsOf f.path) uses

/-- Every stored answer is upheld, and edits may follow. -/
structure Upheld (ws : Workspace) (x : Cache × Model) : Prop where
  sound : x.1.Sound
  numbered : x.1.files.Numbered
  orderly : x.2.Orderly
  upholds : ∀ entry ∈ x.1.entries, ws.Upholds x.1.files x.2 entry

variable {c : Cache} {x y : Cache × Model}

theorem Upheld.editAll (upheld : ws.Upheld (c, m)) (quiet : m.QuietHistory edits) :
    ws.Upheld (c, m.editAll edits) := by
  refine ⟨upheld.sound, upheld.numbered, upheld.orderly.editAll quiet, ?_⟩
  intro entry stored
  obtain ⟨f, uses, known, path, digest, symbols, served⟩ := upheld.upholds entry stored
  exact ⟨f, uses, known, path, digest, symbols,
    served.imp fun b use serves => serves.editAll upheld.orderly quiet⟩

/-- The cache goes one step, and whatever is stored by it is upheld. -/
theorem Upheld.step (upheld : ws.Upheld (c, m)) (e : CacheEvent)
    (ended : ∀ g uses, g ∈ c.flights → .ended g.bind g.file (some uses) ∈ (c.step e).1 →
      List.Forall₂ (Serves g.file m) (ws.bindingsOf g.file.path) uses) :
    ws.Upheld ((c.step e).2, m) := by
  have registered {id : FileId} {f : SourceFile} (known : c.files.get? id = some f) :
      (c.step e).2.files.get? id = some f := Cache.get?_run known [e]
  refine ⟨upheld.sound.step e, Cache.numbered_run upheld.numbered [e], upheld.orderly, ?_⟩
  intro entry stored
  rcases Cache.mem_entries_step stored with old | ⟨g, uses, under, -, rfl, seen⟩
  · obtain ⟨f, uses, known, rest⟩ := upheld.upholds entry old
    exact ⟨f, uses, registered known, rest⟩
  · obtain ⟨id, known⟩ := List.mem_iff_getElem?.mp (upheld.sound.registered g under)
    obtain rfl : g.file.id = id := upheld.numbered id g.file known
    exact ⟨g.file, uses, registered known, rfl, rfl, Answer.symbols_ofBind g.bind uses,
      ended g uses under seen⟩

/-- What is stored is upheld by every change of a cache and its model. -/
theorem Upheld.change (upheld : ws.Upheld x) (change : ws.binder.Change x y) : ws.Upheld y := by
  cases change with
  | event e ends =>
    refine upheld.step e ?_
    intro g uses _ seen
    exact absurd (Cache.ended_step seen) (ends g.bind (some uses))
  | @bound c m b g found =>
    obtain ⟨edits, quiet, led⟩ := quiet_bindAll false g.file m (ws.bindingsOf g.file.path)
    have edited : (ws.binder g.file m).2 = m.editAll edits := led
    rw [← Cache.step_land_snd, edited]
    refine (upheld.editAll quiet).step _ ?_
    intro g' uses under seen
    obtain ⟨bind, same⟩ := CacheEvent.land.inj (Cache.ended_step seen)
    obtain rfl : g = g' := by
      rw [bind, Cache.flight?_of_mem upheld.sound.distinct under] at found
      exact (Option.some.inj found).symm
    have bound : (ws.binder g.file m).1 = .ok uses := by
      cases outcome : (ws.binder g.file m).1 with
      | error e =>
        rw [outcome] at same
        cases same
      | ok uses' =>
        rw [outcome] at same
        exact congrArg Except.ok (Option.some.inj same)
    exact edited ▸ serves_of_bindAll upheld.orderly bound

theorem upheld_new (parsed : parse disk base content = .ok ws) :
    ws.Upheld (.new ws.files, ws.model) :=
  ⟨Cache.sound_new ws.files, (anchored_of_parse parsed).numbered, orderly_of_parse parsed,
    fun _ stored => absurd stored List.not_mem_nil⟩

end Workspace

/-! ## Edits between the events of a session -/

/-- What comes next: an event of a session, or an edit of its model by somebody else. -/
inductive SessionTurn where
  | event (e : SessionEvent)
  | edit (e : ModelEdit)
  deriving Repr, DecidableEq

namespace Session

def turn (s : Session) : SessionTurn → Session
  | .event e => (s.step e).2
  | .edit e => { s with model := s.model.edit e }

def turns (s : Session) (ts : List SessionTurn) : Session :=
  ts.foldl turn s

/-- Every edit is quiet when it comes. -/
def QuietTurns (s : Session) : List SessionTurn → Prop
  | [] => True
  | t :: ts => (∀ e, t = .edit e → s.model.Quiet e) ∧ (s.turn t).QuietTurns ts

theorem binder_turn (s : Session) (t : SessionTurn) : (s.turn t).binder = s.binder := by
  cases t with
  | event e => exact (changes_step s e).binder
  | edit e => rfl

theorem upheld_turn {s : Session} {ws : Workspace} {t : SessionTurn} (binder : s.binder = ws.binder)
    (quiet : ∀ e, t = .edit e → s.model.Quiet e)
    (upheld : ws.Upheld (s.provider.cache, s.model)) :
    ws.Upheld ((s.turn t).provider.cache, (s.turn t).model) := by
  cases t with
  | event e =>
    refine (changes_step s e).keeps (P := ws.Upheld) ?_ upheld
    intro x y change upheld
    exact upheld.change (binder ▸ change)
  | edit e =>
    have once : s.model.QuietHistory [e] := ⟨quiet e rfl, trivial⟩
    exact upheld.editAll once

theorem upheld_turns {s : Session} {ws : Workspace} {ts : List SessionTurn}
    (binder : s.binder = ws.binder) (quiet : s.QuietTurns ts)
    (upheld : ws.Upheld (s.provider.cache, s.model)) :
    ws.Upheld ((s.turns ts).provider.cache, (s.turns ts).model) := by
  induction ts generalizing s with
  | nil => exact upheld
  | cons t ts ih =>
    exact ih ((binder_turn s t).trans binder) quiet.2 (upheld_turn binder quiet.1 upheld)

end Session

/-! ## Use by use -/

/-- Two uses agree in a model of a universe: they have the same name, span and role, and elements
that are equal whichever of them is asked; for tags, both have the same position, value and printed
form. -/
structure SymbolUse.Agrees (u : Universe) (i : Nat) (stored fresh : SymbolUse) : Prop where
  name : stored.name = fresh.name
  span : stored.span = fresh.span
  role : stored.isDecl = fresh.isDecl
  equal : ∃ x y, stored.element = some x ∧ fresh.element = some y ∧
    (u.equal ⟨i, x⟩ ⟨i, y⟩).1 = true ∧ (u.equal ⟨i, y⟩ ⟨i, x⟩).1 = true
  tag : ∀ x, stored.element = some (.tag x) → ∃ y n, fresh.element = some (.tag y) ∧
    (u.get i).tagIndex? x = some n ∧ (u.get i).tagIndex? y = some n ∧
    (u.get i).tagConstant x = (u.get i).tagConstant y ∧
    (Element.tag x).render (u.get i) = (Element.tag y).render (u.get i)

namespace Workspace

/-- A served use agrees with itself. -/
theorem Serves.agrees {u : Universe} {i : Nat} (serves : Serves f m b use) (orderly : m.Orderly)
    (here : u.get i = m) : use.Agrees u i use := by
  obtain ⟨element, denotes, rfl⟩ := serves
  subst here
  have itself : (u.equal ⟨i, element⟩ ⟨i, element⟩).1 = true := by
    cases element with
    | tag uc =>
      obtain ⟨⟨place, found⟩, -⟩ := denotes.tag_listed orderly
      exact Universe.equal_tags rfl found found
    | _ => simp [Universe.equal]
  refine ⟨rfl, rfl, rfl, ⟨element, element, rfl, rfl, itself, itself⟩, ?_⟩
  intro uc tag
  obtain rfl := Option.some.inj tag
  have listed := ((u.get i).types.isSome_indexOf? uc).mpr (denotes.tag_listed orderly).2
  obtain ⟨n, position⟩ := Option.isSome_iff_exists.mp listed
  exact ⟨uc, n, rfl, position, position, rfl, rfl⟩

/-- In every session over a described workspace, with quiet edits of the model between the events of
the session, a stored answer agrees use by use with what a new bind of its version finds at any
time, and this bind finds something. -/
theorem stored_answers_agree_after_reordering (parsed : parse disk base content = .ok ws)
    (recorder : Recorder) (tracer : Tracer) (router : Router) {ts : List SessionTurn}
    (quiet : (Session.new (.new ws.files recorder tracer) ws.model ws.binder router).QuietTurns
      ts) :
    let s := (Session.new (.new ws.files recorder tracer) ws.model ws.binder router).turns ts
    ∀ entry ∈ s.provider.cache.entries, ∃ f uses,
      s.provider.cache.files.get? entry.file = some f ∧ f.path = entry.path ∧
      f.digest = entry.digest ∧ ws.binder f s.model = (.ok uses, s.model) ∧
      ∀ u i, u.get i = s.model → List.Forall₂ (SymbolUse.Agrees u i) entry.answer.symbols.uses
        (FileSymbols.ofUses uses).uses := by
  intro s entry stored
  have upheld := Session.upheld_turns (s := .new (.new ws.files recorder tracer) ws.model ws.binder
    router) rfl quiet (upheld_new parsed)
  obtain ⟨f, uses, known, path, digest, symbols, served⟩ := upheld.upholds entry stored
  refine ⟨f, uses, known, path, digest, bindAll_of_serves upheld.orderly served, ?_⟩
  intro u i here
  rw [symbols, List.forall₂_same]
  intro use member
  obtain ⟨n, bound, rfl⟩ := List.mem_iff_getElem.mp (List.mem_mergeSort.mp member)
  have serves := served.get (served.length_eq ▸ bound) bound
  exact serves.agrees upheld.orderly here

/-- A union with two cases, and a file with a use of the first tag. -/
def oneTagUsed : Bytes :=
  twoCases ++ text "[[file]]\npath = \"a\"\ncontent = \"A\"\n[[file.use]]\nref = \"U.Tags.A\"\n"

/-- The answer is stored, then a case is added and the case of the used tag is moved to the end. The
stored use is what a new bind finds, and its tag has the last position. -/
theorem stored_answers_agree_after_reordering_moved :
    let used : UnionCase := ⟨⟨0, 0⟩, 2, 8, .none⟩
    let ts : List SessionTurn := [.event (.query .cache .nop false .symbols 0),
      .edit (.add 8 1 .none), .edit (.move (some used) 2)]
    ∃ ws, parse (.empty []) [] oneTagUsed = .ok ws ∧
      let start := Session.new (.new ws.files (.new (.empty [])) .nop) ws.model ws.binder
        ⟨.marks, true⟩
      let s := start.turns ts
      start.QuietTurns ts ∧ s.model.tagIndex? used = some 2 ∧
      ∃ entry ∈ s.provider.cache.entries, ∃ f uses, ws.binder f s.model = (.ok uses, s.model) ∧
        entry.answer.symbols.uses.map (·.element) = [some (.tag used)] ∧
        List.Forall₂ (SymbolUse.Agrees (.single s.model) 0) entry.answer.symbols.uses
          (FileSymbols.ofUses uses).uses := by
  intro used ts
  let ws : Workspace := {
    path := []
    model := (Model.new 0).editAll [.name (text "U"), .register 1 .none, .name (text "A"),
      .add 8 2 .none, .name (text "B"), .add 8 3 .none]
    files := (FileSet.empty.add (text "a") (text "A") 0).2
    unions := [8]
    order := [0]
    bindings := [(text "a", [⟨text "U.Tags.A", ⟨0, 0, 1⟩, false⟩])] }
  have parsed : parse (.empty []) [] oneTagUsed = .ok ws := by decide +kernel
  refine ⟨ws, parsed, ?_⟩
  intro start s
  have quiet : start.QuietTurns ts := by
    refine ⟨by simp, ?_, ?_, trivial⟩
    · rintro e ⟨⟩
      change ∀ uc ∈ (start.turn _).model.types.cases 8, _
      decide +kernel
    · rintro e ⟨⟩
      trivial
  refine ⟨quiet, by decide +kernel, ?_⟩
  let use : SymbolUse := ⟨text "A", ⟨0, 0, 1⟩, some (.tag used), false⟩
  let entry : CacheEntry := ⟨text "a", 0, Sha256.digest (text "A"), .ofBind 0 [use]⟩
  have stored : entry ∈ s.provider.cache.entries := by decide +kernel
  obtain ⟨f, uses, -, -, -, bound, agree⟩ :=
    stored_answers_agree_after_reordering parsed (.new (.empty [])) .nop ⟨.marks, true⟩ quiet entry
      stored
  exact ⟨entry, stored, f, uses, bound, by decide +kernel, agree (.single s.model) 0 rfl⟩

end Workspace
end UnionAtlas
