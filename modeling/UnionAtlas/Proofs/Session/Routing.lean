import UnionAtlas.Proofs.Session.Events
import UnionAtlas.Proofs.Text.Endings

/-!
# Questions and notices through the router

The router sends questions about project files to the cache, and answers all others itself without
symbols. Notices reach the cache whatever file they are about. So whatever happens in a session
that goes through the router also happens in one that goes straight to the cache, in which nobody
is asked about the files outside the project.
-/

namespace UnionAtlas

/-- The file is outside the project: it is unknown, it is marked, or the ending of its path is
listed, in any case. -/
inductive Outside (c : Classifier) (files : FileSet) (id : FileId) : Prop
  | unknown : files.get? id = none → Outside c files id
  | marked {f : SourceFile} : files.get? id = some f → f.isMisc = true → Outside c files id
  | ending {f : SourceFile} {listed : List Bytes} {entry ending : Bytes} :
      files.get? id = some f → c = .endings listed → entry ∈ listed → Path.EndsIn f.path ending →
      lowerCase entry = lowerCase ending → Outside c files id

namespace Router

variable {r : Router} {files : FileSet} {id : FileId}

theorem kind_eq_misc_iff : r.kind files id = .misc ↔ Outside r.classifier files id := by
  unfold kind Classifier.kind
  cases known : files.get? id with
  | none => exact ⟨fun _ => .unknown known, fun _ => rfl⟩
  | some f =>
    dsimp only
    by_cases marked : f.isMisc = true
    · rw [if_pos marked]
      exact ⟨fun _ => .marked known marked, fun _ => rfl⟩
    rw [if_neg marked]
    cases sorted : r.classifier with
    | marks =>
      refine ⟨fun same => (nomatch same), fun outside => ?_⟩
      cases outside with
      | unknown absent => cases known.symm.trans absent
      | marked known' marked' =>
        obtain rfl := Option.some.inj (known.symm.trans known')
        exact absurd marked' marked
      | ending _ listing => cases listing
    | endings listed =>
      have listed_iff : (listed.map lowerCase).contains (lowerCase (Path.suffix f.path)) = true ↔
          ∃ entry ∈ listed, lowerCase entry = lowerCase (Path.suffix f.path) := by
        rw [List.contains_iff_mem, List.mem_map]
      dsimp only
      rw [ite_eq_left_iff, Bool.not_eq_true, ← Bool.not_eq_true, listed_iff]
      constructor
      · intro here
        by_contra inside
        have absent : ¬ ∃ entry ∈ listed, lowerCase entry = lowerCase (Path.suffix f.path) := by
          rintro ⟨entry, member, same⟩
          exact inside (.ending known rfl member (Path.suffix_eq_iff.mp rfl) same)
        cases here absent
      · rintro outside absent
        cases outside with
        | unknown none => cases known.symm.trans none
        | marked known' marked' =>
          obtain rfl := Option.some.inj (known.symm.trans known')
          exact absurd marked' marked
        | ending known' listing member ends same =>
          obtain rfl := Option.some.inj (known.symm.trans known')
          obtain rfl := Classifier.endings.inj listing
          exact absurd ⟨_, member, same.trans (congrArg lowerCase (Path.suffix_eq_iff.mpr ends).symm)⟩
            absent

theorem kind_eq_project_iff : r.kind files id = .project ↔ ¬ Outside r.classifier files id := by
  rw [← kind_eq_misc_iff]
  cases r.kind files id <;> simp

instance (r : Router) (files : FileSet) (id : FileId) :
    Decidable (Outside r.classifier files id) :=
  decidable_of_iff _ kind_eq_misc_iff

theorem toCache_iff : r.toCache files id = true ↔
    r.hasProject = true ∧ ¬ Outside r.classifier files id := by
  rw [toCache, Bool.and_eq_true, decide_eq_true_iff, kind_eq_project_iff]

end Router

/-- The way that an event takes, if it is a question or a notice. -/
def SessionEvent.way? : SessionEvent → Option Route
  | .query way _ _ _ _ => some way
  | .invalidate way => some way
  | .invalidateFile way _ => some way
  | _ => none

namespace Session

variable (s : Session)

/-- Is the file one whose questions the router sends to the cache? -/
def Projected (id : FileId) : Prop :=
  s.router.hasProject = true ∧ ¬ Outside s.router.classifier s.provider.cache.files id

instance (id : FileId) : Decidable (s.Projected id) :=
  inferInstanceAs (Decidable (_ ∧ _))

/-- The session after a task that is answered without symbols and without asking anybody. -/
def answeredEmpty (question : Question) : TaskId × Session :=
  (s.tasks, { s with
    tasks := s.tasks + 1
    finished := s.finished ++ [(s.tasks, .answer question .empty)] })

/-- The same event without the router: it goes straight to the cache, or to nobody. -/
def direct : SessionEvent → SessionEvent
  | .query .router caller cancelled question id =>
    .query (if s.Projected id then .cache else .nobody) caller cancelled question id
  | .invalidate .router => .invalidate (if s.router.hasProject then .cache else .nobody)
  | .invalidateFile .router id =>
    .invalidateFile (if s.router.hasProject then .cache else .nobody) id
  | e => e

/-- The same events without the router. Where an event goes is decided by the files of its time. -/
def directs (s : Session) : List SessionEvent → List SessionEvent
  | [] => []
  | e :: es => s.direct e :: (s.step e).2.directs es

theorem query_nobody (caller : Tracer) (cancelled : Bool) (question : Question) (id : FileId) :
    s.query .nobody caller cancelled question id = s.answeredEmpty question :=
  rfl

/-- Only whether the cache is reached matters of the way that a question takes. -/
theorem query_of_reaches {way way' : Route} {id : FileId}
    (same : way.reaches s.router s.provider.cache.files id =
      way'.reaches s.router s.provider.cache.files id)
    (caller : Tracer) (cancelled : Bool) (question : Question) :
    s.query way caller cancelled question id = s.query way' caller cancelled question id := by
  simp only [query, same]

theorem query_router (caller : Tracer) (cancelled : Bool) (question : Question) (id : FileId) :
    s.query .router caller cancelled question id =
      s.query (if s.Projected id then .cache else .nobody) caller cancelled question id := by
  apply query_of_reaches
  have sent : s.router.toCache s.provider.cache.files id = true ↔ s.Projected id :=
    Router.toCache_iff
  by_cases inside : s.Projected id
  · rw [if_pos inside]
    exact sent.mpr inside
  · rw [if_neg inside]
    exact eq_false_of_ne_true fun reaches => inside (sent.mp reaches)

theorem notifies_router (r : Router) :
    Route.router.notifies r = (if r.hasProject then Route.cache else .nobody).notifies r := by
  unfold Route.notifies
  cases r.hasProject <;> rfl

theorem perform_direct (e : SessionEvent) : s.perform (s.direct e) = s.perform e := by
  cases e with
  | query way caller cancelled question id =>
    cases way with
    | router => exact congrArg Prod.snd (s.query_router caller cancelled question id).symm
    | _ => rfl
  | invalidate way =>
    cases way with
    | router => simp only [direct, perform, invalidate, ← notifies_router]
    | _ => rfl
  | invalidateFile way id =>
    cases way with
    | router => simp only [direct, perform, invalidateFile, ← notifies_router]
    | _ => rfl
  | _ => rfl

theorem run_directs (s : Session) (es : List SessionEvent) : s.run (s.directs es) = s.run es := by
  induction es generalizing s with
  | nil => rfl
  | cons e es ih =>
    have same : s.step (s.direct e) = s.step e := by rw [step, perform_direct, step]
    rw [directs, run, same, ih, run]

theorem moments_directs (s : Session) (es : List SessionEvent) :
    s.moments (s.directs es) = s.moments es := by
  induction es generalizing s with
  | nil => rfl
  | cons e es ih =>
    have same : s.step (s.direct e) = s.step e := by rw [step, perform_direct, step]
    rw [directs, moments, same, ih, moments]

theorem way?_direct (e : SessionEvent) : (s.direct e).way? ≠ some .router := by
  have other {p : Prop} [Decidable p] : (if p then Route.cache else .nobody) ≠ .router := by
    split <;> simp
  unfold direct SessionEvent.way?
  grind

theorem way?_directs (s : Session) (es : List SessionEvent) :
    ∀ e ∈ s.directs es, e.way? ≠ some .router := by
  induction es generalizing s with
  | nil => simp [directs]
  | cons e es ih => exact List.forall_mem_cons.mpr ⟨s.way?_direct e, ih _⟩

/-- Without a cache behind it, the router keeps everything from the provider. -/
theorem provider_perform_of_no_project {e : SessionEvent} (way : e.way? = some .router)
    (alone : s.router.hasProject = false) : (s.perform e).provider = s.provider := by
  rw [← perform_direct]
  cases e with
  | query way' caller cancelled question id =>
    obtain rfl : way' = .router := Option.some.inj way
    have outside : ¬ s.Projected id := fun inside =>
      Bool.false_ne_true (alone.symm.trans inside.1)
    rw [direct, if_neg outside]
    rfl
  | invalidate way' =>
    obtain rfl : way' = .router := Option.some.inj way
    rw [direct, alone]
    rfl
  | invalidateFile way' id =>
    obtain rfl : way' = .router := Option.some.inj way
    rw [direct, alone]
    rfl
  | _ => cases way

/-- A question that goes through the router has the result and the effect of the same question to
the cache, if its file is inside the project; otherwise it is answered without symbols, and nothing
else happens. Notices through the router are notices to the cache, whatever the file. A file is
a project file exactly when the cache serves it. Without a cache the router touches none. So a whole
session goes on as it does without a router. -/
theorem router_exact (s : Session) :
    (∀ caller cancelled question id,
      s.query .router caller cancelled question id =
        if s.Projected id then s.query .cache caller cancelled question id
        else s.answeredEmpty question) ∧
    (s.router.hasProject = true →
      s.invalidate .router = s.invalidate .cache ∧
      ∀ id, s.invalidateFile .router id = s.invalidateFile .cache id ∧
        (s.router.kind s.provider.cache.files id = .project ↔
          Route.router.reaches s.router s.provider.cache.files id = true)) ∧
    (s.router.hasProject = false →
      ∀ e, e.way? = some .router → (s.perform e).provider = s.provider) ∧
    ∀ es, (∀ e ∈ s.directs es, e.way? ≠ some .router) ∧ s.run (s.directs es) = s.run es ∧
      s.moments (s.directs es) = s.moments es := by
  refine ⟨?_, ?_, fun alone e way => s.provider_perform_of_no_project way alone, fun es =>
    ⟨s.way?_directs es, s.run_directs es, s.moments_directs es⟩⟩
  · intro caller cancelled question id
    rw [query_router]
    split
    · rfl
    · exact s.query_nobody caller cancelled question id
  · intro project
    have opened : Route.router.notifies s.router = Route.cache.notifies s.router := project
    refine ⟨by rw [invalidate, opened, invalidate], fun id => ⟨?_, ?_⟩⟩
    · rw [invalidateFile, opened, invalidateFile]
    · rw [Route.reaches, Router.toCache_iff, Router.kind_eq_project_iff, and_iff_right project]

/-- An ending counts in any case, but not in the name of a directory: of three files only the second
is inside the project. -/
theorem router_exact_endings :
    let files := (((FileSet.empty.add (text "a.b/x.y.gen") [] 0).2.add
      (text "a.GEN/x") (text "w") 0).2.add (text "m") [] FileFlags.misc).2
    let s (project : Bool) := new (.new files (.new (.empty [])) .nop) (.new 0) wordBinder
      ⟨.endings [text ".Gen"], project⟩
    let ask (way : Route) (id : FileId) := (s true).query way .nop false .symbols id
    ask .router 0 = (s true).answeredEmpty .symbols ∧ ask .router 1 = ask .cache 1 ∧
      (ask .router 1).2.provider.cache.counts.misses = 1 ∧
      ask .router 2 = (s true).answeredEmpty .symbols ∧
      (s true).invalidateFile .router 2 = (s true).invalidateFile .cache 2 ∧
      ((s true).router.kind files 1 = .project ↔ Route.router.reaches (s true).router files 1) ∧
      ((s false).perform (.invalidateFile .router 1)).provider = (s false).provider := by
  intro files s ask
  obtain ⟨asks, notices, -⟩ := router_exact (s true)
  obtain ⟨-, -, alone, -⟩ := router_exact (s false)
  have first : ¬ (s true).Projected 0 := by decide +kernel
  have second : (s true).Projected 1 := by decide +kernel
  have third : ¬ (s true).Projected 2 := by decide +kernel
  have inside : ask .router 1 = ask .cache 1 := (asks _ _ _ _).trans (if_pos second)
  refine ⟨(asks _ _ _ _).trans (if_neg first), inside, ?_, (asks _ _ _ _).trans (if_neg third),
    ((notices rfl).2 2).1, ((notices rfl).2 1).2, alone rfl _ rfl⟩
  rw [inside]
  decide +kernel

end Session
end UnionAtlas
