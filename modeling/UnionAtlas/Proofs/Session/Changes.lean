import Mathlib.Logic.Relation
import UnionAtlas.Proofs.Session.History

/-!
# What a session does to its cache and its model

A session changes its model only when a bind ends, and then its cache changes with it: the cache is
handed what the binder finds in the model as it is at that moment. Every other change is one of the
cache alone. So what the two keep true of each other at every such change is true at all times,
whatever is asked, cancelled, warmed or invalidated meanwhile.
-/

namespace UnionAtlas

/-- One change of a cache and its model: an event that ends no bind, or the end of a bind with what
the binder finds now. -/
inductive Binder.Change (binder : Binder) : Cache × Model → Cache × Model → Prop
  | event {c : Cache} {m : Model} (e : CacheEvent) (ends : ∀ b uses?, e ≠ .land b uses?) :
      Change binder (c, m) ((c.step e).2, m)
  | bound {c : Cache} {m : Model} {b : BindId} {g : Flight} (found : c.flight? b = some g) :
      Change binder (c, m) ((c.land b (binder g.file m).1.toOption).2, (binder g.file m).2)

namespace Session

variable {s s' s'' : Session}

/-- The second session has the binder of the first, and its cache and model come from changes. -/
structure Changes (s s' : Session) : Prop where
  binder : s'.binder = s.binder
  path : Relation.ReflTransGen s.binder.Change (s.provider.cache, s.model)
    (s'.provider.cache, s'.model)

theorem Changes.refl (s : Session) : Changes s s :=
  ⟨rfl, .refl⟩

theorem Changes.trans (first : Changes s s') (second : Changes s' s'') : Changes s s'' :=
  ⟨second.binder.trans first.binder, first.path.trans (first.binder ▸ second.path)⟩

/-- Tasks, their answers and the recorder may change freely. -/
theorem changes_of_eq (cache : s'.provider.cache = s.provider.cache) (model : s'.model = s.model)
    (binder : s'.binder = s.binder) : Changes s s' := by
  refine ⟨binder, ?_⟩
  rw [cache, model]

theorem changes_event {e : CacheEvent} (ends : ∀ b uses?, e ≠ .land b uses?)
    (cache : s'.provider.cache = (s.provider.cache.step e).2) (model : s'.model = s.model)
    (binder : s'.binder = s.binder) : Changes s s' := by
  refine ⟨binder, ?_⟩
  rw [cache, model]
  exact .single (.event e ends)

theorem changes_runBind (s : Session) (b : BindId) :
    Changes s { s with
      provider := (s.provider.runBind s.model s.binder b).2.1
      model := (s.provider.runBind s.model s.binder b).2.2 } := by
  refine ⟨rfl, ?_⟩
  rw [Provider.runBind]
  cases found : s.provider.cache.flight? b with
  | none => exact .refl
  | some g => exact .single (.bound found)

theorem changes_ask (s : Session) (caller : Tracer) (id : FileId) :
    Changes s (s.ask caller id).2 := by
  have cache : (s.provider.query caller id).2.2.cache = (s.provider.cache.step (.query id)).2 := by
    rw [(s.provider.cache_query caller id).2.2, Cache.step_query_snd]
  have asked (provider : Provider) (same : provider = (s.provider.query caller id).2.2) :
      Changes s { s with provider } :=
    changes_event (e := .query id) (by simp) (same ▸ cache) rfl rfl
  unfold ask
  generalize s.provider.query caller id = x at asked ⊢
  obtain ⟨q, outcome, provider⟩ := x
  cases outcome with
  | started f b =>
    dsimp only
    by_cases gate : s.gate = true
    · rw [if_pos gate]
      exact asked _ rfl
    · rw [if_neg gate]
      have ended := (asked provider rfl).trans (changes_runBind _ b)
      dsimp only at ended
      generalize provider.runBind s.model s.binder b = x at ended ⊢
      obtain ⟨landing?, p, m⟩ := x
      cases landing? <;> exact ended
  | _ => exact asked _ rfl

theorem changes_query (s : Session) (way : Route) (caller : Tracer) (cancelled : Bool)
    (question : Question) (id : FileId) :
    Changes s (s.query way caller cancelled question id).2 := by
  have begun : Changes s { s with tasks := s.tasks + 1 } := changes_of_eq rfl rfl rfl
  have asked := begun.trans (changes_ask { s with tasks := s.tasks + 1 } caller id)
  unfold query
  dsimp only
  by_cases reaches : way.reaches s.router s.provider.cache.files id
  · rw [if_pos reaches]
    generalize Session.ask { s with tasks := s.tasks + 1 } caller id = x at asked ⊢
    obtain ⟨_ | p, t⟩ := x
    · exact asked.trans (changes_of_eq rfl rfl rfl)
    · cases cancelled with
      | true =>
        exact asked.trans (changes_event (e := .cancel p.query) (by simp) rfl rfl rfl)
      | false => exact asked.trans (changes_of_eq rfl rfl rfl)
  · rw [if_neg reaches]
    exact changes_of_eq rfl rfl rfl

theorem changes_advance (s : Session) (w : Warming) (todo : List FileId) :
    Changes s (s.advance w todo).2 := by
  induction todo generalizing s w with
  | nil => exact .refl s
  | cons id todo ih =>
    have asked := changes_ask s w.caller id
    unfold advance
    split
    · exact .refl s
    · split
      · generalize s.ask w.caller id = x at asked ⊢
        obtain ⟨_ | p, t⟩ := x
        · exact asked.trans (ih t w)
        · exact asked.trans (ih t _)
      · exact .refl s

theorem changes_resume (s : Session) (w : Warming) : Changes s (s.resume w) := by
  have advanced := changes_advance s w w.todo
  unfold resume
  dsimp only
  split
  · exact advanced.trans (changes_of_eq rfl rfl rfl)
  · exact advanced.trans (changes_of_eq rfl rfl rfl)

theorem changes_deliver (s : Session) (a : Answer) (q : QueryId) : Changes s (s.deliver a q) := by
  unfold deliver
  cases s.asking.find? (·.pending.query == q) with
  | some k => exact changes_of_eq rfl rfl rfl
  | none =>
    cases s.warming.find? (·.waiting.any (·.query == q)) with
    | some w =>
      have parked : Changes s { s with warming := s.warming.filter (·.task != w.task) } :=
        changes_of_eq rfl rfl rfl
      exact parked.trans (changes_resume _ _)
    | none => exact .refl s

theorem changes_deliverAll (s : Session) (a : Answer) (owed : List QueryId) :
    Changes s (owed.foldl (deliver a) s) := by
  induction owed generalizing s with
  | nil => exact .refl s
  | cons q owed ih => exact (changes_deliver s a q).trans (ih _)

theorem changes_release (s : Session) (b : BindId) : Changes s (s.release b).2 := by
  have ended := changes_runBind s b
  unfold release
  generalize s.provider.runBind s.model s.binder b = x at ended ⊢
  obtain ⟨_ | l, p, m⟩ := x
  · exact .refl s
  · exact ended.trans (changes_deliverAll _ _ _)

theorem changes_cancelQueries (s : Session) (caller : Tracer) (waiting : List PendingQuery) :
    Changes s (waiting.foldl (fun s p => s.cancelQuery caller p) s) := by
  induction waiting generalizing s with
  | nil => exact .refl s
  | cons p waiting ih =>
    have first : Changes s (s.cancelQuery caller p) :=
      changes_event (e := .cancel p.query) (by simp) rfl rfl rfl
    exact first.trans (ih _)

theorem changes_cancel (s : Session) (task : TaskId) : Changes s (s.cancel task) := by
  unfold cancel
  cases s.asking.find? (·.task == task) with
  | some k => exact changes_event (e := .cancel k.pending.query) (by simp) rfl rfl rfl
  | none =>
    cases s.warming.find? (·.task == task) with
    | some w =>
      have parked : Changes s { s with warming := s.warming.filter (·.task != task) } :=
        changes_of_eq rfl rfl rfl
      exact (parked.trans (changes_cancelQueries _ _ _)).trans (changes_resume _ _)
    | none => exact .refl s

/-- Whatever happens in a session is a number of changes. -/
theorem changes_perform (s : Session) (e : SessionEvent) : Changes s (s.perform e) := by
  cases e with
  | add path content flags =>
    exact changes_event (e := .add path content flags) (by simp) rfl rfl rfl
  | query way caller cancelled question id => exact changes_query s way caller cancelled question id
  | warm caller cancelled ids jobs =>
    have opened : Changes s (s.openWarm caller cancelled ids jobs).2 := changes_of_eq rfl rfl rfl
    exact opened.trans (changes_resume _ _)
  | gate on => exact changes_of_eq rfl rfl rfl
  | release b => exact changes_release s b
  | cancel task => exact changes_cancel s task
  | invalidate way =>
    simp only [perform, invalidate]
    split
    · exact changes_event (e := .invalidate) (by simp) rfl rfl rfl
    · exact .refl s
  | invalidateFile way id =>
    simp only [perform, invalidateFile]
    split
    · exact changes_event (e := .invalidateFile id) (by simp) (Provider.cache_invalidateFile _ _)
        rfl rfl
    · exact .refl s
  | look => exact .refl s

/-- What every change keeps true of the cache and the model is true after every event. -/
theorem Changes.keeps (changes : Changes s s') {P : Cache × Model → Prop}
    (kept : ∀ {x y}, s.binder.Change x y → P x → P y) (holds : P (s.provider.cache, s.model)) :
    P (s'.provider.cache, s'.model) := by
  have path := changes.path
  generalize (s'.provider.cache, s'.model) = after at path ⊢
  induction path with
  | refl => exact holds
  | tail _ last ih => exact kept last ih

theorem changes_step (s : Session) (e : SessionEvent) : Changes s (s.step e).2 :=
  (changes_perform s e).trans (changes_of_eq rfl rfl rfl)

end Session
end UnionAtlas
