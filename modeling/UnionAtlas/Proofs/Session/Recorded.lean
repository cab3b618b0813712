import UnionAtlas.Proofs.Trace.Recording
import UnionAtlas.Symbols.Session

/-!
# What a session records

The provider begins one span for each bind that it starts and the session one for each warm-up. All
else that they record is events, so where events go stays the same for the whole session.
-/

namespace UnionAtlas

open Recorder (Continues continues_instant continues_endSpan)

namespace Provider

variable {p : Provider}

/-- The number of spans that a query begins. -/
def spansOf : QueryOutcome → Nat
  | .started _ _ => 1
  | _ => 0

theorem continues_query (p : Provider) (caller : Tracer) (id : FileId) :
    Continues p.recorder (p.query caller id).2.2.recorder (spansOf (p.query caller id).2.1) := by
  unfold query
  obtain ⟨q, outcome, cache⟩ := p.cache.query id
  cases outcome with
  | unknown => exact continues_instant _ _ _ _ _ _
  | hit f a => exact continues_instant _ _ _ _ _ _
  | started f b => exact Recorder.continues_beginSpan _ _ _ _ _
  | joined f b => exact .refl _

theorem continues_cancel (p : Provider) (caller : Tracer) (q : QueryId) (path : Bytes) :
    Continues p.recorder (p.cancel caller q path).recorder 0 :=
  continues_instant _ _ _ _ _ _

theorem continues_recordLanding (r : Recorder) (s : BindSpan) (l : Landing)
    (outcome : Except BindError (List SymbolUse)) :
    Continues r (recordLanding r s l outcome) 0 := by
  cases outcome with
  | error e => exact (continues_endSpan r s.span _).trans (continues_instant _ _ _ _ _ _)
  | ok uses =>
    have size := Recorder.continues_annotate r s.span (text "uses")
      (Bytes.decimal l.answer.symbols.size)
    have stored := size.trans
      (Recorder.continues_annotate _ s.span (text "stored") (Bytes.truth l.stored))
    exact stored.trans (continues_endSpan _ s.span [])

theorem continues_land (p : Provider) (b : BindId)
    (outcome : Except BindError (List SymbolUse)) :
    Continues p.recorder (p.land b outcome).2.recorder 0 := by
  unfold land
  simp only
  split
  · exact continues_recordLanding _ _ _ _
  · exact .refl _

theorem continues_runBind (p : Provider) (m : Model) (binder : Binder) (b : BindId) :
    Continues p.recorder (p.runBind m binder b).2.1.recorder 0 := by
  unfold runBind
  split
  · exact .refl _
  · exact continues_land p b _

theorem continues_invalidate (p : Provider) : Continues p.recorder p.invalidate.recorder 0 :=
  continues_instant _ _ _ _ _ _

theorem continues_invalidateFile (p : Provider) (id : FileId) :
    Continues p.recorder (p.invalidateFile id).recorder 0 := by
  unfold invalidateFile
  split
  · exact .refl _
  · exact continues_instant _ _ _ _ _ _

end Provider

namespace Session

/-- The recorder of the later session continues that of the earlier one. -/
def Records (s s' : Session) : Prop :=
  ∃ begun, Continues s.provider.recorder s'.provider.recorder begun

variable {s s' s'' : Session}

theorem Records.refl (s : Session) : Records s s :=
  ⟨0, .refl _⟩

theorem Records.trans (first : Records s s') (second : Records s' s'') : Records s s'' := by
  obtain ⟨begun, first⟩ := first
  obtain ⟨more, second⟩ := second
  exact ⟨begun + more, first.trans second⟩

theorem records_ask (s : Session) (caller : Tracer) (id : FileId) :
    Records s (s.ask caller id).2 := by
  have asked := Provider.continues_query s.provider caller id
  rcases result : s.provider.query caller id with ⟨q, outcome, provider⟩
  rw [result] at asked
  simp only [ask, result]
  cases outcome with
  | unknown => exact ⟨_, asked⟩
  | hit f a => exact ⟨_, asked⟩
  | joined f b => exact ⟨_, asked⟩
  | started f b =>
    simp only
    split
    · exact ⟨_, asked⟩
    · have landed := Provider.continues_runBind provider s.model s.binder b
      split
      · exact ⟨_, asked.trans landed⟩
      · exact ⟨_, asked.trans landed⟩

theorem records_query (s : Session) (way : Route) (caller : Tracer) (cancelled : Bool)
    (question : Question) (id : FileId) :
    Records s (s.query way caller cancelled question id).2 := by
  have asked := records_ask { s with tasks := s.tasks + 1 } caller id
  unfold query
  simp only
  split
  · split
    · next same => rw [same] at asked; exact asked
    · next same =>
      rw [same] at asked
      split
      · exact asked.trans ⟨0, Provider.continues_cancel _ _ _ _⟩
      · exact asked
  · exact .refl s

theorem records_advance (s : Session) (w : Warming) (todo : List FileId) :
    Records s (s.advance w todo).2 := by
  induction todo generalizing s w with
  | nil => exact .refl s
  | cons id todo ih =>
    have asked := records_ask s w.caller id
    unfold advance
    split
    · exact .refl s
    · split
      · split
        · next same => rw [same] at asked; exact asked.trans (ih _ _)
        · next same => rw [same] at asked; exact asked.trans (ih _ _)
      · exact .refl s

theorem records_resume (s : Session) (w : Warming) : Records s (s.resume w) := by
  have advanced := records_advance s w w.todo
  unfold resume
  simp only
  split
  · exact advanced.trans ⟨0, continues_endSpan _ _ _⟩
  · exact advanced

theorem records_warm (s : Session) (caller : Tracer) (cancelled : Bool) (ids : List FileId)
    (jobs : Int) : Records s (s.warm caller cancelled ids jobs).2 := by
  let start := s.provider.recorder.beginSpan (s.provider.tracerFor caller) .provider (text "warm") 0
  have begun : Continues s.provider.recorder start.2 1 := Recorder.continues_beginSpan _ _ _ _ _
  have noted := begun.trans
    (Recorder.continues_annotate _ start.1 (text "files") (Bytes.decimal ids.length))
  exact Records.trans ⟨_, noted⟩ (records_resume _ _)

end Session
end UnionAtlas
