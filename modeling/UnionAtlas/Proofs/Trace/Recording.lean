import UnionAtlas.Trace.Recorder

/-!
# What recording leaves alone

Whatever is recorded, an outlet stays what it is: a ring or a stream, with its level and its form.
A span is begun by beginning one and by nothing else, so the number of a span tells how many were
begun before it.
-/

namespace UnionAtlas

/-- An outlet without what was recorded: its level, and the form in which a stream writes. -/
def Outlet.shape : Outlet → TraceLevel × Option TraceFormat
  | .ring level _ => (level, none)
  | .stream level format _ => (level, some format)

namespace Recorder

variable {r r' r'' : Recorder} {begun more : Nat}

/-- The outlets are as they were, and some spans were begun. -/
structure Continues (r r' : Recorder) (begun : Nat) : Prop where
  shapes : r'.outlets.map Outlet.shape = r.outlets.map Outlet.shape
  spans : r'.spans.length = r.spans.length + begun

theorem Continues.refl (r : Recorder) : Continues r r 0 :=
  ⟨rfl, rfl⟩

theorem Continues.trans (first : Continues r r' begun) (second : Continues r' r'' more) :
    Continues r r'' (begun + more) :=
  ⟨second.shapes.trans first.shapes, by rw [second.spans, first.spans, Nat.add_assoc]⟩

/-- A ring stays a ring. -/
theorem Continues.isSome_ringOf? (continues : Continues r r' begun) (t : Tracer) :
    (r'.ringOf? t).isSome = (r.ringOf? t).isSome := by
  have shown (r : Recorder) (i : Nat) : (r.ringOf? (.single i)).isSome =
      (((r.outlets.map Outlet.shape)[i]?).map (·.2.isNone)).getD false := by
    rw [List.getElem?_map]
    cases here : r.outlets[i]? with
    | none => simp [ringOf?, here]
    | some o => cases o <;> simp [ringOf?, here, Outlet.shape]
  cases t with
  | nop => rfl
  | single i => rw [shown, shown, continues.shapes]
  | fan ident level outlets => rfl

/-- A level is what it was. -/
theorem Continues.level (continues : Continues r r' begun) (t : Tracer) :
    r'.level t = r.level t := by
  have levels (r : Recorder) (i : Nat) :
      r.level (.single i) = (((r.outlets.map Outlet.shape)[i]?).map (·.1)).getD .off := by
    rw [Recorder.level, List.getElem?_map, Option.map_map]
    congr 2
    funext o
    cases o <;> rfl
  cases t with
  | nop => rfl
  | single i => rw [levels, levels, continues.shapes]
  | fan ident level outlets => rfl

theorem continues_of_set {i : Nat} {o : Outlet} (o' : Outlet) (here : r.outlets[i]? = some o)
    (same : o'.shape = o.shape) (spans : r'.spans = r.spans)
    (outlets : r'.outlets = r.outlets.set i o') : Continues r r' 0 := by
  refine ⟨?_, by rw [spans]; rfl⟩
  obtain ⟨bound, known⟩ := List.getElem?_eq_some_iff.mp here
  rw [outlets, List.map_set, same, ← known]
  apply List.ext_getElem?
  intro p
  by_cases at_i : i = p
  · subst at_i
    simp [bound]
  · rw [List.getElem?_set_ne at_i]

/-! ## Events -/

theorem continues_nextSeq (r : Recorder) : Continues r r.nextSeq.2 0 :=
  ⟨rfl, rfl⟩

theorem continues_write (r : Recorder) (w : Writer) (bs : Bytes) :
    (r.write w bs).2.outlets = r.outlets ∧ (r.write w bs).2.spans = r.spans := by
  unfold write
  split
  · split <;> exact ⟨rfl, rfl⟩
  · split <;> exact ⟨rfl, rfl⟩
  · exact ⟨rfl, rfl⟩

theorem continues_numbered (r : Recorder) (e : Event) :
    (r.numbered e).2.outlets = r.outlets ∧ (r.numbered e).2.spans = r.spans := by
  unfold numbered
  split <;> exact ⟨rfl, rfl⟩

theorem continues_deliver (r : Recorder) (i : Nat) (e : Event) :
    Continues r (r.deliver i e).2 0 := by
  unfold deliver
  split
  · exact .refl r
  · next o here =>
    obtain ⟨outlets, spans⟩ := continues_numbered r e
    split
    · cases o with
      | ring level ring =>
        refine continues_of_set (.ring level (ring.push (r.numbered e).1)) here rfl ?_ ?_
        · exact spans
        · exact congrArg (List.set · i _) outlets
      | stream level format writer =>
        obtain ⟨outlets', spans'⟩ :=
          continues_write (r.numbered e).2 writer ((r.numbered e).1.render format)
        refine continues_of_set (.stream level format
          ((r.numbered e).2.write writer ((r.numbered e).1.render format)).1) here rfl ?_ ?_
        · exact spans'.trans spans
        · exact congrArg (List.set · i _) (outlets'.trans outlets)
    · exact .refl r

theorem continues_emit (r : Recorder) (t : Tracer) (e : Event) : Continues r (r.emit t e).2 0 := by
  cases t with
  | nop => exact .refl r
  | single i =>
    have stored := continues_deliver r i e
    unfold emit
    simp only
    split <;> exact stored
  | fan ident level outlets =>
    change Continues r (outlets.foldl (fun r i => (r.deliver i e).2) r) 0
    induction outlets generalizing r with
    | nil => exact .refl r
    | cons i rest ih => exact (continues_deliver r i e).trans (ih _)

theorem continues_instant (r : Recorder) (t : Tracer) (kind : EventKind) (scope : EventScope)
    (name detail : Bytes) : Continues r (r.instant t kind scope name detail) 0 := by
  unfold instant
  split
  · exact (continues_nextSeq r).trans (continues_emit _ t _)
  · exact .refl r

/-! ## Spans -/

theorem beginSpan_fst (r : Recorder) (t : Tracer) (scope : EventScope) (name : Bytes)
    (parent : UInt64) : (r.beginSpan t scope name parent).1 = r.spans.length := by
  unfold beginSpan
  split <;> rfl

theorem continues_beginSpan (r : Recorder) (t : Tracer) (scope : EventScope) (name : Bytes)
    (parent : UInt64) : Continues r (r.beginSpan t scope name parent).2 1 := by
  unfold beginSpan
  split
  · have told := continues_emit r.nextSpanId.2.nextSeq.2 t
      { time := r.now, seq := r.nextSpanId.2.nextSeq.1, kind := .spanBegin, scope,
        span := r.nextSpanId.1, parent, name, detail := [], notes := [] }
    refine ⟨told.shapes, ?_⟩
    have count : (r.nextSpanId.2.nextSeq.2.emit t _).2.spans.length = r.spans.length := told.spans
    simp only [List.length_append, List.length_singleton]
    exact congrArg (· + 1) count
  · exact ⟨rfl, List.length_append⟩

theorem continues_mapStored (r : Recorder) (f : Event → Event) :
    Continues r (r.mapStored f) 0 := by
  refine ⟨?_, rfl⟩
  rw [mapStored, List.map_map]
  apply List.map_congr_left
  intro o _
  cases o <;> rfl

theorem continues_annotate (r : Recorder) (ref : SpanRef) (key value : Bytes) :
    Continues r (r.annotate ref key value) 0 := by
  unfold annotate
  split
  · exact .refl r
  · next s known =>
    split
    · have noted (s : TraceSpan) : Continues r { r with spans := r.spans.set ref s } 0 :=
        ⟨rfl, List.length_set⟩
      exact (noted _).trans (continues_mapStored _ _)
    · exact .refl r

theorem continues_endSpan (r : Recorder) (ref : SpanRef) (detail : Bytes) :
    Continues r (r.endSpan ref detail) 0 := by
  unfold endSpan
  split
  · exact .refl r
  · next s known =>
    split
    · exact (continues_nextSeq r).trans (continues_emit _ s.tracer _)
    · exact .refl r

/-! ## Other spans and the clock -/

variable {ref ref' : SpanRef}

theorem undisturbed_deliver (r : Recorder) (i : Nat) (e : Event) :
    (r.deliver i e).2.spans = r.spans ∧ (r.deliver i e).2.now = r.now := by
  have now_write (r : Recorder) (w : Writer) (bs : Bytes) : (r.write w bs).2.now = r.now := by
    unfold write
    split
    · split <;> rfl
    · split <;> rfl
    · rfl
  have now_numbered : (r.numbered e).2.now = r.now := by
    unfold numbered
    split <;> rfl
  have spans_numbered := (continues_numbered r e).2
  unfold deliver
  split
  · exact ⟨rfl, rfl⟩
  · next o here =>
    split
    · cases o with
      | ring level ring => exact ⟨spans_numbered, now_numbered⟩
      | stream level format writer =>
        exact ⟨(continues_write _ _ _).2.trans spans_numbered, (now_write _ _ _).trans now_numbered⟩
    · exact ⟨rfl, rfl⟩

theorem undisturbed_emit (r : Recorder) (t : Tracer) (e : Event) :
    (r.emit t e).2.spans = r.spans ∧ (r.emit t e).2.now = r.now := by
  cases t with
  | nop => exact ⟨rfl, rfl⟩
  | single i =>
    have stored := undisturbed_deliver r i e
    unfold emit
    simp only
    split <;> exact stored
  | fan ident level outlets =>
    change (outlets.foldl (fun r i => (r.deliver i e).2) r).spans = r.spans ∧
      (outlets.foldl (fun r i => (r.deliver i e).2) r).now = r.now
    induction outlets generalizing r with
    | nil => exact ⟨rfl, rfl⟩
    | cons i rest ih =>
      obtain ⟨spans, now⟩ := undisturbed_deliver r i e
      exact ⟨(ih _).1.trans spans, (ih _).2.trans now⟩

@[simp] theorem spans_instant (r : Recorder) (t : Tracer) (kind : EventKind) (scope : EventScope)
    (name detail : Bytes) : (r.instant t kind scope name detail).spans = r.spans := by
  unfold instant
  split
  · exact (undisturbed_emit _ _ _).1
  · rfl

@[simp] theorem now_instant (r : Recorder) (t : Tracer) (kind : EventKind) (scope : EventScope)
    (name detail : Bytes) : (r.instant t kind scope name detail).now = r.now := by
  unfold instant
  split
  · exact (undisturbed_emit _ _ _).2
  · rfl

@[simp] theorem spans_endSpan (r : Recorder) (ref : SpanRef) (detail : Bytes) :
    (r.endSpan ref detail).spans = r.spans := by
  unfold endSpan
  split
  · rfl
  · split
    · exact (undisturbed_emit _ _ _).1
    · rfl

@[simp] theorem now_endSpan (r : Recorder) (ref : SpanRef) (detail : Bytes) :
    (r.endSpan ref detail).now = r.now := by
  unfold endSpan
  split
  · rfl
  · split
    · exact (undisturbed_emit _ _ _).2
    · rfl

@[simp] theorem now_beginSpan (r : Recorder) (t : Tracer) (scope : EventScope) (name : Bytes)
    (parent : UInt64) : (r.beginSpan t scope name parent).2.now = r.now := by
  unfold beginSpan
  split
  · exact (undisturbed_emit _ _ _).2
  · rfl

/-- A span that is begun comes after all others. -/
theorem spans_beginSpan (r : Recorder) (t : Tracer) (scope : EventScope) (name : Bytes)
    (parent : UInt64) : ∃ s, (r.beginSpan t scope name parent).2.spans = r.spans ++ [s] := by
  unfold beginSpan
  split
  · exact ⟨_, congrArg (· ++ [_]) (undisturbed_emit _ _ _).1⟩
  · exact ⟨_, rfl⟩

@[simp] theorem now_annotate (r : Recorder) (ref : SpanRef) (key value : Bytes) :
    (r.annotate ref key value).now = r.now := by
  unfold annotate
  split
  · rfl
  · split <;> rfl

theorem spans_annotate_of_ne (other : ref' ≠ ref) (r : Recorder) (key value : Bytes) :
    (r.annotate ref key value).spans[ref']? = r.spans[ref']? := by
  unfold annotate
  split
  · rfl
  · split
    · exact List.getElem?_set_ne other.symm
    · rfl

end Recorder
end UnionAtlas
