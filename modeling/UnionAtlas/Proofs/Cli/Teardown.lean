import UnionAtlas.Cli.Run
import UnionAtlas.Proofs.Session.Recorded
import UnionAtlas.Proofs.Workspace.Steps

/-!
# The end of a job

A job notes phases and records events until its command is done. If the command succeeds, the
timings and the ring of the tracer are printed to the error stream; if it fails, only its message
is, and what was noted and recorded is lost. So no printed timing ever belongs to a phase that
failed.
-/

namespace UnionAtlas

/-! ## Phases -/

namespace Timer

/-- The names and the notes of the phases. -/
def log (t : Timer) : List (Bytes × Bytes) :=
  t.phases.map fun p => (p.name, p.note)

theorem log_record (t : Timer) (name : Bytes) (duration : Nanos) (failed : Bool) :
    (t.record name duration failed).log =
      t.log ++ [(name, if failed then failedNote else [])] := by
  have begun : ¬ (t.phases.length : Int) < 0 := by omega
  have last (p : Phase) (f : Phase → Phase) :
      (t.phases ++ [p]).modify t.phases.length f = t.phases ++ [f p] :=
    List.modifyTailIdx_add (List.modifyHead f) 0 t.phases [p]
  simp only [record, start, stop, begun, if_false, Int.toNat_natCast, last, log, List.map_append,
    List.map_cons, List.map_nil]

/-- Without notes the summary has one line for each phase and one for the total. -/
theorem summary_of_log {t : Timer} {names : List Bytes} (log : t.log = names.map (·, [])) :
    t.phases.map (·.name) = names ∧
      t.summary = text "timings:\n"
        ++ t.phases.flatMap (fun p => line p.name p.duration ++ text "\n")
        ++ line (text "total") t.total ++ text "\n" := by
  constructor
  · have first := congrArg (List.map Prod.fst) log
    simpa [Timer.log, Function.comp_def] using first
  · have plain : ∀ p ∈ t.phases, p.note = [] := by
      intro p member
      have noted := List.mem_map_of_mem (f := fun p : Phase => (p.name, p.note)) member
      rw [← Timer.log, log] at noted
      obtain ⟨name, -, same⟩ := List.mem_map.mp noted
      exact (Prod.mk.inj same).2.symm
    have lines : t.phases.flatMap (fun p => line p.name p.duration
          ++ (if p.note = [] then [] else text "  (" ++ p.note ++ text ")") ++ text "\n") =
        t.phases.flatMap fun p => line p.name p.duration ++ text "\n" := by
      apply List.flatMap_congr
      intro p member
      rw [if_pos (plain p member), List.append_nil]
    rw [summary, lines]

end Timer

namespace Cli

variable {s : Surroundings} {c : Command} {p : Parsed} {j j' j'' job : Job}

/-- The phases of a command that succeeds. -/
def Command.phaseNames (c : Command) (p : Parsed) : List Bytes :=
  match c with
  | .tags => [text "load workspace"]
  | .symbols =>
    if p.isOn "warm" then [text "load workspace", text "warm", text "resolve"]
    else [text "load workspace", text "resolve"]
  | .handle =>
    if (p.get? "decode").getD [] ≠ [] then [text "load workspace", text "decode"]
    else [text "load workspace", text "round-trip"]
  | .version => []

/-! ## Commands -/

/-- The later job is the earlier one after some phases, given with their notes. -/
structure Leads (j j' : Job) (log : List (Bytes × Bytes)) : Prop where
  records : ∃ begun, Recorder.Continues j.recorder j'.recorder begun
  tracer : j'.tracer = j.tracer
  span : j'.span = j.span
  timings : j'.timings = j.timings
  log : j'.timer.log = j.timer.log ++ log

theorem Leads.trans {log more : List (Bytes × Bytes)} (first : Leads j j' log)
    (second : Leads j' j'' more) : Leads j j'' (log ++ more) := by
  obtain ⟨begun, records⟩ := first.records
  obtain ⟨begun', records'⟩ := second.records
  refine ⟨⟨begun + begun', records.trans records'⟩, second.tracer.trans first.tracer,
    second.span.trans first.span, second.timings.trans first.timings, ?_⟩
  rw [second.log, first.log, List.append_assoc]

/-- A job that goes on without a phase. -/
theorem Leads.silently {log : List (Bytes × Bytes)} (first : Leads j j' log)
    (second : Leads j' j'' []) : Leads j j'' log :=
  List.append_nil log ▸ first.trans second

/-- The job records something. -/
theorem leads_recorder {recorder : Recorder} {begun : Nat}
    (records : Recorder.Continues j.recorder recorder begun) : Leads j { j with recorder } [] :=
  ⟨⟨begun, records⟩, rfl, rfl, rfl, (List.append_nil _).symm⟩

theorem leads_print (j : Job) (bs : Bytes) : Leads j (j.print bs) [] :=
  ⟨⟨0, .refl _⟩, rfl, rfl, rfl, (List.append_nil _).symm⟩

theorem leads_phase (j : Job) (name : String) :
    Leads j (j.phase name false) [(text name, [])] :=
  ⟨⟨0, .refl _⟩, rfl, rfl, rfl, Timer.log_record _ _ _ _⟩

theorem leads_beginInner (j : Job) (scope : EventScope) (name : Bytes) :
    Leads j (j.beginInner scope name).2 [] :=
  leads_recorder (Recorder.continues_beginSpan _ _ _ _ _)

theorem leads_endNoted (j : Job) (span : SpanRef) (key : String) (value : Nat) :
    Leads j (j.endNoted span key value) [] :=
  leads_recorder ((Recorder.continues_annotate _ _ _ _).trans (Recorder.continues_endSpan _ _ _))

theorem leads_loadWorkspace {path : Bytes} {ws : Workspace}
    (loaded : j.loadWorkspace path = (.ok ws, j')) :
    Leads j j' [(text "load workspace", [])] := by
  simp only [Job.loadWorkspace] at loaded
  split at loaded
  · cases loaded
  · obtain ⟨-, rfl⟩ := Prod.mk.inj loaded
    have begun := leads_beginInner j .provider (text "load workspace")
    have noted := begun.trans (leads_phase _ "load workspace")
    exact noted.silently (leads_endNoted _ _ _ _)

theorem leads_runTags {args : List Bytes} (done : runTags args j = (.ok (), j')) :
    Leads j j' [(text "load workspace", [])] := by
  simp only [runTags] at done
  split at done
  · cases done
  · next ws loaded =>
    have first := leads_loadWorkspace loaded
    split at done
    · obtain ⟨-, rfl⟩ := Prod.mk.inj done
      exact first.silently (leads_print _ _)
    · obtain ⟨-, rfl⟩ := Prod.mk.inj done
      exact first.silently (leads_print _ _)

theorem leads_printSymbols (j : Job) (m : Model) (kind : FileKind) (symbols : FileSymbols) :
    Leads j (printSymbols j m kind symbols) [] := by
  unfold printSymbols
  split
  · split <;> exact leads_print _ _
  · exact leads_print _ _

theorem records_askSymbols (session : Session) (caller : Tracer) (id : FileId) :
    session.Records (askSymbols session caller id).2 := by
  have asked := Session.records_query session .router caller false .symbols id
  unfold askSymbols
  simp only
  split <;> exact asked

theorem leads_runSymbols {args : List Bytes} {warm : Bool}
    (done : runSymbols args warm j = (.ok (), j')) :
    Leads j j' ([(text "load workspace", [])] ++ (if warm then [(text "warm", [])] else [])
      ++ [(text "resolve", [])]) := by
  simp only [runSymbols] at done
  split at done
  · cases done
  · next ws j₁ loaded =>
    have first := leads_loadWorkspace loaded
    split at done
    · cases done
    · next file found =>
      set start := Session.new (.new ws.files j₁.recorder j₁.tracer) ws.model ws.binder
        ⟨.endings j₁.config.miscEndings, true⟩
      -- Whatever is asked for before, the job goes on with the recorder of the session.
      generalize result : (if warm then _ else _ : Session × Job × Bool) = afterWarm at done
      obtain ⟨session, j₂, failed⟩ := afterWarm
      have warmed : failed = false → Leads j₁ { j₂ with recorder := session.provider.recorder }
          (if warm then [(text "warm", [])] else []) := by
        intro succeeded
        cases warm with
        | false =>
          simp only [Bool.false_eq_true, if_false, Prod.mk.injEq] at result
          obtain ⟨rfl, rfl, -⟩ := result
          exact leads_recorder (.refl _)
        | true =>
          simp only [if_true, Prod.mk.injEq] at result
          obtain ⟨rfl, rfl, same⟩ := result
          rw [same, succeeded]
          obtain ⟨begun, records⟩ :=
            Session.records_warm start j₁.tracer false ws.order j₁.config.warmJobs
          exact (leads_phase j₁ "warm").silently (leads_recorder records)
      split at done
      · cases done
      · next alive =>
        have second := first.trans (warmed (Bool.eq_false_iff.mpr alive))
        obtain ⟨begun, records⟩ := records_askSymbols session j₂.tracer file
        have third := (second.trans (leads_phase _ "resolve")).silently (leads_recorder records)
        have shown (bs : Bytes) (m : Model) (kind : FileKind) (symbols : FileSymbols) :=
          (third.silently (leads_print _ bs)).silently (leads_printSymbols _ m kind symbols)
        split at done
        · obtain ⟨-, rfl⟩ := Prod.mk.inj done
          exact shown _ _ _ _
        · obtain ⟨-, rfl⟩ := Prod.mk.inj done
          exact (shown _ _ _ _).silently (leads_recorder (Recorder.continues_instant _ _ _ _ _ _))

theorem leads_showHandle {ws : Workspace} {written : Bytes}
    (done : showHandle ws written j = (.ok (), j')) : Leads j j' [(text "decode", [])] := by
  simp only [showHandle] at done
  split at done
  · cases done
  · obtain ⟨-, rfl⟩ := Prod.mk.inj done
    exact (leads_phase j "decode").silently (leads_print _ _)

theorem leads_makeHandle {ws : Workspace} {written : Bytes}
    (done : makeHandle ws written j = (.ok (), j')) : Leads j j' [(text "round-trip", [])] := by
  simp only [makeHandle] at done
  split at done
  · cases done
  · split at done
    · cases done
    · split at done
      · cases done
      · obtain ⟨-, rfl⟩ := Prod.mk.inj done
        have begun (name : Bytes) :=
          (leads_beginInner j .session name).trans (leads_phase _ "round-trip")
        exact ((begun _).silently (leads_endNoted _ _ _ _)).silently (leads_print _ _)

theorem leads_runHandle {args : List Bytes} {decode : Bytes}
    (done : runHandle args decode j = (.ok (), j')) :
    Leads j j' [(text "load workspace", []),
      (if decode ≠ [] then text "decode" else text "round-trip", [])] := by
  simp only [runHandle] at done
  split at done
  · cases done
  · next ws j₁ loaded =>
    have first := leads_loadWorkspace loaded
    by_cases given : decode ≠ []
    · rw [if_pos given] at done ⊢
      exact first.trans (leads_showHandle done)
    · rw [if_neg given] at done ⊢
      split at done
      · exact first.trans (leads_makeHandle done)
      · cases done

theorem leads_runVersion {b : Build} {format : Bytes}
    (done : runVersion b format j = (.ok (), j')) : Leads j j' [] := by
  simp only [runVersion] at done
  split at done
  · obtain ⟨-, rfl⟩ := Prod.mk.inj done
    exact leads_print _ _
  · split at done
    · obtain ⟨-, rfl⟩ := Prod.mk.inj done
      exact leads_print _ _
    · cases done

/-- A command that succeeds has had its phases, and none of them failed. -/
theorem leads_runBody (done : runBody s c p j = (.ok (), j')) :
    Leads j j' ((c.phaseNames p).map (·, [])) := by
  cases c with
  | tags => exact leads_runTags done
  | symbols =>
    have shown := leads_runSymbols done
    by_cases warm : p.isOn "warm" = true
    · rw [if_pos warm] at shown
      rw [Command.phaseNames, if_pos warm]
      exact shown
    · rw [if_neg warm] at shown
      rw [Command.phaseNames, if_neg warm]
      exact shown
  | handle =>
    have shown := leads_runHandle done
    by_cases given : (p.get? "decode").getD [] ≠ []
    · rw [if_pos given] at shown
      rw [Command.phaseNames, if_pos given]
      exact shown
    · rw [if_neg given] at shown
      rw [Command.phaseNames, if_neg given]
      exact shown
  | version => exact leads_runVersion done

/-! ## Beginning and end -/

/-- A job begins without phases; in ring mode its tracer is a ring, unless nothing is traced. -/
theorem start_ok (started : Job.start s c p = .ok job) :
    job.timer = .new ∧ job.timings = p.isOn "timings" ∧
      ∀ config trace, Job.configOf s.disk p = .ok config → Job.traceOf config p = .ok trace →
        trace.mode = .ring → trace.level ≠ .off → (job.recorder.ringOf? job.tracer).isSome := by
  unfold Job.start at started
  obtain ⟨config, settings, started⟩ := ok_of_bind started
  obtain ⟨useColor, -, started⟩ := ok_of_bind started
  obtain ⟨trace, tracing, started⟩ := ok_of_bind started
  obtain ⟨⟨tracer, recorder⟩, made, started⟩ := ok_of_bind started
  obtain rfl := Except.ok.inj started
  refine ⟨rfl, rfl, ?_⟩
  intro config' trace' settings' tracing' ring on
  obtain rfl := Except.ok.inj (settings.symm.trans settings')
  obtain rfl := Except.ok.inj (tracing.symm.trans tracing')
  have begun := Recorder.continues_beginSpan recorder tracer .session
    (program ++ text " " ++ c.name) 0
  have first : (recorder.ringOf? tracer).isSome := by
    simp only [Recorder.newTracer, if_neg on, ring] at made
    obtain ⟨rfl, rfl⟩ := Prod.mk.inj (Except.ok.inj made)
    rfl
  exact (begun.isSome_ringOf? tracer).trans first

/-- A ring is printed and not flushed. -/
theorem closing_of_ring {r : Recorder} {t : Tracer} {ring : Ring} (found : r.ringOf? t = some ring) :
    (Job.closing r t).1 = ring.dump .lines := by
  cases t with
  | nop => cases found
  | fan ident level outlets => cases found
  | single i =>
    have outlet : ∃ level, r.outlets[i]? = some (.ring level ring) := by
      simp only [Recorder.ringOf?] at found
      split at found
      · next level other here =>
        obtain rfl := Option.some.inj found
        exact ⟨level, here⟩
      · cases found
    obtain ⟨level, here⟩ := outlet
    have untouched (action : Writer → Except WriterError Unit × Writer) :
        Recorder.onWriters action r (.single i) = (.ok (), r) := by
      simp only [Recorder.onWriters, Recorder.outletsOf, List.foldl_cons, List.foldl_nil,
        Recorder.onWriter, here]
    simp only [Job.closing, found, Recorder.flush, Recorder.close, untouched, Option.map_some,
      Option.getD_some, List.append_nil]

/-- A command that fails prints its message to the error stream and nothing else. A command that
succeeds prints its timings if they are wanted, with one line for each of its phases, and after
them what its tracer leaves behind: in ring mode, unless nothing is traced, every event that the
ring holds at the end. -/
theorem teardown_after_success_only {words : List Bytes} (asked : parse words = .ok (.run c p))
    (started : Job.start s c p = .ok job) :
    (∀ e j, runBody s c p job = (.error e, j) →
      (run s words).ok = false ∧ (run s words).err = text "Error: " ++ e.message ++ text "\n") ∧
    ∀ j, runBody s c p job = (.ok (), j) →
      (run s words).ok = true ∧ ∃ timings left, (run s words).err = timings ++ left ∧
        (p.isOn "timings" = false → timings = []) ∧
        (p.isOn "timings" = true →
          j.timer.phases.map (·.name) = c.phaseNames p ∧
          timings = text "timings:\n"
            ++ j.timer.phases.flatMap (fun p => Timer.line p.name p.duration ++ text "\n")
            ++ Timer.line (text "total") j.timer.total ++ text "\n") ∧
        ∀ config trace, Job.configOf s.disk p = .ok config → Job.traceOf config p = .ok trace →
          trace.mode = .ring → trace.level ≠ .off →
          ∃ ring, (j.recorder.endSpan j.span []).ringOf? j.tracer = some ring ∧
            left = ring.events.flatMap (Event.render .lines) := by
  constructor
  · intro e j failed
    simp only [run, asked, runCommand, started, failed]
    exact ⟨rfl, rfl⟩
  · intro j done
    obtain ⟨new, timings, traced⟩ := start_ok started
    have leads := leads_runBody done
    have log := leads.log
    rw [new] at log
    obtain ⟨names, summary⟩ := Timer.summary_of_log log
    have report : run s words = ⟨true, j.finish.2.out, j.finish.1, j.finish.2.recorder.errorText,
        j.finish.2.recorder.disk⟩ := by
      simp only [run, asked, runCommand, started, done]
    rw [report]
    refine ⟨rfl, if j.timings then j.timer.summary else [],
      (Job.closing (j.recorder.endSpan j.span []) j.tracer).1, rfl, ?_, ?_, ?_⟩
    · intro off
      rw [leads.timings, timings, off]
      rfl
    · intro on
      rw [leads.timings, timings, on]
      exact ⟨names, summary⟩
    · intro config trace settings tracing mode level
      obtain ⟨begun, records⟩ := leads.records
      have kept := records.trans (Recorder.continues_endSpan j.recorder j.span [])
      have some : ((j.recorder.endSpan j.span []).ringOf? j.tracer).isSome := by
        rw [leads.tracer, kept.isSome_ringOf?]
        exact traced config trace settings tracing mode level
      obtain ⟨ring, found⟩ := Option.isSome_iff_exists.mp some
      exact ⟨ring, found, closing_of_ring found⟩

/-- A directory with a workspace file of one union without cases. -/
def besideEmptyUnion : Surroundings where
  disk := ⟨[], [([text "w"], .file (text "[[union]]\nname = \"U\"\n"))]⟩
  build := ⟨[], []⟩
  now := ⟨0, 0, 0⟩
  elapsed _ := 0

/-- A command line that traces phases into a ring and wants timings. -/
def tracedTags : List Bytes :=
  ["--timings", "--trace-level", "phase", "--trace-mode", "ring", "tags", "w"].map text

/-- A command line that traces failures into a ring and wants timings; what it gives to decode has
no digits. -/
def tracedDecode : List Bytes :=
  ["--timings", "--trace-level", "error", "--trace-mode", "ring", "handle", "--decode", "zz",
    "w"].map text

/-- The switches and arguments of the second command line. -/
def tracedDecodeParsed : Parsed :=
  ⟨[(text "decode", text "zz"), (text "trace-mode", text "ring"),
    (text "trace-level", text "error"), (text "timings", text "true")], [text "w"]⟩

theorem parse_tracedDecode : parse tracedDecode = .ok (.run .handle tracedDecodeParsed) := by
  decide +kernel

/-- The failure that the second command records, as a ring is printed. -/
def tracedFailure : Bytes :=
  text "#1     session  ! decode handle (invalid handle: encoding/hex: invalid byte: "
    ++ text "U+007A 'z')\n"

/-- The timings of the second command, one phase of which failed. -/
def failedTimings : Bytes :=
  text "timings:\n  load workspace      0.000 ms\n"
    ++ text "  decode              0.000 ms  (failed)\n  total               0.000 ms\n"

/-- The second command fails, and leaves a failure in the ring and a failed phase. -/
theorem start_tracedDecode :
    ∃ job, Job.start besideEmptyUnion .handle tracedDecodeParsed = .ok job ∧
      let done := runBody besideEmptyUnion .handle tracedDecodeParsed job
      done.1 = .error (.hex (.invalidByte 0x7A)) ∧
      ((done.2.recorder.endSpan done.2.span []).ringOf? done.2.tracer).map (·.dump .lines) =
        some tracedFailure ∧
      done.2.timer.summary = failedTimings := by
  have shown : (Job.start besideEmptyUnion .handle tracedDecodeParsed).map (fun job =>
      let done := runBody besideEmptyUnion .handle tracedDecodeParsed job
      (done.1, ((done.2.recorder.endSpan done.2.span []).ringOf? done.2.tracer).map (·.dump .lines),
        done.2.timer.summary)) =
      .ok (.error (.hex (.invalidByte 0x7A)), some tracedFailure, failedTimings) := by
    decide +kernel
  obtain ⟨job, started, same⟩ := ok_of_map shown
  obtain ⟨failed, rest⟩ := Prod.mk.inj same
  obtain ⟨ring, timings⟩ := Prod.mk.inj rest
  exact ⟨job, started, failed, ring, timings⟩

/-- The first command succeeds, and all that it recorded is printed; the second one fails. -/
theorem teardown_after_success_only_traced :
    (∃ (j : Job) (ring : Ring), (run besideEmptyUnion tracedTags).ok = true ∧
      j.timer.phases.map (·.name) = [text "load workspace"] ∧
      (run besideEmptyUnion tracedTags).err = text "timings:\n"
          ++ j.timer.phases.flatMap (fun p => Timer.line p.name p.duration ++ text "\n")
          ++ Timer.line (text "total") j.timer.total ++ text "\n"
        ++ ring.events.flatMap (Event.render .lines)) ∧
    (run besideEmptyUnion tracedDecode).err =
      text "Error: invalid handle: encoding/hex: invalid byte: U+007A 'z'\n" := by
  constructor
  · let p : Parsed := ⟨[(text "trace-mode", text "ring"), (text "trace-level", text "phase"),
      (text "timings", text "true")], [text "w"]⟩
    have asked : parse tracedTags = .ok (.run .tags p) := by decide +kernel
    have body : (Job.start besideEmptyUnion .tags p).map (fun job =>
        (runBody besideEmptyUnion .tags p job).1) = .ok (.ok ()) := by
      decide +kernel
    obtain ⟨job, started, body⟩ := ok_of_map body
    rcases result : runBody besideEmptyUnion .tags p job with ⟨outcome, j⟩
    rw [result] at body
    obtain rfl : outcome = .ok () := body
    obtain ⟨ok, timings, left, err, -, on, traced⟩ :=
      (teardown_after_success_only asked started).2 j result
    obtain ⟨names, rfl⟩ := on (by decide +kernel)
    have settings : Job.configOf besideEmptyUnion.disk p = .ok .default := by decide +kernel
    have tracing : Job.traceOf .default p = .ok ⟨.phase, .ring, .auto, text "-", 4096⟩ := by
      decide +kernel
    obtain ⟨ring, -, rfl⟩ := traced _ _ settings tracing rfl (by decide)
    exact ⟨j, ring, ok, names, err⟩
  · obtain ⟨job, started, failed, -⟩ := start_tracedDecode
    have result := teardown_after_success_only parse_tracedDecode started
    rw [(result.1 _ _ (Prod.ext failed rfl)).2]
    decide +kernel

/-- When a command fails, neither the events that its ring holds nor its timings are printed. -/
theorem not_teardown_after_failure :
    (¬ ∀ s words c p job config trace, parse words = .ok (.run c p) → Job.start s c p = .ok job →
      Job.configOf s.disk p = .ok config → Job.traceOf config p = .ok trace →
      trace.mode = .ring → trace.level ≠ .off →
      let j := (runBody s c p job).2
      ∃ ring, (j.recorder.endSpan j.span []).ringOf? j.tracer = some ring ∧
        ring.events.flatMap (Event.render .lines) <:+: (run s words).err) ∧
    ¬ ∀ s words c p job, parse words = .ok (.run c p) → Job.start s c p = .ok job →
      p.isOn "timings" = true →
      (runBody s c p job).2.timer.summary <:+: (run s words).err := by
  obtain ⟨job, started, -, dump, summary⟩ := start_tracedDecode
  have message : (run besideEmptyUnion tracedDecode).err =
      text "Error: invalid handle: encoding/hex: invalid byte: U+007A 'z'\n" := by
    decide +kernel
  constructor
  · intro printed
    have settings : Job.configOf besideEmptyUnion.disk tracedDecodeParsed = .ok .default := by
      decide +kernel
    have tracing : Job.traceOf .default tracedDecodeParsed =
        .ok ⟨.error, .ring, .auto, text "-", 4096⟩ := by
      decide +kernel
    obtain ⟨ring, found, inside⟩ := printed _ _ _ _ job _ _ parse_tracedDecode started settings
      tracing rfl (by decide)
    rw [found] at dump
    have events : ring.events.flatMap (Event.render .lines) = tracedFailure :=
      Option.some.inj dump
    rw [events, message] at inside
    exact absurd inside.length_le (by decide +kernel)
  · intro printed
    have inside := printed _ _ _ _ job parse_tracedDecode started (by decide +kernel)
    rw [summary, message] at inside
    exact absurd inside.length_le (by decide +kernel)

end Cli
end UnionAtlas
