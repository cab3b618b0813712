import UnionAtlas.Symbols.Provider
import UnionAtlas.Symbols.Router

/-!
# Sessions

A session runs any number of queries and warm-ups side by side over one provider. While its gate is
on, a bind stops before it begins and goes on only when it is released; while it is off, a bind runs
to its end at once. Tasks are numbered in the order they are begun, and a task whose answer is known
is listed as finished until the list is collected.

A warm-up asks for a list of files with at most a given number of queries waiting at any time. Once
its caller has gone away it asks for nothing more, and fails if something was left to ask for.
-/

namespace UnionAtlas

/-- The number of a query or a warm-up, in the order they were begun. -/
abbrev TaskId := Nat

/-- What a task came to. -/
inductive TaskResult where
  | answer (question : Question) (answer : Answer)
  | warmed
  /-- The caller went away before everything was asked for. -/
  | warmCancelled
  deriving Repr, DecidableEq

/-- The message of a warm-up whose caller went away. -/
def warmCancelledMessage : Bytes := text "warm resolved symbols: context canceled"

/-- A query that waits. -/
structure PendingQuery where
  query : QueryId
  path : Bytes
  deriving Repr, DecidableEq

/-- A warm-up under way. -/
structure Warming where
  task : TaskId
  caller : Tracer
  span : SpanRef
  /-- How many queries may wait at a time. -/
  limit : Nat
  /-- What is still to be asked for. -/
  todo : List FileId
  waiting : List PendingQuery
  cancelled : Bool
  /-- Was something left to ask for when the caller went away? -/
  failed : Bool
  deriving Repr, DecidableEq

/-- A query of a task of its own that waits. -/
structure Asking where
  task : TaskId
  caller : Tracer
  question : Question
  pending : PendingQuery
  deriving Repr, DecidableEq

/-- The state of a session. -/
structure Session where
  provider : Provider
  model : Model
  binder : Binder
  router : Router
  gate : Bool
  /-- The number of tasks begun. -/
  tasks : Nat
  asking : List Asking
  warming : List Warming
  /-- What finished since the list was last collected. -/
  finished : List (TaskId × TaskResult)

namespace Session

/-- A session in which nothing happened yet; its gate is off. -/
def new (provider : Provider) (model : Model) (binder : Binder) (router : Router) : Session :=
  ⟨provider, model, binder, router, false, 0, [], [], []⟩

/-- Lists a task as finished. -/
def finish (s : Session) (task : TaskId) (result : TaskResult) : Session :=
  { s with finished := s.finished ++ [(task, result)] }

/-- What a query came to: an answer, or the wait for one. -/
inductive Asked where
  | answered (a : Answer)
  | waits (p : PendingQuery)
  deriving Repr, DecidableEq

/-- Asks the provider. If the query starts a bind and the gate is off, the bind runs to its end. -/
def ask (s : Session) (caller : Tracer) (id : FileId) : Asked × Session :=
  let (q, outcome, provider) := s.provider.query caller id
  let s := { s with provider }
  match outcome with
  | .unknown => (.answered .empty, s)
  | .hit _ a => (.answered a, s)
  | .joined f _ => (.waits ⟨q, f.path⟩, s)
  | .started f b =>
    if s.gate then (.waits ⟨q, f.path⟩, s)
    else
      let (landing?, provider, model) := s.provider.runBind s.model s.binder b
      let s := { s with provider, model }
      match landing? with
      | none => (.waits ⟨q, f.path⟩, s)
      | some l => (.answered l.answer, s)

/-- Makes a waiting query wait no more. -/
def cancelQuery (s : Session) (caller : Tracer) (p : PendingQuery) : Session :=
  { s with provider := s.provider.cancel caller p.query p.path }

/-- Begins a query. The query of a caller that has already gone away waits for nothing. -/
def query (s : Session) (way : Route) (caller : Tracer) (cancelled : Bool) (question : Question)
    (id : FileId) : TaskId × Session :=
  let task := s.tasks
  let s := { s with tasks := s.tasks + 1 }
  if way.reaches s.router s.provider.cache.files id then
    match s.ask caller id with
    | (.answered a, s) => (task, s.finish task (.answer question a))
    | (.waits p, s) =>
      if cancelled then (task, (s.cancelQuery caller p).finish task (.answer question .empty))
      else (task, { s with asking := s.asking ++ [⟨task, caller, question, p⟩] })
  else (task, s.finish task (.answer question .empty))

/-- Lets a warm-up ask for as much as it may. -/
def advance (s : Session) (w : Warming) : List FileId → Warming × Session
  | [] => ({ w with todo := [] }, s)
  | id :: todo =>
    if w.cancelled then ({ w with todo := [], failed := true }, s)
    else if w.waiting.length < w.limit then
      match s.ask w.caller id with
      | (.answered _, s) => s.advance w todo
      | (.waits p, s) => s.advance { w with waiting := w.waiting ++ [p] } todo
    else ({ w with todo := id :: todo }, s)

/-- The result of a warm-up that has nothing more to do. -/
def warmResult (w : Warming) : TaskResult :=
  if w.failed then .warmCancelled else .warmed

/-- Lets a warm-up go on, and ends it if nothing is left. -/
def resume (s : Session) (w : Warming) : Session :=
  let (w, s) := s.advance w w.todo
  if w.todo.isEmpty && w.waiting.isEmpty then
    let recorder := s.provider.recorder.endSpan w.span []
    { s with provider := { s.provider with recorder } }.finish w.task (warmResult w)
  else { s with warming := s.warming ++ [w] }

/-- Begins a warm-up. At least one query may wait at a time. -/
def warm (s : Session) (caller : Tracer) (cancelled : Bool) (ids : List FileId) (jobs : Int) :
    TaskId × Session :=
  let task := s.tasks
  let p := s.provider
  let (span, recorder) :=
    p.recorder.beginSpan (p.tracerFor caller) .provider (text "warm") 0
  let recorder := recorder.annotate span (text "files") (Bytes.decimal ids.length)
  let s := { s with tasks := s.tasks + 1, provider := { p with recorder } }
  (task, s.resume
    { task, caller, span, limit := max 1 jobs.toNat, todo := ids, waiting := [], cancelled,
      failed := false })

/-- Hands an answer to a query that waited for it. -/
def deliver (a : Answer) (s : Session) (q : QueryId) : Session :=
  match s.asking.find? (·.pending.query == q) with
  | some k =>
    { s with asking := s.asking.filter (·.pending.query != q) }.finish k.task
      (.answer k.question a)
  | none =>
    match s.warming.find? (·.waiting.any (·.query == q)) with
    | some w =>
      { s with warming := s.warming.filter (·.task != w.task) }.resume
        { w with waiting := w.waiting.filter (·.query != q) }
    | none => s

/-- Lets a bind that stopped at the gate go on; false if there is none with that number. -/
def release (s : Session) (b : BindId) : Bool × Session :=
  match s.provider.runBind s.model s.binder b with
  | (none, _, _) => (false, s)
  | (some l, provider, model) =>
    (true, l.flight.waiters.foldl (deliver l.answer) { s with provider, model })

/-- The caller of a task goes away. -/
def cancel (s : Session) (task : TaskId) : Session :=
  match s.asking.find? (·.task == task) with
  | some k =>
    ({ s with asking := s.asking.filter (·.task != task) }.cancelQuery k.caller k.pending).finish
      task (.answer k.question .empty)
  | none =>
    match s.warming.find? (·.task == task) with
    | some w =>
      let s := { s with warming := s.warming.filter (·.task != task) }
      let s := w.waiting.foldl (fun s p => s.cancelQuery w.caller p) s
      s.resume { w with waiting := [], cancelled := true }
    | none => s

/-- Switches the gate. -/
def setGate (s : Session) (on : Bool) : Session :=
  { s with gate := on }

/-- Adds a version of a path. -/
def addFile (s : Session) (path content : Bytes) (flags : FileFlags) : FileId × Session :=
  let (id, cache) := s.provider.cache.addFile path content flags
  (id, { s with provider := { s.provider with cache } })

/-- Forgets everything that is stored, if the notice reaches the cache. -/
def invalidate (s : Session) (way : Route) : Session :=
  if way.notifies s.router then { s with provider := s.provider.invalidate } else s

/-- Forgets what is stored for the path of a file, if the notice reaches the cache. -/
def invalidateFile (s : Session) (way : Route) (id : FileId) : Session :=
  if way.notifies s.router then { s with provider := s.provider.invalidateFile id } else s

/-- The binds that wait at the gate. -/
def blocked (s : Session) : List BindId :=
  s.provider.cache.inFlight

/-- Takes the list of finished tasks, by number. -/
def collect (s : Session) : List (TaskId × TaskResult) × Session :=
  (s.finished.mergeSort fun a b => a.1 ≤ b.1, { s with finished := [] })

end Session
end UnionAtlas
