import UnionAtlas.Proofs.Cache.SingleFlight
import UnionAtlas.Symbols.Session

/-!
# Events of a session

A session is driven by events: versions are added, queries and warm-ups are begun, the gate is
switched, binds are released, callers go away, and invalidations arrive. After each event the list
of finished tasks is collected, and with the stored answers, the counters and the binds at the gate
it is all that is seen of the moment. What an event does to the cache is a run of the cache.
-/

namespace UnionAtlas

/-- What can happen in a session. -/
inductive SessionEvent where
  | add (path content : Bytes) (flags : FileFlags)
  | query (way : Route) (caller : Tracer) (cancelled : Bool) (question : Question) (id : FileId)
  | warm (caller : Tracer) (cancelled : Bool) (ids : List FileId) (jobs : Int)
  | gate (on : Bool)
  | release (bind : BindId)
  | cancel (task : TaskId)
  | invalidate (way : Route)
  | invalidateFile (way : Route) (id : FileId)
  /-- Something is read, as the kind of a file or what was recorded. -/
  | look
  deriving Repr, DecidableEq

/-- What is seen of a session after an event. -/
structure Moment where
  /-- The tasks that finished since the moment before, by number. -/
  done : List (TaskId × TaskResult)
  entries : List CacheEntry
  generation : Nat
  counts : CacheCounts
  /-- The binds that wait at the gate. -/
  blocked : List BindId
  deriving Repr, DecidableEq

namespace Session

/-- The session after an event, before the list of finished tasks is collected. -/
def perform (s : Session) : SessionEvent → Session
  | .add path content flags => (s.addFile path content flags).2
  | .query way caller cancelled question id => (s.query way caller cancelled question id).2
  | .warm caller cancelled ids jobs => (s.warm caller cancelled ids jobs).2
  | .gate on => s.setGate on
  | .release b => (s.release b).2
  | .cancel task => s.cancel task
  | .invalidate way => s.invalidate way
  | .invalidateFile way id => s.invalidateFile way id
  | .look => s

/-- What is seen of a session. -/
def moment (s : Session) : Moment :=
  ⟨s.collect.1, s.provider.cache.entries, s.provider.cache.generation, s.provider.cache.counts,
    s.blocked⟩

/-- One event, after which the list of finished tasks is collected. -/
def step (s : Session) (e : SessionEvent) : Moment × Session :=
  ((s.perform e).moment, (s.perform e).collect.2)

/-- The session after a list of events. -/
def run (s : Session) : List SessionEvent → Session
  | [] => s
  | e :: es => (s.step e).2.run es

/-- What is seen of a session, event after event. -/
def moments (s : Session) : List SessionEvent → List Moment
  | [] => []
  | e :: es => (s.step e).1 :: (s.step e).2.moments es

theorem mem_done {s : Session} {task : TaskId} {r : TaskResult} :
    (task, r) ∈ s.moment.done ↔ (task, r) ∈ s.finished :=
  List.mem_mergeSort

end Session

namespace Cache

theorem step_query_snd (c : Cache) (id : FileId) : (c.step (.query id)).2 = (c.query id).2.2 := by
  rw [step]
  rcases c.query id with ⟨q, outcome, c'⟩
  cases outcome <;> rfl

theorem step_land_snd (c : Cache) (b : BindId) (uses? : Option (List SymbolUse)) :
    (c.step (.land b uses?)).2 = (c.land b uses?).2 := by
  rw [step]
  rcases c.land b uses? with ⟨landing?, c'⟩
  cases landing? <;> rfl

end Cache
end UnionAtlas
