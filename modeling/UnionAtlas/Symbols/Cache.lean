import UnionAtlas.Files.FileSet
import UnionAtlas.Symbols.FileSymbols

/-!
# The cache of resolved symbols

The cache keeps one answer per path. An answer is good for a version of the path whose digest is the
recorded one. A query that finds no good answer needs a bind, the computation of the file's symbols;
queries for the same path, digest and generation share one bind. Every invalidation starts a new
generation, so no later query joins a bind that is under way, and the result of such a bind is
handed to its waiters but not stored.

The cache is a machine: each event (a new version, a query, the end of a bind, a cancelled query, an
invalidation) is one function on its state, and binds may end in any order.
-/

namespace UnionAtlas

/-- The number of a query, in the order they were asked. -/
abbrev QueryId := Nat

/-- The number of a bind, in the order they were started. -/
abbrev BindId := Nat

/-- What a query is answered with: the symbols, and the bind that found them. An answer without
a bind has no symbols. -/
structure Answer where
  bind : Option BindId
  symbols : FileSymbols
  deriving Repr, DecidableEq

namespace Answer

/-- The answer without symbols. -/
def empty : Answer := ⟨none, .empty⟩

/-- The answer of a bind that found the given uses. -/
def ofBind (b : BindId) (uses : List SymbolUse) : Answer :=
  let symbols := FileSymbols.ofUses uses
  if symbols.isEmpty then empty else ⟨some b, symbols⟩

theorem symbols_ofBind (b : BindId) (uses : List SymbolUse) :
    (ofBind b uses).symbols = .ofUses uses := by
  by_cases nothing : (FileSymbols.ofUses uses).isEmpty = true
  · have nil : (FileSymbols.ofUses uses).uses = [] := List.isEmpty_iff.mp nothing
    simp only [ofBind, nothing, if_true]
    exact congrArg FileSymbols.mk nil.symm
  · simp [ofBind, nothing]

end Answer

/-- What queries share a bind by. -/
structure FlightKey where
  path : Bytes
  /-- The first bytes of the content's digest. -/
  mark : Bytes
  generation : Nat
  deriving Repr, DecidableEq

/-- The text of a key. Binds under way are told apart by this text alone. -/
def FlightKey.label (k : FlightKey) : Bytes :=
  k.path ++ text "@" ++ Bytes.hex k.mark ++ text "#" ++ Bytes.decimal k.generation

/-- A bind under way. -/
structure Flight where
  bind : BindId
  key : FlightKey
  /-- The version that is bound. -/
  file : SourceFile
  waiters : List QueryId
  deriving Repr, DecidableEq

/-- A stored answer. -/
structure CacheEntry where
  path : Bytes
  file : FileId
  digest : Bytes
  answer : Answer
  deriving Repr, DecidableEq

/-- How often each thing happened. -/
structure CacheCounts where
  hits : Nat := 0
  misses : Nat := 0
  fills : Nat := 0
  failures : Nat := 0
  invalidations : Nat := 0
  deriving Repr, DecidableEq

/-- The state of a cache. -/
structure Cache where
  files : FileSet
  entries : List CacheEntry
  generation : Nat
  flights : List Flight
  /-- The number of binds started. -/
  binds : Nat
  /-- The number of queries asked. -/
  queries : Nat
  counts : CacheCounts
  deriving Repr, DecidableEq

/-- What became of a query. -/
inductive QueryOutcome where
  /-- There is no such file. -/
  | unknown
  /-- A stored answer was good. -/
  | hit (file : SourceFile) (answer : Answer)
  /-- The query waits for a bind that it started. -/
  | started (file : SourceFile) (bind : BindId)
  /-- The query waits for a bind that was under way. -/
  | joined (file : SourceFile) (bind : BindId)
  deriving Repr, DecidableEq

/-- What became of a bind that ended. -/
structure Landing where
  flight : Flight
  answer : Answer
  stored : Bool
  deriving Repr, DecidableEq

namespace Cache

/-- A cache over a file set, with nothing stored. -/
def new (files : FileSet) : Cache where
  files
  entries := []
  generation := 0
  flights := []
  binds := 0
  queries := 0
  counts := {}

/-- Adds a version of a path. -/
def addFile (c : Cache) (path content : Bytes) (flags : FileFlags) : FileId × Cache :=
  let (id, files) := c.files.add path content flags
  (id, { c with files })

/-- The number of digest bytes that a bind is shared by. -/
def markSize : Nat := 8

/-- The key of the bind that a version needs now. -/
def keyOf (c : Cache) (f : SourceFile) : FlightKey :=
  ⟨f.path, f.digest.take markSize, c.generation⟩

/-- The stored answer for a path. -/
def entry? (c : Cache) (path : Bytes) : Option CacheEntry :=
  c.entries.find? (·.path == path)

/-- The stored answer that is good for a version. -/
def goodAnswer? (c : Cache) (f : SourceFile) : Option Answer :=
  match c.entry? f.path with
  | some e => if e.digest = f.digest then some e.answer else none
  | none => none

/-- The bind under way whose key has the text of the given one. -/
def flightOf? (c : Cache) (key : FlightKey) : Option Flight :=
  c.flights.find? (·.key.label == key.label)

/-- The bind under way with a number. -/
def flight? (c : Cache) (b : BindId) : Option Flight :=
  c.flights.find? (·.bind == b)

/-- Asks for the symbols of a file. -/
def query (c : Cache) (id : FileId) : QueryId × QueryOutcome × Cache :=
  let q := c.queries
  let c := { c with queries := c.queries + 1 }
  match c.files.get? id with
  | none => (q, .unknown, c)
  | some f =>
    match c.goodAnswer? f with
    | some a => (q, .hit f a, { c with counts.hits := c.counts.hits + 1 })
    | none =>
      let c := { c with counts.misses := c.counts.misses + 1 }
      let key := c.keyOf f
      match c.flightOf? key with
      | some flight =>
        (q, .joined f flight.bind,
          { c with
            flights := c.flights.map fun g =>
              if g.bind = flight.bind then { g with waiters := g.waiters ++ [q] } else g })
      | none =>
        (q, .started f c.binds,
          { c with
            binds := c.binds + 1
            flights := c.flights ++ [⟨c.binds, key, f, [q]⟩] })

/-- Does the query wait for a bind? -/
def isPending (c : Cache) (q : QueryId) : Bool :=
  c.flights.any (·.waiters.contains q)

/-- The query waits no more; the bind it waited for goes on. -/
def cancel (c : Cache) (q : QueryId) : Cache :=
  { c with flights := c.flights.map fun g => { g with waiters := g.waiters.erase q } }

/-- Puts an answer in the place of what was stored for its path. -/
def store (c : Cache) (e : CacheEntry) : Cache :=
  { c with entries := e :: c.entries.filter (·.path != e.path) }

/-- Ends a bind under way, with the uses it found or without. Its result is stored if it did not
fail and no invalidation happened since it was started. -/
def land (c : Cache) (b : BindId) (uses? : Option (List SymbolUse)) : Option Landing × Cache :=
  match c.flight? b with
  | none => (none, c)
  | some flight =>
    let c := { c with flights := c.flights.filter (·.bind != b) }
    match uses? with
    | none =>
      (some ⟨flight, .empty, false⟩, { c with counts.failures := c.counts.failures + 1 })
    | some uses =>
      let c := { c with counts.fills := c.counts.fills + 1 }
      let answer := Answer.ofBind b uses
      if flight.key.generation = c.generation then
        (some ⟨flight, answer, true⟩,
          c.store ⟨flight.file.path, flight.file.id, flight.file.digest, answer⟩)
      else (some ⟨flight, answer, false⟩, c)

/-- Starts a new generation. -/
def renew (c : Cache) : Cache :=
  { c with
    generation := c.generation + 1
    counts.invalidations := c.counts.invalidations + 1 }

/-- Forgets everything that is stored; the result is how much that was. -/
def invalidate (c : Cache) : Nat × Cache :=
  (c.entries.length, { c.renew with entries := [] })

/-- Forgets what is stored for the path of a file; the result is that path, and whether something
was stored. An unknown file changes nothing. -/
def invalidateFile (c : Cache) (id : FileId) : Option (Bytes × Bool) × Cache :=
  match c.files.get? id with
  | none => (none, c)
  | some f =>
    (some (f.path, (c.entry? f.path).isSome),
      { c.renew with entries := c.entries.filter (·.path != f.path) })

/-- The numbers of the binds under way. -/
def inFlight (c : Cache) : List BindId :=
  c.flights.map (·.bind)

end Cache
end UnionAtlas
