import UnionAtlas.Proofs.Session.Bystanders

/-!
# Warm-ups and their limit

A warm-up asks for its files in order, as long as fewer of its queries wait than its limit allows. A
bind that it began has one of these queries for a waiter until it ends, so no more binds of its own
are under way than its limit allows, whether its queries hit, join a bind of somebody else, fail, or
are overtaken by an invalidation. When a bind ends its waiters are owed the answer one after the
other, and between two of them the warm-up may go on: that is why a stage of a warm-up is told with
the answers that are still owed. A warm-up whose caller stays is over as soon as everything is asked
for and nothing of it waits.
-/

namespace UnionAtlas
namespace Session

variable {task : TaskId} {asks : List Ask} {s s' s'' : Session} {w : Warming}

/-! ## The warm-up itself -/

/-- What a warm-up whose caller stays has asked and waits for. The answers to some queries are owed
to it. -/
structure Attends (ids : List FileId) (c : Cache) (asks : List Ask) (owed : List QueryId)
    (todo : List FileId) (w : Warming) : Prop where
  stays : w.cancelled = false
  whole : w.failed = false
  order : asks.map Ask.id ++ todo = ids
  within : w.waiting.length ≤ w.limit
  own : ∀ p ∈ w.waiting, p.query ∈ asks.map Ask.query
  waits : ∀ p ∈ w.waiting, p.query ∈ owed ∨ ∃ b, c.Waits p.query b
  waiting : ∀ a ∈ asks, ∀ b, c.Waits a.query b → a.query ∈ w.waiting.map PendingQuery.query
  begun : ∀ a ∈ asks, ∀ b ∈ a.bind?, b ∈ c.inFlight → c.Waits a.query b
  owes : ∀ q ∈ owed, q < c.queries ∧ (q ∈ asks.map Ask.query → ∀ b, ¬ c.Waits q b)

variable {ids todo : List FileId} {owed : List QueryId} {c c' : Cache}

theorem Attends.keeps (attends : Attends ids c asks owed todo w)
    (started : ∀ a ∈ asks, ∀ b ∈ a.bind?, b < c.binds)
    (keeps : Cache.Keeps (asks.map Ask.query) c c') : Attends ids c' asks owed todo w where
  stays := attends.stays
  whole := attends.whole
  order := attends.order
  within := attends.within
  own := attends.own
  waits p member := by
    rcases attends.waits p member with owed | ⟨b, waits⟩
    · exact .inl owed
    · exact .inr ⟨b, (keeps.waits _ (attends.own p member) b).mpr waits⟩
  waiting a member b waits :=
    attends.waiting a member b ((keeps.waits _ (List.mem_map_of_mem member) b).mp waits)
  begun a member b began under :=
    (keeps.waits _ (List.mem_map_of_mem member) b).mpr (attends.begun a member b began
      (keeps.follows.inFlight (started a member b began) under))
  owes q owed := by
    obtain ⟨asked, idle⟩ := attends.owes q owed
    exact ⟨Nat.lt_of_lt_of_le asked keeps.follows.queries,
      fun member b waits => idle member b ((keeps.waits q member b).mp waits)⟩

/-- One more query was asked, and it waits if it is among those that wait. -/
theorem Attends.extend {a : Ask} (more : List PendingQuery)
    (attends : Attends ids c asks owed (a.id :: todo) w) (fresh : a.query ∉ owed)
    (room : (w.waiting ++ more).length ≤ w.limit)
    (added : ∀ p ∈ more, p.query = a.query ∧ ∃ b, c.Waits a.query b)
    (waiting : ∀ b, c.Waits a.query b → a.query ∈ more.map PendingQuery.query)
    (begun : ∀ b ∈ a.bind?, b ∈ c.inFlight → c.Waits a.query b) :
    Attends ids c (asks ++ [a]) owed todo { w with waiting := w.waiting ++ more } where
  stays := attends.stays
  whole := attends.whole
  order := by rw [← attends.order, List.map_append, List.append_assoc]; rfl
  within := room
  own p member := by
    rw [List.map_append, List.mem_append]
    rcases List.mem_append.mp member with old | new
    · exact .inl (attends.own p old)
    · exact .inr (List.mem_singleton.mpr (added p new).1)
  waits p member := by
    rcases List.mem_append.mp member with old | new
    · exact attends.waits p old
    · rw [(added p new).1]
      exact .inr (added p new).2
  waiting a' member b waits := by
    rw [List.map_append, List.mem_append]
    rcases List.mem_append.mp member with old | new
    · exact .inl (attends.waiting a' old b waits)
    · obtain rfl := List.mem_singleton.mp new
      exact .inr (waiting b waits)
  begun a' member := by
    rcases List.mem_append.mp member with old | new
    · exact attends.begun a' old
    · exact List.mem_singleton.mp new ▸ begun
  owes q owes := by
    refine ⟨(attends.owes q owes).1, fun member => ?_⟩
    rw [List.map_append, List.mem_append] at member
    rcases member with old | new
    · exact (attends.owes q owes).2 old
    · exact absurd (List.mem_singleton.mp new ▸ owes) fresh

/-- The task asks for the next file. -/
theorem Attends.ask {id : FileId} {outcome : Asked}
    (attends : Attends ids c asks owed (id :: todo) w)
    (asked : ∀ a ∈ asks, a.query < c.queries) (started : ∀ a ∈ asks, ∀ b ∈ a.bind?, b < c.binds)
    (consulted : c.Consulted id outcome c') (room : w.waiting.length < w.limit) :
    (∀ a, outcome = .answered a → Attends ids c' (asks ++ [c.askOf id]) owed todo w) ∧
    ∀ p, outcome = .waits p →
      Attends ids c' (asks ++ [c.askOf id]) owed todo { w with waiting := w.waiting ++ [p] } := by
  have keeps : Cache.Keeps (asks.map Ask.query) c c' := by
    refine ⟨consulted.follows, fun q member b => ?_⟩
    obtain ⟨a, known, rfl⟩ := List.mem_map.mp member
    exact consulted.old _ (asked a known) b
  have kept : Attends ids c' asks owed ((c.askOf id).id :: todo) w := attends.keeps started keeps
  have fresh : (c.askOf id).query ∉ owed := fun owes =>
    Nat.lt_irrefl _ (attends.owes _ owes).1
  have begun (b : BindId) (began : b ∈ (c.askOf id).bind?) := (consulted.begun b began).2
  constructor
  · intro a answered
    have idle := consulted.answered a answered
    have extended := kept.extend [] fresh (by simpa using Nat.le_of_lt room) (by simp)
      (fun b waits => absurd waits (idle b)) begun
    rwa [List.append_nil] at extended
  · intro p waiting
    obtain ⟨number, waits⟩ := consulted.waits p waiting
    refine kept.extend [p] fresh (by simpa using Nat.succ_le_of_lt room) ?_ ?_ begun
    · intro p' member
      obtain rfl := List.mem_singleton.mp member
      exact ⟨number, waits⟩
    · exact fun _ _ => List.mem_singleton.mpr number.symm

theorem Attends.set_todo (attends : Attends ids c asks owed todo w) (left : List FileId) :
    Attends ids c asks owed todo { w with todo := left } :=
  ⟨attends.stays, attends.whole, attends.order, attends.within, attends.own, attends.waits,
    attends.waiting, attends.begun, attends.owes⟩

/-- The warm-up asks for as much as it may: it has asked for everything, or as many queries wait as
its limit allows. -/
theorem Attends.advance (attends : Attends ids s.provider.cache asks owed todo w)
    (apart : Apart w.task asks s) :
    let asks' := asks ++ s.provider.cache.asks w.task (s.advanceDeeds w todo)
    let (w', s') := s.advance w todo
    Attends ids s'.provider.cache asks' owed w'.todo w' ∧ Apart w.task asks' s' ∧
      (w'.todo ≠ [] → w'.waiting.length = w'.limit) ∧ w'.task = w.task ∧ w'.limit = w.limit ∧
      s'.warming = s.warming ∧ s'.finished = s.finished := by
  induction todo generalizing s w asks with
  | nil =>
    dsimp only [Session.advance, advanceDeeds, Cache.asks]
    rw [List.append_nil]
    exact ⟨attends.set_todo [], apart, fun some => absurd rfl some, rfl, rfl, rfl, rfl⟩
  | cons id todo ih =>
    have stays : ¬ w.cancelled = true := by simp [attends.stays]
    unfold Session.advance advanceDeeds
    rw [if_neg stays, if_neg stays]
    by_cases room : w.waiting.length < w.limit
    · have consulted := consulted_ask apart.reachable.sound w.caller id
      obtain ⟨answered, waits⟩ := attends.ask apart.asked apart.started consulted room
      have next := apart.ask w.caller id
      have deeds := (recounts_ask s w.task w.caller id).cache
      obtain ⟨provider, model, same⟩ := s.ask_snd w.caller id
      rw [if_pos room, if_pos room, Cache.asks_append, asks_askDeeds, ← deeds, ← List.append_assoc]
      clear deeds consulted
      generalize s.ask w.caller id = x at answered waits next same ⊢
      obtain ⟨outcome, t⟩ := x
      obtain rfl : t = { s with provider, model } := same
      cases outcome with
      | answered a => exact ih (answered a rfl) next
      | waits p => exact ih (waits p rfl) next
    · rw [if_neg room, if_neg room]
      dsimp only [Cache.asks]
      rw [List.append_nil]
      have full := Nat.le_antisymm attends.within (Nat.not_lt.mp room)
      exact ⟨attends.set_todo _, apart, fun _ => full, rfl, rfl, rfl, rfl⟩

/-! ## Binds that a task began -/

/-- How many of the binds that were begun by the asks are under way. -/
def held (asks : List Ask) (c : Cache) : Nat :=
  (asks.filterMap Ask.bind?).countP (· ∈ c.inFlight)

/-- Without further asks their number does not grow. -/
theorem held_later (started : ∀ a ∈ asks, ∀ b ∈ a.bind?, b < c.binds) (follows : c.Follows c') :
    held asks c' ≤ held asks c := by
  refine List.countP_mono_left fun b member under => ?_
  obtain ⟨a, known, began⟩ := List.mem_filterMap.mp member
  simp only [decide_eq_true_eq] at under ⊢
  exact follows.inFlight (started a known b began) under

/-- Every such bind has a query for a waiter that the warm-up waits for. -/
theorem Attends.held_le (attends : Attends ids c asks owed todo w)
    (distinct : (asks.map Ask.query).Nodup) : held asks c ≤ w.waiting.length := by
  let holds (a : Ask) : Bool := (a.bind?.map fun b => decide (b ∈ c.inFlight)).getD false
  have count : held asks c = ((asks.filter holds).map Ask.query).length := by
    rw [held, List.countP_filterMap, List.length_map, List.countP_eq_length_filter]
  have apart : ((asks.filter holds).map Ask.query).Nodup :=
    distinct.sublist (List.filter_sublist.map _)
  have inside : (asks.filter holds).map Ask.query ⊆ w.waiting.map PendingQuery.query := by
    intro q member
    obtain ⟨a, kept, rfl⟩ := List.mem_map.mp member
    obtain ⟨known, holding⟩ := List.mem_filter.mp kept
    cases began : a.bind? with
    | none => simp [holds, began] at holding
    | some b =>
      have under : b ∈ c.inFlight := by simpa [holds, began] using holding
      exact attends.waiting a known b (attends.begun a known b began under)
  have fits := (List.subperm_of_subset apart inside).length_le
  rwa [← count, List.length_map] at fits

/-! ## The stages of a warm-up -/

/-- A warm-up that was begun: its number, its files and its limit, and whether its caller stays. -/
structure WarmCall where
  task : TaskId
  ids : List FileId
  limit : Nat
  live : Prop

variable {call : WarmCall} {seen : List (TaskId × TaskResult)}

/-- The task came to this, as was seen before or is listed now. -/
def Told (seen : List (TaskId × TaskResult)) (s : Session) (task : TaskId) (r : TaskResult) :
    Prop :=
  (task, r) ∈ seen ++ s.finished

theorem told_of_collected (none : s.finished = []) {r : TaskResult} :
    Told seen s task r ↔ (task, r) ∈ seen := by
  rw [Told, none, List.append_nil]

/-- The warm-up is under way. -/
structure Running (call : WarmCall) (seen : List (TaskId × TaskResult)) (asks : List Ask)
    (owed : List QueryId) (s : Session) (w : Warming) : Prop where
  task : w.task = call.task
  limit : w.limit = call.limit
  only : s.warming.filter (·.task == call.task) = [w]
  attends : Attends call.ids s.provider.cache asks owed w.todo w
  full : w.todo ≠ [] → w.waiting.length = w.limit
  busy : w.todo = [] → w.waiting ≠ []
  quiet : ∀ r, ¬ Told seen s call.task r

/-- The warm-up is over. If its caller stayed, everything was asked for and answered. -/
structure Ended (call : WarmCall) (seen : List (TaskId × TaskResult)) (asks : List Ask)
    (s : Session) : Prop where
  gone : s.warming.filter (·.task == call.task) = []
  order : asks.map Ask.id <+: call.ids
  held : held asks s.provider.cache ≤ call.limit
  whole : call.live → asks.map Ask.id = call.ids ∧
    (∀ a ∈ asks, ∀ b, ¬ s.provider.cache.Waits a.query b) ∧ Told seen s call.task .warmed ∧
    ∀ r, Told seen s call.task r → r = .warmed

/-- Where a warm-up stands. -/
structure Stage (call : WarmCall) (seen : List (TaskId × TaskResult)) (asks : List Ask)
    (owed : List QueryId) (s : Session) : Prop where
  apart : Apart call.task asks s
  stands : (∃ w, Running call seen asks owed s w) ∨ Ended call seen asks s

theorem Leaves.told (leaves : Leaves task asks s s') (r : TaskResult) :
    Told seen s' task r ↔ Told seen s task r := by
  rw [Told, Told, List.mem_append, List.mem_append, leaves.finished]

/-- What others do leaves a warm-up where it stands. -/
theorem Stage.leaves (stage : Stage call seen asks owed s) (leaves : Leaves call.task asks s s') :
    Stage call seen asks owed s' := by
  have started := stage.apart.started
  refine ⟨leaves.apart, ?_⟩
  rcases stage.stands with ⟨w, running⟩ | ended
  · exact .inl ⟨w, running.task, running.limit, leaves.warming.trans running.only,
      running.attends.keeps started leaves.cache, running.full, running.busy,
      fun r told => running.quiet r ((leaves.told r).mp told)⟩
  · refine .inr ⟨leaves.warming.trans ended.gone, ended.order,
      Nat.le_trans (held_later started leaves.cache.follows) ended.held, fun live => ?_⟩
    obtain ⟨order, idle, warmed, only⟩ := ended.whole live
    exact ⟨order,
      fun a member b waits => idle a member b
        ((leaves.cache.waits _ (List.mem_map_of_mem member) b).mp waits),
      (leaves.told _).mpr warmed, fun r told => only r ((leaves.told r).mp told)⟩

/-- The warm-up goes on, and ends if it waits for nothing. -/
theorem Attends.resume (attends : Attends call.ids s.provider.cache asks owed w.todo w)
    (apart : Apart w.task asks s) (same : w.task = call.task) (limit : w.limit = call.limit)
    (aside : s.warming.filter (·.task == call.task) = []) (quiet : ∀ r, ¬ Told seen s call.task r) :
    Stage call seen (asks ++ s.provider.cache.asks call.task (s.advanceDeeds w w.todo)) owed
      (s.resume w) := by
  have advanced := attends.advance apart
  rw [← same]
  unfold Session.resume
  generalize asks ++ s.provider.cache.asks w.task (s.advanceDeeds w w.todo) = asks' at advanced ⊢
  generalize s.advance w w.todo = x at advanced ⊢
  obtain ⟨w', t⟩ := x
  obtain ⟨attends, apart, full, task', limit', warming, finished⟩ := advanced
  rw [same] at task' apart
  rw [← warming] at aside
  dsimp only at attends apart full task' limit' aside finished ⊢
  have untold (r : TaskResult) : (call.task, r) ∉ seen ++ t.finished := finished ▸ quiet r
  by_cases through : w'.todo = [] ∧ w'.waiting = []
  · rw [if_pos (by simp [through])]
    have result : warmResult w' = .warmed := by simp [warmResult, attends.whole]
    have order := attends.order
    rw [through.1, List.append_nil] at order
    refine ⟨(apart.leaves_record _).apart.finish _ _,
      .inr ⟨aside, order ▸ List.prefix_rfl, ?_, ?_⟩⟩
    · have none := attends.held_le apart.distinct
      rw [through.2] at none
      exact Nat.le_trans none (Nat.zero_le _)
    · refine fun _ => ⟨order, ?_, ?_, ?_⟩
      · intro a member b waits
        have waiting := attends.waiting a member b waits
        rw [through.2] at waiting
        cases waiting
      · simp [Told, finish, task', result]
      · intro r told
        rw [Told, finish, ← List.append_assoc, List.mem_append] at told
        rcases told with before | now
        · exact absurd before (untold r)
        · rw [List.mem_singleton, Prod.mk.injEq] at now
          exact now.2.trans result
  · rw [if_neg (by simpa using through)]
    refine ⟨?_, .inl ⟨w', task', limit'.trans limit, ?_, attends, full, ?_, untold⟩⟩
    · refine apart.later (.refl _) (Nat.le_refl _) (fun _ => .inl) fun w₁ member => ?_
      rcases List.mem_append.mp member with old | new
      · exact .inl old
      · exact .inr fun other => absurd (List.mem_singleton.mp new ▸ task') other
    · simp [List.filter_append, aside, task']
    · exact fun nothing idle => through ⟨nothing, idle⟩

/-! ## Answers that are owed -/

variable {q : QueryId}

/-- Whoever does not wait for an answer is not owed it. -/
theorem Attends.drop (attends : Attends ids c asks (q :: owed) todo w)
    (absent : ∀ p ∈ w.waiting, p.query ≠ q) : Attends ids c asks owed todo w where
  __ := attends
  waits p member := by
    rcases attends.waits p member with owes | waits
    · rcases List.mem_cons.mp owes with now | later
      · exact absurd now (absent p member)
      · exact .inl later
    · exact .inr waits
  owes q' member := attends.owes q' (List.mem_cons_of_mem q member)

/-- An answer is handed to the warm-up. -/
theorem Attends.deliver (attends : Attends ids c asks (q :: owed) todo w) :
    Attends ids c asks owed todo { w with waiting := w.waiting.filter (·.query != q) } := by
  refine Attends.drop ⟨attends.stays, attends.whole, attends.order, ?_, ?_, ?_, ?_, attends.begun,
    attends.owes⟩ ?_
  · exact Nat.le_trans (List.length_filter_le _ _) attends.within
  · exact fun p member => attends.own p (List.mem_of_mem_filter member)
  · exact fun p member => attends.waits p (List.mem_of_mem_filter member)
  · intro a known b waits
    obtain ⟨p, member, same⟩ := List.mem_map.mp (attends.waiting a known b waits)
    refine List.mem_map.mpr ⟨p, List.mem_filter.mpr ⟨member, ?_⟩, same⟩
    -- Nobody waits for the bind whose answer is handed out.
    have other : p.query ≠ q := by
      intro here
      have asked : q ∈ asks.map Ask.query := here ▸ same ▸ List.mem_map_of_mem known
      exact (attends.owes q List.mem_cons_self).2 asked b (here ▸ same ▸ waits)
    simpa using other
  · intro p member
    simpa using (List.mem_filter.mp member).2

theorem eq_of_filter_eq {w' : Warming} (only : s.warming.filter (·.task == task) = [w'])
    (member : w ∈ s.warming) (same : w.task = task) : w = w' := by
  have kept : w ∈ s.warming.filter (·.task == task) :=
    List.mem_filter.mpr ⟨member, by simpa using same⟩
  rw [only] at kept
  exact List.mem_singleton.mp kept

theorem Ended.absent (ended : Ended call seen asks s) (member : w ∈ s.warming) :
    w.task ≠ call.task := by
  intro same
  have kept : w ∈ s.warming.filter (·.task == call.task) :=
    List.mem_filter.mpr ⟨member, by simpa using same⟩
  rw [ended.gone] at kept
  cases kept

/-- What the warm-up waits for, it asked. -/
theorem Stage.own (stage : Stage call seen asks owed s) (member : w ∈ s.warming)
    (same : w.task = call.task) : ∀ p ∈ w.waiting, p.query ∈ asks.map Ask.query := by
  rcases stage.stands with ⟨w', running⟩ | ended
  · obtain rfl := eq_of_filter_eq running.only member same
    exact running.attends.own
  · exact absurd same (ended.absent member)

theorem Stage.drop (stage : Stage call seen asks (q :: owed) s)
    (absent : ∀ w ∈ s.warming, w.task = call.task → ∀ p ∈ w.waiting, p.query ≠ q) :
    Stage call seen asks owed s := by
  refine ⟨stage.apart, stage.stands.imp_left ?_⟩
  rintro ⟨w, running⟩
  have member : w ∈ s.warming := List.mem_of_mem_filter (running.only ▸ List.mem_singleton.mpr rfl)
  exact ⟨w, { running with attends := running.attends.drop (absent w member running.task) }⟩

theorem Stage.drop_foreign (stage : Stage call seen asks (q :: owed) s)
    (foreign : q ∉ asks.map Ask.query) : Stage call seen asks owed s :=
  stage.drop fun _ member same p waits here => foreign (here ▸ stage.own member same p waits)

/-- An answer is handed to the warm-up, which goes on. -/
theorem Running.deliver (running : Running call seen asks (q :: owed) s w)
    (apart : Apart call.task asks s) :
    let parked := { s with warming := s.warming.filter (·.task != w.task) }
    let served := { w with waiting := w.waiting.filter (·.query != q) }
    Stage call seen
      (asks ++ s.provider.cache.asks call.task (Session.advanceDeeds parked served w.todo)) owed
      (Session.resume parked served) := by
  intro parked served
  have aside : parked.warming.filter (·.task == call.task) = [] := by
    rw [List.filter_filter, List.filter_eq_nil_iff]
    simp [running.task]
  have apart : Apart w.task asks parked :=
    (running.task ▸ apart).still (.refl _) (Nat.le_refl _) (List.Subset.refl _)
      (List.filter_subset_self _)
  exact Attends.resume (s := parked) (w := served) running.attends.deliver apart running.task
    running.limit aside running.quiet

/-- An answer is handed to another warm-up, which goes on. -/
theorem Apart.leaves_deliver (apart : Apart task asks s) (member : w ∈ s.warming)
    (different : w.task ≠ task) :
    let parked := { s with warming := s.warming.filter (·.task != w.task) }
    let served := { w with waiting := w.waiting.filter (·.query != q) }
    Leaves task asks s (Session.resume parked served) ∧
      s.provider.cache.asks task (Session.advanceDeeds parked served w.todo) = [] := by
  intro parked served
  have left := apart.leaves_park different
  have others := apart.warming w member different
  have foreign : Foreign asks s.provider.cache served := fun p waits =>
    others p (List.mem_of_mem_filter waits)
  exact ⟨left.trans (left.apart.leaves_resume (w := served) different foreign),
    asks_of_askers (askers_advanceDeeds (P := (· ≠ task)) (w := served) different w.todo)⟩

/-- An answer is handed to whoever waits for it. -/
theorem Stage.deliver (stage : Stage call seen asks (q :: owed) s) (a : Answer) :
    Stage call seen (asks ++ s.provider.cache.asks call.task (s.deliverDeeds q)) owed
      (s.deliver a q) := by
  unfold Session.deliver deliverDeeds
  cases found : s.asking.find? (·.pending.query == q) with
  | some k =>
    obtain ⟨other, -, foreign⟩ := stage.apart.asking k (List.mem_of_find?_eq_some found)
    rw [show k.pending.query = q by simpa using List.find?_some found] at foreign
    dsimp only [Cache.asks]
    rw [List.append_nil]
    have dismissed := stage.apart.leaves_dismiss (·.pending.query != q)
    exact (stage.drop_foreign foreign).leaves
      (dismissed.trans (dismissed.apart.leaves_finish other _))
  | none =>
    cases found' : s.warming.find? (·.waiting.any (·.query == q)) with
    | some w =>
      have member := List.mem_of_find?_eq_some found'
      dsimp only
      by_cases mine : w.task = call.task
      · rcases stage.stands with ⟨w', running⟩ | ended
        · obtain rfl := eq_of_filter_eq running.only member mine
          exact running.deliver stage.apart
        · exact absurd mine (ended.absent member)
      · have foreign : q ∉ asks.map Ask.query := by
          have any := List.find?_some found'
          obtain ⟨p, waits, here⟩ := List.any_eq_true.mp any
          rw [← show p.query = q by simpa using here]
          exact (stage.apart.warming w member mine p waits).2
        obtain ⟨leaves, silent⟩ := stage.apart.leaves_deliver (q := q) member mine
        rw [silent, List.append_nil]
        exact (stage.drop_foreign foreign).leaves leaves
    | none =>
      dsimp only [Cache.asks]
      rw [List.append_nil]
      refine stage.drop fun w member _ p waits here => ?_
      have idle := List.find?_eq_none.mp found' w member
      exact idle (List.any_eq_true.mpr ⟨p, waits, by simpa using here⟩)

theorem Stage.deliverAll (stage : Stage call seen asks owed s) (a : Answer) :
    Stage call seen (asks ++ s.provider.cache.asks call.task (deliverAllDeeds a s owed)) []
      (owed.foldl (Session.deliver a) s) := by
  induction owed generalizing s asks with
  | nil =>
    rw [deliverAllDeeds, Cache.asks, List.append_nil]
    exact stage
  | cons q owed ih =>
    rw [deliverAllDeeds, Cache.asks_append, ← (recounts_deliver s a q).cache, ← List.append_assoc]
    exact ih (stage.deliver a)

/-! ## What can happen -/

variable {b : BindId} {uses? : Option (List SymbolUse)}

/-- A bind ends, and its waiters are owed the answer. -/
theorem Attends.land {g : Flight} (attends : Attends ids c asks [] todo w) (reachable : c.Reachable)
    (found : c.flight? b = some g) (asked : ∀ q ∈ g.waiters, q < c.queries) :
    Attends ids (c.step (.land b uses?)).2 asks g.waiters todo w := by
  obtain ⟨member, rfl⟩ := Cache.bind_of_flight? found
  have grows := Cache.grows_step c (.land g.bind uses?)
  refine ⟨attends.stays, attends.whole, attends.order, attends.within, attends.own, ?_, ?_, ?_, ?_⟩
  · intro p waits
    rcases attends.waits p waits with owed | ⟨b, g', member', rfl, waiter⟩
    · cases owed
    · by_cases here : g'.bind = g.bind
      · obtain rfl := List.inj_on_of_nodup_map reachable.sound.distinct member' member here
        exact .inl waiter
      · exact .inr ⟨g'.bind, (Cache.waits_land _ _ _ _ _).mpr ⟨⟨g', member', rfl, waiter⟩, here⟩⟩
  · intro a known b waits
    exact attends.waiting a known b ((Cache.waits_land _ _ _ _ _).mp waits).1
  · intro a known b began under
    rw [Cache.inFlight, Cache.flights_land] at under
    obtain ⟨g', kept, rfl⟩ := List.mem_map.mp under
    obtain ⟨member', other⟩ := List.mem_filter.mp kept
    exact (Cache.waits_land _ _ _ _ _).mpr
      ⟨attends.begun a known g'.bind began (List.mem_map_of_mem member'), by simpa using other⟩
  · intro q waiter
    refine ⟨Nat.lt_of_lt_of_le (asked q waiter) grows.queries, fun _ b waits => ?_⟩
    obtain ⟨⟨g', member', rfl, waiter'⟩, other⟩ := (Cache.waits_land _ _ _ _ _).mp waits
    exact other (congrArg Flight.bind
      (reachable.exclusive.eq_of_waits member' member waiter' waiter))

theorem Stage.land {g : Flight} (stage : Stage call seen asks [] s) {provider : Provider}
    (cache : provider.cache = (s.provider.cache.step (.land b uses?)).2)
    (found : s.provider.cache.flight? b = some g) (model : Model) :
    Stage call seen asks g.waiters { s with provider, model } := by
  have follows : s.provider.cache.Follows provider.cache := cache ▸ Cache.follows_step _ _
  have sound := stage.apart.reachable.sound
  have asked := sound.asked g (Cache.bind_of_flight? found).1
  refine ⟨stage.apart.still follows (Nat.le_refl _) (List.Subset.refl _) (List.Subset.refl _), ?_⟩
  rcases stage.stands with ⟨w, running⟩ | ended
  · refine .inl ⟨w, { running with attends := ?_ }⟩
    change Attends _ provider.cache _ _ _ _
    rw [cache]
    exact running.attends.land stage.apart.reachable found asked
  · refine .inr ⟨ended.gone, ended.order,
      Nat.le_trans (held_later stage.apart.started follows) ended.held, fun live => ?_⟩
    obtain ⟨order, idle, told⟩ := ended.whole live
    refine ⟨order, fun a member b waits => idle a member b ?_, told⟩
    rw [cache] at waits
    exact ((Cache.waits_land _ _ _ _ _).mp waits).1

theorem Stage.release (stage : Stage call seen asks [] s) (b : BindId) :
    Stage call seen (asks ++ s.provider.cache.asks call.task (s.releaseDeeds b)) []
      (s.release b).2 := by
  have ended := (recounts_runBind s b).cache
  have silent : s.provider.cache.asks call.task [s.landing b] = [] :=
    Cache.asks_of_others (by simp [landing])
  unfold Session.release releaseDeeds
  cases found : s.provider.cache.flight? b with
  | none =>
    have idle : s.provider.runBind s.model s.binder b = (none, s.provider, s.model) := by
      rw [Provider.runBind, found]
    rw [idle, silent, List.append_nil]
    exact stage
  | some g =>
    obtain ⟨l, lands, flight⟩ := Provider.landing_of_flight? s.model s.binder found
    generalize s.provider.runBind s.model s.binder b = x at ended lands ⊢
    obtain ⟨landing?, p, m⟩ := x
    obtain rfl : landing? = some l := lands
    have landed := stage.land ended found m
    rw [← flight] at landed
    have delivered := landed.deliverAll l.answer
    rw [← List.singleton_append, Cache.asks_append, silent, List.nil_append, ← ended]
    exact delivered

/-- A warm-up whose caller goes away asks for nothing more and is over. -/
theorem resume_of_cancelled (cancelled : w.cancelled = true) (idle : w.waiting = []) :
    ∃ recorder r, s.resume w =
      { s with provider := { s.provider with recorder } }.finish w.task r := by
  unfold resume
  cases todo : w.todo with
  | nil => exact ⟨_, _, by simp [advance, idle]; rfl⟩
  | cons id rest => exact ⟨_, _, by simp [advance, cancelled, idle]; rfl⟩

theorem cancelQueries_snd (s : Session) (caller : Tracer) (waiting : List PendingQuery) :
    ∃ provider, s.provider.cache.Follows provider.cache ∧
      waiting.foldl (fun s p => s.cancelQuery caller p) s = { s with provider } := by
  induction waiting generalizing s with
  | nil => exact ⟨s.provider, .refl _, rfl⟩
  | cons p waiting ih =>
    obtain ⟨provider, follows, same⟩ := ih (s.cancelQuery caller p)
    exact ⟨provider, (Cache.follows_step _ (.cancel p.query)).trans follows, same⟩

theorem asks_cancelDeeds (s : Session) (other : TaskId) :
    s.provider.cache.asks task (s.cancelDeeds other) = [] := by
  refine Cache.asks_of_others fun d member => ?_
  unfold cancelDeeds at member
  split at member
  · rw [List.mem_singleton.mp member]
    simp
  · split at member
    · obtain ⟨p, -, rfl⟩ := List.mem_map.mp member
      simp
    · cases member

/-- The caller of the warm-up goes away. -/
theorem Running.cancel (running : Running call seen asks [] s w) (apart : Apart call.task asks s)
    (gone : ¬ call.live) : Stage call seen asks [] (s.cancel call.task) := by
  have found : s.warming.find? (·.task == call.task) = some w := by
    rw [← List.head?_filter, running.only]
    rfl
  obtain ⟨provider, follows, left⟩ := cancelQueries_snd
    { s with warming := s.warming.filter (·.task != call.task) } w.caller w.waiting
  obtain ⟨recorder, r, ends⟩ := resume_of_cancelled
    (s := { s with warming := s.warming.filter (·.task != call.task), provider })
    (w := { w with waiting := [], cancelled := true }) rfl rfl
  unfold Session.cancel
  rw [apart.find?_asking, found]
  dsimp only
  rw [left, ends]
  refine ⟨apart.still follows (Nat.le_refl _) (List.Subset.refl _) (List.filter_subset_self _), .inr
    ⟨?_, ⟨w.todo, running.attends.order⟩, ?_, fun live => absurd live gone⟩⟩
  · simp [finish, List.filter_filter]
  · have within := running.limit ▸ running.attends.within
    exact Nat.le_trans (held_later apart.started follows)
      (Nat.le_trans (running.attends.held_le apart.distinct) within)

theorem Stage.cancel (stage : Stage call seen asks [] s) (other : TaskId)
    (stays : call.live → other ≠ call.task) : Stage call seen asks [] (s.cancel other) := by
  by_cases mine : other = call.task
  · subst mine
    rcases stage.stands with ⟨w, running⟩ | ended
    · exact running.cancel stage.apart fun live => stays live rfl
    · have absent : s.warming.find? (·.task == call.task) = none :=
        List.find?_eq_none.mpr fun w member same => ended.absent member (by simpa using same)
      have idle : s.cancel call.task = s := by
        rw [Session.cancel, stage.apart.find?_asking, absent]
      rw [idle]
      exact stage
  · exact stage.leaves (stage.apart.leaves_cancel mine)

theorem Stage.perform (stage : Stage call seen asks [] s) (e : SessionEvent)
    (stays : call.live → e ≠ .cancel call.task) :
    Stage call seen (asks ++ s.provider.cache.asks call.task (s.deeds e)) [] (s.perform e) := by
  have apart := stage.apart
  have other : s.tasks ≠ call.task := Nat.ne_of_gt apart.begun
  have quiet {ds : List Deed} {t : Session} (leaves : Leaves call.task asks s t)
      (silent : Askers (· ≠ call.task) ds) :
      Stage call seen (asks ++ s.provider.cache.asks call.task ds) [] t := by
    rw [asks_of_askers silent, List.append_nil]
    exact stage.leaves leaves
  have nobody (e : CacheEvent) : Askers (· ≠ call.task) [⟨none, e⟩] := by
    simp [Askers]
  cases e with
  | add path content flags =>
    exact quiet (apart.leaves_provider (Cache.keeps_step_of_flights_eq
      (e := .add path content flags) rfl) s.model) (nobody _)
  | query way caller cancelled question id =>
    exact quiet (apart.leaves_query way caller cancelled question id)
      (askers_queryDeeds other way caller cancelled id)
  | warm caller cancelled ids jobs =>
    exact quiet (apart.leaves_warm caller cancelled ids jobs)
      (askers_advanceDeeds (P := (· ≠ call.task)) other ids)
  | gate on =>
    exact quiet (apart.leaves_still (.refl _ _) (Nat.le_refl _) (List.Subset.refl _) rfl rfl)
      askers_nil
  | release b => exact stage.release b
  | cancel task =>
    rw [deeds, asks_cancelDeeds, List.append_nil]
    exact stage.cancel task fun live same => stays live (congrArg SessionEvent.cancel same)
  | invalidate way =>
    unfold deeds Session.perform Session.invalidate
    dsimp only
    split
    · exact quiet (apart.leaves_provider (Cache.keeps_step_of_flights_eq (e := .invalidate) rfl)
        s.model) (nobody _)
    · exact quiet apart.leaves_refl askers_nil
  | invalidateFile way id =>
    unfold deeds Session.perform Session.invalidateFile
    dsimp only
    split
    · have keeps : Cache.Keeps (asks.map Ask.query) s.provider.cache
          (s.provider.invalidateFile id).cache := by
        rw [Provider.cache_invalidateFile]
        exact Cache.keeps_step_of_flights_eq (e := .invalidateFile id)
          (Cache.flights_invalidateFile _ _)
      exact quiet (apart.leaves_provider keeps s.model) (nobody _)
    · exact quiet apart.leaves_refl askers_nil
  | look => exact quiet apart.leaves_refl askers_nil

/-- What is listed is seen. -/
theorem Stage.collect (stage : Stage call seen asks owed s) :
    Stage call (seen ++ s.moment.done) asks owed s.collect.2 := by
  have told (r : TaskResult) :
      Told (seen ++ s.moment.done) s.collect.2 call.task r ↔ Told seen s call.task r := by
    simp only [Told, Session.collect, List.append_nil, List.mem_append, mem_done]
  refine ⟨stage.apart.still (.refl _) (Nat.le_refl _) (List.Subset.refl _) (List.Subset.refl _), ?_⟩
  rcases stage.stands with ⟨w, running⟩ | ended
  · exact .inl ⟨w, { running with quiet := fun r => (told r).not.mpr (running.quiet r) }⟩
  · refine .inr { ended with whole := fun live => ?_ }
    obtain ⟨order, idle, warmed, only⟩ := ended.whole live
    exact ⟨order, idle, (told _).mpr warmed, fun r known => only r ((told r).mp known)⟩

theorem Stage.run (stage : Stage call seen asks [] s) (es : List SessionEvent)
    (stays : call.live → .cancel call.task ∉ es) :
    Stage call (seen ++ s.results es)
      (asks ++ s.provider.cache.asks call.task (s.history es)) [] (s.run es) := by
  induction es generalizing s asks seen with
  | nil => simpa [results, moments, history, Cache.asks, Session.run] using stage
  | cons e es ih =>
    have first := (stage.perform e fun live same => stays live (same ▸ List.mem_cons_self)).collect
    have rest := ih first fun live later => stays live (List.mem_cons_of_mem e later)
    rw [history, Cache.asks_append, ← (recounts_perform s e).cache, ← List.append_assoc]
    rw [List.append_assoc seen] at rest
    exact rest

/-! ## The beginning -/

theorem sparing_nobody (warmUps : List TaskId) (n : TaskId) (es : List SessionEvent) :
    sparing (fun _ => false) warmUps n es = es := by
  induction es generalizing warmUps n with
  | nil => rfl
  | cons e es ih => cases e <;> simp [sparing, ih]

/-- In every run from a new session, tasks and queries have numbers below the counts. -/
theorem fits_run {r : Roles} (hides : Hides r s s) (visible : r.hidden = [])
    (es : List SessionEvent) : ∃ r', Fits r' (s.run es) := by
  induction es generalizing r s with
  | nil => exact ⟨r, hides.fits⟩
  | cons e es ih =>
    have spared : ∀ task ∈ r.hidden, (fun _ => false) task = true := by simp [visible]
    obtain ⟨r', e', events, spared', performed⟩ := hides.perform_sparing spared e
    have same := events []
    rw [sparing_nobody, sparing_nobody] at same
    obtain rfl : e = e' := (List.cons.inj same).1
    refine ih performed.collect (List.eq_nil_iff_forall_not_mem.mpr fun task member => ?_)
    exact Bool.false_ne_true (spared' task member)

theorem finished_run (none : s.finished = []) (es : List SessionEvent) :
    (s.run es).finished = [] := by
  induction es generalizing s with
  | nil => exact none
  | cons e es ih => exact ih rfl

/-- A new task has asked for nothing. -/
theorem Fits.apart_open {r : Roles} (fits : Fits r s) (caller : Tracer) (cancelled : Bool)
    (ids : List FileId) (jobs : Int) :
    Apart s.tasks [] (s.openWarm caller cancelled ids jobs).2 where
  reachable := fits.reachable
  begun := Nat.lt_succ_self _
  asked := by simp
  started := by simp
  distinct := List.nodup_nil
  asking k member := ⟨Nat.ne_of_lt (fits.tasks k member), fits.asked k member, by simp⟩
  warming w member _ p waits := ⟨(fits.warming w member).asked p waits, by simp⟩

theorem Fits.stage_warm {r : Roles} (fits : Fits r s) (fresh : s.finished = []) (live : Prop)
    (caller : Tracer) {cancelled : Bool} (stays : live → cancelled = false) (ids : List FileId)
    (jobs : Int) :
    Stage ⟨s.tasks, ids, max 1 jobs.toNat, live⟩ []
      (s.provider.cache.asks s.tasks (s.warmDeeds caller cancelled ids jobs)) []
      (s.warm caller cancelled ids jobs).2 := by
  have apart := fits.apart_open caller cancelled ids jobs
  have absent : s.warming.filter (·.task == s.tasks) = [] := by
    refine List.filter_eq_nil_iff.mpr fun w member same => ?_
    have older := (fits.warmUps w.task (fits.warming w member).task).1
    exact Nat.ne_of_lt older (by simpa using same)
  rw [warm_eq]
  cases cancelled with
  | true =>
    have silent : s.warmDeeds caller true ids jobs = [] := advanceDeeds_of_cancelled rfl ids
    obtain ⟨recorder, result, ends⟩ := resume_of_cancelled
      (s := (s.openWarm caller true ids jobs).2) (w := (s.openWarm caller true ids jobs).1) rfl rfl
    rw [ends, silent]
    refine ⟨(apart.leaves_record _).apart.finish _ _, .inr ⟨absent, List.nil_prefix, ?_, ?_⟩⟩
    · exact Nat.zero_le _
    · exact fun live => absurd (stays live) (by simp)
  | false =>
    have attends : Attends ids s.provider.cache [] []
        (s.openWarm caller false ids jobs).1.todo (s.openWarm caller false ids jobs).1 := by
      constructor <;> simp [openWarm]
    refine Attends.resume (s := (s.openWarm caller false ids jobs).2)
      (w := (s.openWarm caller false ids jobs).1) attends apart rfl rfl absent fun result => ?_
    simp [Told, openWarm, fresh]

/-- A warm-up and whatever comes after it. -/
theorem Fits.stage_run {r : Roles} (fits : Fits r s) (fresh : s.finished = []) (caller : Tracer)
    (cancelled : Bool) (ids : List FileId) (jobs : Int) (after : List SessionEvent) :
    let es := .warm caller cancelled ids jobs :: after
    Stage ⟨s.tasks, ids, max 1 jobs.toNat, cancelled = false ∧ .cancel s.tasks ∉ after⟩
      (s.results es) (s.provider.cache.asks s.tasks (s.history es)) [] (s.run es) := by
  intro es
  have begun := fits.stage_warm fresh (cancelled = false ∧ .cancel s.tasks ∉ after) caller And.left
    ids jobs
  have rest := begun.collect.run after And.right
  rw [List.nil_append] at rest
  rw [history, Cache.asks_append, ← (recounts_perform s _).cache]
  exact rest

/-! ## Every run -/

/-- A warm-up that is under way waits for a query of its own. -/
theorem Running.waits (running : Running call seen asks [] s w) (room : 0 < call.limit) :
    ∃ a ∈ asks, ∃ b, s.provider.cache.Waits a.query b := by
  have some : w.waiting ≠ [] := by
    by_cases asked : w.todo = []
    · exact running.busy asked
    · have full := running.full asked
      rw [running.limit] at full
      exact List.ne_nil_of_length_pos (full ▸ room)
  obtain ⟨p, member⟩ := List.exists_mem_of_ne_nil _ some
  obtain ⟨a, asked, same⟩ := List.mem_map.mp (running.attends.own p member)
  rcases running.attends.waits p member with owed | waits
  · cases owed
  · exact ⟨a, asked, same ▸ waits⟩

theorem Stage.order (stage : Stage call seen asks [] s) : asks.map Ask.id <+: call.ids := by
  rcases stage.stands with ⟨w, running⟩ | ended
  · exact ⟨w.todo, running.attends.order⟩
  · exact ended.order

theorem Stage.held_le (stage : Stage call seen asks [] s) :
    held asks s.provider.cache ≤ call.limit := by
  rcases stage.stands with ⟨w, running⟩ | ended
  · exact Nat.le_trans (running.attends.held_le stage.apart.distinct)
      (running.limit ▸ running.attends.within)
  · exact ended.held

/-- A warm-up whose caller stays is over as soon as everything is asked for and nothing waits. -/
theorem Stage.warmed_iff (stage : Stage call seen asks [] s) (live : call.live)
    (room : 0 < call.limit) :
    (Told seen s call.task .warmed ↔ asks.map Ask.id = call.ids ∧
      ∀ a ∈ asks, ∀ b, ¬ s.provider.cache.Waits a.query b) ∧
    ∀ r, Told seen s call.task r → r = .warmed := by
  rcases stage.stands with ⟨w, running⟩ | ended
  · obtain ⟨a, member, b, waits⟩ := running.waits room
    exact ⟨⟨fun told => absurd told (running.quiet _), fun ⟨_, idle⟩ =>
      absurd waits (idle a member b)⟩, fun r told => absurd told (running.quiet r)⟩
  · obtain ⟨order, idle, told, only⟩ := ended.whole live
    exact ⟨⟨fun _ => ⟨order, idle⟩, fun _ => told⟩, only⟩

variable (files : FileSet) (recorder : Recorder) (tracer : Tracer) (model : Model)
  (binder : Binder) (router : Router)

/-- However many tasks run beside it, a warm-up asks for its files in order, each of them once, with
at most one bind begun for each. Of the binds that it began no more are under way than its limit
allows. If its caller stays, it is over, and has warmed, exactly when each of its files has been
answered. -/
theorem warm_up_within_limit (before after : List SessionEvent) (caller : Tracer)
    (cancelled : Bool) (ids : List FileId) (jobs : Int) :
    let s := (new (.new files recorder tracer) model binder router).run before
    let es := .warm caller cancelled ids jobs :: after
    let t := s.run es
    let events := (s.history es).map Deed.event
    let asks := s.provider.cache.asks s.tasks (s.history es)
    t.provider.cache = s.provider.cache.run events ∧
    (held asks t.provider.cache : Int) ≤ max 1 jobs ∧
    asks.map Ask.id <+: ids ∧
    (cancelled = false → .cancel s.tasks ∉ after →
      ((s.tasks, .warmed) ∈ s.results es ↔ asks.map Ask.id = ids ∧
        ∀ a ∈ asks, ∃ answer, .answered a.query answer ∈ s.provider.cache.log events) ∧
      ∀ r, (s.tasks, r) ∈ s.results es → r = .warmed) := by
  intro s es t events asks
  obtain ⟨r, fits⟩ := fits_run (hides_new files recorder tracer model binder router) rfl before
  have stage := fits.stage_run (finished_run rfl before) caller cancelled ids jobs after
  have cache : t.provider.cache = s.provider.cache.run events := (recounts_run s es).cache
  refine ⟨cache, ?_, stage.order, ?_⟩
  · have within := stage.held_le
    have limit : ((max 1 jobs.toNat : Nat) : Int) = max 1 jobs := by omega
    rw [← limit]
    exact_mod_cast within
  · intro stays present
    have room : 0 < max 1 jobs.toNat := Nat.lt_of_lt_of_le Nat.one_pos (Nat.le_max_left _ _)
    obtain ⟨warmed, only⟩ := stage.warmed_iff ⟨stays, present⟩ room
    have told (r : TaskResult) : (s.tasks, r) ∈ s.results es ↔ Told (s.results es) t s.tasks r :=
      (told_of_collected (finished_run rfl after)).symm
    refine ⟨(told _).trans (warmed.trans (and_congr_right fun _ =>
      forall₂_congr fun a member => ?_)), fun r known => only r ((told r).mp known)⟩
    obtain ⟨file?, asked⟩ := Cache.asked_of_mem_asks member
    have waits := fits.reachable.unanswered_iff_waits asked
    rw [← cache] at waits
    rw [← not_exists, ← waits, not_forall_not]

/-- The second warm-up joins the bind that the first one began, waits with a bind of its own, and
begins another one when the first ends. An invalidation comes between, and nothing is stored. -/
theorem warm_up_within_limit_overlapping :
    let use : SymbolUse := ⟨text "x", ⟨0, 0, 1⟩, none, false⟩
    let s := (new (.new .empty (.new (.empty [])) .nop) (.new 0) (fun _ m => (.ok [use], m))
      ⟨.marks, true⟩).run [.add (text "a") (text "x") 0, .add (text "b") (text "x") 0,
        .add (text "c") (text "x") 0, .gate true, .warm .nop false [0] 1]
    let es (after : List SessionEvent) : List SessionEvent :=
      .warm .nop false [0, 1, 2] 2 :: .release 0 :: after
    let asks := s.provider.cache.asks s.tasks (s.history (es []))
    asks = [⟨0, 1, none⟩, ⟨1, 2, some 1⟩, ⟨2, 3, some 2⟩] ∧
      held asks (s.run (es [])).provider.cache = 2 ∧ (1, .warmed) ∉ s.results (es []) ∧
      (1, .warmed) ∈ s.results (es [.invalidate .cache, .release 2, .release 1]) := by
  intro use s es asks
  have law := (warm_up_within_limit .empty (.new (.empty [])) .nop (.new 0)
    (fun _ m => (.ok [use], m)) ⟨.marks, true⟩ [.add (text "a") (text "x") 0,
      .add (text "b") (text "x") 0, .add (text "c") (text "x") 0, .gate true,
      .warm .nop false [0] 1] [.release 0, .invalidate .cache, .release 2, .release 1] .nop false
    [0, 1, 2] 2).2.2.2 rfl (by decide +kernel)
  refine ⟨by decide +kernel, by decide +kernel, by decide +kernel, law.1.mpr ?_⟩
  let whole := s.history (es [.invalidate .cache, .release 2, .release 1])
  let seen := s.provider.cache.log (whole.map Deed.event)
  have asked : s.provider.cache.asks s.tasks whole = asks := by decide +kernel
  have answered : asks.map Ask.id = [0, 1, 2] ∧ ∀ a ∈ asks,
      .answered a.query (.ofBind (a.query - 1) [use]) ∈ seen := by
    decide +kernel
  rw [← asked] at answered
  exact ⟨answered.1, fun a member => ⟨_, answered.2 a member⟩⟩

end Session
end UnionAtlas
