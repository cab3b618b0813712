import Mathlib.Data.Finset.Card
import UnionAtlas.Proofs.Model.Names

/-!
# Name tables and their calls

A name table is made by calls that add a name or ask for one. Over any list of calls the names stand
in the table once each, in the order in which they were added, so names and numbers determine each
other: no two names share a number, no number changes, and the numbers up to the size of the table
are those that some call has answered.
-/

namespace UnionAtlas

/-- A call of a name table. -/
inductive NameCall where
  | intern (s : Bytes)
  | find (s : Bytes)
  deriving Repr, DecidableEq

/-- The names that calls add. -/
def NameCall.interned (calls : List NameCall) : List Bytes :=
  calls.filterMap fun
    | .intern s => some s
    | .find _ => none

namespace NameTable

/-- The answer to a call, and the table after it. -/
def call (t : NameTable) : NameCall → Option NameId × NameTable
  | .intern s => (some (t.intern s).1, (t.intern s).2)
  | .find s => (t.find? s, t)

/-- The table after a list of calls. -/
def run (t : NameTable) (calls : List NameCall) : NameTable :=
  calls.foldl (fun t c => (t.call c).2) t

/-- One of the calls answers with the number. -/
def Answers (calls : List NameCall) (id : NameId) : Prop :=
  ∃ earlier c later, calls = earlier ++ c :: later ∧ ((empty.run earlier).call c).1 = some id

variable {t : NameTable} {s s' : Bytes} {id : NameId}

theorem run_append (t : NameTable) (calls later : List NameCall) :
    t.run (calls ++ later) = (t.run calls).run later :=
  List.foldl_append

/-! ## One call -/

theorem mem_names_intern (t : NameTable) (s : Bytes) :
    s' ∈ (t.intern s).2.names ↔ s' ∈ t.names ∨ s' = s := by
  unfold intern
  split
  · next id found =>
    have known : s ∈ t.names := List.mem_of_getElem? (lookup?_of_find? found)
    constructor
    · exact .inl
    · rintro (old | rfl)
      · exact old
      · exact known
  · rw [List.mem_append, List.mem_singleton]

theorem names_isPrefix_call (t : NameTable) (c : NameCall) : t.names <+: (t.call c).2.names := by
  cases c with
  | intern s => exact t.names_isPrefix_intern s
  | find s => exact List.prefix_rfl

theorem nodup_call (distinct : t.names.Nodup) (c : NameCall) : (t.call c).2.names.Nodup := by
  cases c with
  | intern s => exact nodup_intern distinct s
  | find s => exact distinct

/-- The number that a call answers with is the number of its name from then on. -/
theorem exists_lookup?_of_answer {c : NameCall} (answered : (t.call c).1 = some id) :
    ∃ s, (t.call c).2.lookup? id = some s := by
  cases c with
  | intern s =>
    obtain rfl : (t.intern s).1 = id := Option.some.inj answered
    exact ⟨s, t.lookup?_intern s⟩
  | find s => exact ⟨s, lookup?_of_find? answered⟩

/-! ## Lists of calls -/

theorem names_isPrefix_run (t : NameTable) (calls : List NameCall) :
    t.names <+: (t.run calls).names := by
  induction calls generalizing t with
  | nil => exact List.prefix_rfl
  | cons c calls ih => exact (t.names_isPrefix_call c).trans (ih _)

theorem nodup_run (distinct : t.names.Nodup) (calls : List NameCall) :
    (t.run calls).names.Nodup := by
  induction calls generalizing t with
  | nil => exact distinct
  | cons c calls ih => exact ih (nodup_call distinct c)

theorem mem_names_run (t : NameTable) (calls : List NameCall) :
    s ∈ (t.run calls).names ↔ s ∈ t.names ∨ s ∈ NameCall.interned calls := by
  induction calls generalizing t with
  | nil =>
    change s ∈ t.names ↔ s ∈ t.names ∨ s ∈ []
    simp
  | cons c calls ih =>
    change s ∈ ((t.call c).2.run calls).names ↔ _
    rw [ih]
    cases c with
    | intern added =>
      change _ ∈ (t.intern added).2.names ∨ _ ↔ _ ∨ _ ∈ added :: NameCall.interned calls
      rw [mem_names_intern, List.mem_cons, or_assoc]
    | find asked => rfl

/-- Only the names that are added matter. -/
theorem run_eq_internAll (t : NameTable) (calls : List NameCall) :
    t.run calls = (t.internAll (NameCall.interned calls)).2 := by
  induction calls generalizing t with
  | nil => rfl
  | cons c calls ih =>
    cases c with
    | intern s => exact ih _
    | find s => exact ih t

theorem lookup?_run (known : t.lookup? id = some s) (calls : List NameCall) :
    (t.run calls).lookup? id = some s :=
  getElem?_of_extends (t.names_isPrefix_run calls) known

theorem isSome_lookup?_iff (t : NameTable) (id : NameId) :
    (t.lookup? id).isSome ↔ id < t.size := by
  rw [lookup?, Option.isSome_iff_ne_none, Ne, List.getElem?_eq_none_iff, Nat.not_le]
  rfl

/-- Two additions, whatever comes between them, answer alike only for one and the same name. -/
theorem intern_eq_intern_iff (distinct : t.names.Nodup) (s : Bytes) (between : List NameCall)
    (s' : Bytes) :
    (t.intern s).1 = (((t.intern s).2.run between).intern s').1 ↔ s = s' := by
  have later : ((((t.intern s).2.run between).intern s').2).names.Nodup :=
    nodup_intern (nodup_run (nodup_intern distinct s) between) s'
  have first : (((t.intern s).2.run between).intern s').2.lookup? (t.intern s).1 = some s :=
    getElem?_of_extends (names_isPrefix_intern _ s') (lookup?_run (t.lookup?_intern s) between)
  have second := ((t.intern s).2.run between).lookup?_intern s'
  constructor
  · intro same
    rw [same, second] at first
    exact (Option.some.inj first).symm
  · rintro rfl
    exact lookup?_inj later first second

theorem lookup?_of_answers {calls : List NameCall} (answers : Answers calls id) :
    ∃ s, (empty.run calls).lookup? id = some s := by
  obtain ⟨earlier, c, later, rfl, answered⟩ := answers
  obtain ⟨s, known⟩ := exists_lookup?_of_answer answered
  refine ⟨s, ?_⟩
  rw [run_append]
  exact lookup?_run known later

theorem answers_of_interned {calls : List NameCall} (added : s ∈ NameCall.interned calls) :
    ∃ id, Answers calls id ∧ (empty.run calls).lookup? id = some s := by
  obtain ⟨c, member, same⟩ := List.mem_filterMap.mp added
  obtain ⟨earlier, later, rfl⟩ := List.append_of_mem member
  cases c with
  | find asked => cases same
  | intern name =>
    obtain rfl : name = s := Option.some.inj same
    refine ⟨((empty.run earlier).intern name).1, ⟨earlier, .intern name, later, rfl, rfl⟩, ?_⟩
    rw [run_append]
    exact lookup?_run ((empty.run earlier).lookup?_intern name) later

/-! ## Lists of calls to a new table -/

theorem nodup_of_calls (calls : List NameCall) : (empty.run calls).names.Nodup :=
  nodup_run nodup_empty calls

theorem mem_names_of_calls (calls : List NameCall) (s : Bytes) :
    s ∈ (empty.run calls).names ↔ s ∈ [] :: NameCall.interned calls := by
  rw [List.mem_cons, ← List.mem_singleton]
  exact mem_names_run empty calls

theorem lookup?_zero_of_calls (calls : List NameCall) :
    (empty.run calls).lookup? 0 = some [] :=
  lookup?_run (t := empty) rfl calls

/-- Zero is the number of the empty name; every other number was the answer to a call. -/
theorem lt_size_iff_answers (calls : List NameCall) (id : NameId) :
    id < (empty.run calls).size ↔ id = 0 ∨ Answers calls id := by
  rw [← isSome_lookup?_iff, Option.isSome_iff_exists]
  constructor
  · rintro ⟨s, known⟩
    have distinct := nodup_of_calls calls
    have member := (mem_names_of_calls calls s).mp (List.mem_of_getElem? known)
    rcases List.mem_cons.mp member with rfl | added
    · exact .inl (lookup?_inj distinct known (lookup?_zero_of_calls calls))
    · obtain ⟨id', answers, known'⟩ := answers_of_interned added
      obtain rfl := lookup?_inj distinct known known'
      exact .inr answers
  · rintro (rfl | answers)
    · exact ⟨[], lookup?_zero_of_calls calls⟩
    · exact lookup?_of_answers answers

theorem size_of_calls (calls : List NameCall) :
    (empty.run calls).size = ([] :: NameCall.interned calls).toFinset.card := by
  rw [← List.toFinset.ext (mem_names_of_calls calls),
    List.toFinset_card_of_nodup (nodup_of_calls calls)]
  rfl

/-- After any calls the numbers are those below the size, which are zero and the ones that calls
have answered with; a name is found under a number exactly if it stands under it; two additions
answer alike exactly if they add the same name; the empty name has number zero; asking changes
nothing; the size counts the different names that were added, and the empty one; and later calls
only add names at the end. -/
theorem names_and_numbers_of_calls (calls : List NameCall) :
    let t := empty.run calls
    (∀ id, id < t.size ↔ id = 0 ∨ Answers calls id) ∧
    (∀ id, (t.lookup? id).isSome ↔ id < t.size) ∧
    (∀ s id, t.find? s = some id ↔ t.lookup? id = some s) ∧
    (∀ s between s',
      (t.intern s).1 = (((t.intern s).2.run between).intern s').1 ↔ s = s') ∧
    t.find? [] = some 0 ∧ t.intern [] = (0, t) ∧
    (∀ s, (t.call (.find s)).2 = t) ∧ t = (empty.internAll (NameCall.interned calls)).2 ∧
    t.size = ([] :: NameCall.interned calls).toFinset.card ∧
    ∀ later, t.names <+: (empty.run (calls ++ later)).names := by
  intro t
  have distinct : t.names.Nodup := nodup_of_calls calls
  have found : t.find? [] = some 0 := find?_of_lookup? distinct (lookup?_zero_of_calls calls)
  refine ⟨lt_size_iff_answers calls, t.isSome_lookup?_iff, ?_, intern_eq_intern_iff distinct,
    found, ?_, fun s => rfl, run_eq_internAll empty calls, size_of_calls calls, ?_⟩
  · intro s id
    exact ⟨lookup?_of_find?, find?_of_lookup? distinct⟩
  · rw [intern, found]
  · intro later
    rw [run_append]
    exact t.names_isPrefix_run later

end NameTable
end UnionAtlas
