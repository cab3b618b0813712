import UnionAtlas.Cli.Run
import UnionAtlas.Proofs.Handle.Survival
import UnionAtlas.Proofs.Model.TagOrdinals
import UnionAtlas.Proofs.Text.WrittenHex
import UnionAtlas.Proofs.Workspace.Unions

/-!
# Handles on the command line

A handle that one run prints is meant to be given to another run. Between the two stand names that
are brought to one form, a description that is turned into a model, the stored form and its digits,
and the lookup of names; the second run reads the workspace anew. This module follows a case that
a description lists through all of them.
-/

namespace UnionAtlas

/-- The description lists a case at a position of a union. Names are compared in normal form. -/
def Description.Lists (d : Description) (union case : Bytes) (n : Nat) : Prop :=
  ∃ u ∈ d.unions, identifier u.name = union ∧ (u.cases.map identifier)[n]? = some case

namespace Workspace

variable {ws : Workspace} {d : Description} {union case : Bytes} {n : Nat}

/-- A listed case is found by its two names, at the described position, and its tag has the two
names. -/
theorem Faithful.resolves (faithful : Faithful d.unions ws) (listed : d.Lists union case n) :
    ∃ uc, ws.model.resolveCase? union case = some uc ∧ ws.model.tagIndex? uc = some n ∧
      ws.model.tagPath uc = union ++ text "." ++ tagsName ++ text "." ++ case ∧
      ws.model.handleOf .tag uc = ⟨.tag, union, case⟩ ∧
      ∃ place, ws.model.types.unionPlace? uc.union = some place := by
  obtain ⟨u, described, rfl, position⟩ := listed
  obtain ⟨id, declares⟩ := faithful.declared described
  have distinct := faithful.reachable.names_nodup
  have sound := faithful.reachable.sound
  obtain ⟨name, unionNamed, current, registered⟩ := declares.named
  obtain ⟨uc, here, caseNamed, first⟩ := declares.find? position
  obtain ⟨place, found, member⟩ := TypeTable.place_of_mem_cases (List.mem_of_getElem? here)
  have placed := sound.placed place uc member
  have owner : uc.union = id := faithful.linked.numbered placed found
  obtain ⟨info, known, rfl⟩ := Option.map_eq_some_iff.mp registered
  rw [← owner] at known
  refine ⟨uc, ?_, sound.indexOf?_of_getElem? here, ?_, ?_, place, placed⟩
  · rw [Model.resolveCase?_of_names distinct unionNamed caseNamed current, first]
  · simp only [Model.tagPath, known, Model.nameOf_of_lookup? unionNamed,
      Model.nameOf_of_lookup? caseNamed]
  · exact Model.handleOf_of_names .tag known unionNamed caseNamed

end Workspace

namespace Cli

variable {ws : Workspace} {d : Description} {union case : Bytes} {n : Nat}

/-! ## Command lines -/

theorem locate_handle (args : List Bytes) :
    locate (text "handle" :: args) = .command .handle args := by
  have plain : takesNext (text "handle") = false := by decide
  have other : text "handle" ≠ dashes := by decide
  have named : Command.ofName? (text "handle") = some .handle := by decide
  have first : text "handle" ≠ [] ∧ (text "handle").head? ≠ some dash := by decide
  have words : plainWords (text "handle" :: args) = text "handle" :: plainWords args := by
    rw [plainWords.eq_def]
    simp only [plain, other, first, if_false, if_true, Bool.false_eq_true, ne_eq, not_false_eq_true,
      and_self]
  have rest : removeWord (text "handle") (text "handle" :: args) = args := by
    rw [removeWord.eq_def]
    simp only [plain, other, if_false, if_true, Bool.false_eq_true]
  simp only [locate, words, named, rest]

theorem parseWords_plain {switches : List Switch} {p : Parsed} {word : Bytes} (rest : List Bytes)
    (plain : word.head? ≠ some dash) :
    parseWords switches p (word :: rest) =
      parseWords switches { p with args := p.args ++ [word] } rest := by
  rw [parseWords, if_pos (.inl plain)]

/-- A path and a reference that do not look like switches are the arguments. -/
theorem parse_handle {path ref : Bytes} (plain : path.head? ≠ some dash)
    (plain' : ref.head? ≠ some dash) :
    parse [text "handle", path, ref] = .ok (.run .handle ⟨[], [path, ref]⟩) := by
  simp only [parse, locate_handle]
  rw [parseWords_plain _ plain, parseWords_plain _ plain']
  rfl

theorem parse_handle_decode {path written : Bytes} (plain : path.head? ≠ some dash) :
    parse [text "handle", text "--decode", written, path] =
      .ok (.run .handle ⟨[(text "decode", written)], [path]⟩) := by
  have read (p : Parsed) (rest : List Bytes) :
      parseWords (Switch.ofCommand (some .handle)) p (text "--decode" :: written :: rest) =
        parseWords (Switch.ofCommand (some .handle))
          { p with values := (text "decode", written) :: p.values } rest := by
    rw [parseWords]
    rfl
  simp only [parse, locate_handle]
  rw [read, parseWords_plain _ plain]
  rfl

/-! ## The two directions -/

/-- A stored handle is read from its digits, however these are written. -/
theorem decodeHandle_of_written {m : Model} {h : Handle} {written : Bytes} {e : Element}
    (fits : h.Fits) (writing : WrittenAs written (Bytes.hex h.encode))
    (resolved : m.resolveHandle? h = some e) : decodeHandle m written = .ok e := by
  have read := Handle.decode_encode fits []
  rw [List.append_nil] at read
  rw [decodeHandle, unhex_trim writing]
  simp only [Except.mapError, bind, Except.bind, read, resolved, pure, Except.pure]

theorem roundTrip_ok {m : Model} {uc : UnionCase} {place : Nat}
    (fits : (m.handleOf .tag uc).Fits) (found : m.types.unionPlace? uc.union = some place)
    (resolved : m.resolveHandle? (m.handleOf .tag uc) = some (.tag uc)) :
    roundTrip m uc (m.handleOf .tag uc).encode = .ok () := by
  have equal : ((Universe.single m).equal ⟨0, .tag uc⟩ ⟨0, .tag uc⟩).1 = true :=
    Universe.equal_tags rfl found found
  rw [roundTrip, decodeHandle_of_written fits (writtenAs_self _) resolved]
  simp only [bind, Except.bind, equal, if_true, pure, Except.pure]

/-! ## Runs -/

/-- A run of `handle` that finds its workspace: the command line is read as the given arguments and
the given text to decode, the job begins, and the file that the first argument names holds the
description, which is accepted. -/
def HandleRun (s : Surroundings) (words args : List Bytes) (decode : Bytes) (d : Description) :
    Prop :=
  ∃ p job content document,
    parse words = .ok (.run .handle p) ∧ p.args = args ∧ (p.get? "decode").getD [] = decode ∧
    Job.start s .handle p = .ok job ∧
    let disk := (job.beginInner .provider (text "load workspace")).2.recorder.disk
    disk.content (args.headD []) = .ok content ∧
    Toml.read content Description.reader = .ok (d, document) ∧
    (Workspace.load disk (args.headD [])).isOk = true

/-- The run succeeds and prints a text. -/
def Prints (s : Surroundings) (words : List Bytes) (out : Bytes) : Prop :=
  (run s words).ok = true ∧ (run s words).out = out

theorem out_of_start {s : Surroundings} {c : Command} {p : Parsed} {job : Job}
    (started : Job.start s c p = .ok job) : job.out = [] := by
  unfold Job.start at started
  obtain ⟨config, -, started⟩ := ok_of_bind started
  obtain ⟨useColor, -, started⟩ := ok_of_bind started
  obtain ⟨trace, -, started⟩ := ok_of_bind started
  obtain ⟨⟨tracer, recorder⟩, -, started⟩ := ok_of_bind started
  obtain rfl := Except.ok.inj started
  rfl

theorem loadWorkspace_ok {j : Job} {path : Bytes}
    (loaded : Workspace.load (j.beginInner .provider (text "load workspace")).2.recorder.disk path =
      .ok ws) :
    ∃ j', j.loadWorkspace path = (.ok ws, j') ∧ j'.out = j.out := by
  simp only [Job.loadWorkspace, loaded]
  exact ⟨_, rfl, rfl⟩

theorem makeHandle_ok {j : Job} {written : Bytes} {uc : UnionCase}
    (named : parseCaseRef written = .ok (union, case))
    (resolved : ws.model.resolveCase? union case = some uc)
    (back : roundTrip ws.model uc (ws.model.handleOf .tag uc).encode = .ok ()) :
    ∃ j', makeHandle ws written j = (.ok (), j') ∧
      j'.out = j.out ++ (text "handle:   " ++ Bytes.hex (ws.model.handleOf .tag uc).encode
        ++ text "\nresolves: " ++ ws.model.tagPath uc ++ text " = "
        ++ (ws.model.tagConstant uc).render ++ text "\n") := by
  simp only [makeHandle, named, resolved, back]
  exact ⟨_, rfl, rfl⟩

theorem showHandle_ok {j : Job} {written : Bytes} {e : Element}
    (decoded : decodeHandle ws.model written = .ok e) :
    ∃ j', showHandle ws written j = (.ok (), j') ∧
      j'.out = j.out ++ (text "resolves: " ++ e.render ws.model ++ text "\n") := by
  simp only [showHandle, decoded]
  exact ⟨_, rfl, rfl⟩

/-- The end of a job prints nothing more. -/
theorem prints_of_runHandle {s : Surroundings} {words : List Bytes} {p : Parsed} {job j : Job}
    (asked : parse words = .ok (.run .handle p)) (started : Job.start s .handle p = .ok job)
    (done : runHandle p.args ((p.get? "decode").getD []) job = (.ok (), j)) :
    Prints s words j.out := by
  have body : runBody s .handle p job = (.ok (), j) := done
  simp only [Prints, run, asked, runCommand, started, body]
  exact ⟨trivial, rfl⟩

section Run

variable {s : Surroundings} {words args : List Bytes} {decode : Bytes}

/-- A run has loaded a workspace that is faithful to its description, and nothing is printed yet. -/
theorem HandleRun.loaded (running : HandleRun s words args decode d) :
    ∃ p job ws j, parse words = .ok (.run .handle p) ∧ p.args = args ∧
      (p.get? "decode").getD [] = decode ∧ Job.start s .handle p = .ok job ∧
      job.loadWorkspace (args.headD []) = (.ok ws, j) ∧ j.out = [] ∧
      ws.Faithful d.unions := by
  obtain ⟨p, job, content, document, asked, given, decoded, started, found, read, accepted⟩ :=
    running
  cases loaded : Workspace.load (job.beginInner .provider (text "load workspace")).2.recorder.disk
      (args.headD []) with
  | error e =>
    rw [loaded] at accepted
    cases accepted
  | ok ws =>
    obtain ⟨j, after, out⟩ := loadWorkspace_ok loaded
    exact ⟨p, job, ws, j, asked, given, decoded, started, after, out.trans (out_of_start started),
      Workspace.faithful_of_load found read loaded⟩

theorem HandleRun.shows {shown : Bytes} (running : HandleRun s words args decode d)
    (given : decode ≠ [])
    (shows : ∀ ws : Workspace, ws.Faithful d.unions →
      ∃ e, decodeHandle ws.model decode = .ok e ∧ e.render ws.model = shown) :
    Prints s words (text "resolves: " ++ shown ++ text "\n") := by
  obtain ⟨p, job, ws, j, asked, rfl, rfl, started, loaded, out, faithful⟩ := running.loaded
  obtain ⟨e, decoded, rfl⟩ := shows ws faithful
  obtain ⟨j', done, printed⟩ := showHandle_ok (j := j) decoded
  rw [out, List.nil_append] at printed
  rw [← printed]
  apply prints_of_runHandle asked started
  rw [runHandle]
  simp only [loaded]
  rw [if_pos given, done]

theorem HandleRun.makes {path written : Bytes} (running : HandleRun s words [path, written] [] d)
    (named : parseCaseRef written = .ok (union, case)) (listed : d.Lists union case n)
    (fits : Handle.Fits ⟨.tag, union, case⟩) :
    ∃ value, (n < 2 ^ 31 → value = Bytes.decimal n) ∧
      (2 ^ 31 ≤ n → value = text "<bad>") ∧
      Prints s words (text "handle:   " ++ Bytes.hex (Handle.encode ⟨.tag, union, case⟩)
        ++ text "\nresolves: " ++ (union ++ text "." ++ tagsName ++ text "." ++ case)
        ++ text " = " ++ value ++ text "\n") := by
  obtain ⟨p, job, ws, j, asked, given, none, started, loaded, out, faithful⟩ := running.loaded
  obtain ⟨uc, resolved, index, path, handle, place, found⟩ := faithful.resolves listed
  have back : roundTrip ws.model uc (ws.model.handleOf .tag uc).encode = .ok () := by
    apply roundTrip_ok (handle ▸ fits) found
    rw [handle, Model.resolveHandle?, resolved]
    rfl
  refine ⟨(ws.model.tagConstant uc).render, ?_, ?_, ?_⟩
  · intro small
    rw [Model.tagConstant_of_index index small]
    rfl
  · intro large
    rw [Model.tagConstant_eq_bad_of_index index large]
    rfl
  · obtain ⟨j', done, printed⟩ := makeHandle_ok (j := j) named resolved back
    rw [out, List.nil_append, handle, path] at printed
    rw [← printed]
    apply prints_of_runHandle asked started
    rw [given, none, runHandle]
    simp only [loaded]
    exact done

end Run

/-! ## The round trip -/

theorem eq_of_cut? {sep : UInt8} {bs before after : Bytes}
    (found : Bytes.cut? sep bs = some (before, after)) : bs = before ++ sep :: after := by
  induction bs generalizing before with
  | nil => cases found
  | cons b bs ih =>
    rw [Bytes.cut?] at found
    split at found
    · next here =>
      obtain ⟨rfl, rfl⟩ := Prod.mk.inj (Option.some.inj found)
      rw [beq_iff_eq.mp here]
      rfl
    · obtain ⟨⟨front, rest⟩, later, same⟩ := Option.map_eq_some_iff.mp found
      obtain ⟨rfl, rfl⟩ := Prod.mk.inj same
      rw [ih later]
      rfl

/-- The two names of a reference are shorter than the reference. -/
theorem fits_of_parseCaseRef {ref : Bytes} (short : (identifier ref).length < 2 ^ 32)
    (named : parseCaseRef ref = .ok (union, case)) : Handle.Fits ⟨.tag, union, case⟩ := by
  simp only [parseCaseRef] at named
  split at named
  · cases named
  · next first second found =>
    split at named
    · cases named
    · obtain ⟨rfl, rfl⟩ := Prod.mk.inj (Except.ok.inj named)
      rw [eq_of_cut? found, List.length_append, List.length_cons] at short
      exact ⟨by simp only; omega, by simp only; omega⟩

theorem ne_nil_of_writtenAs {h : Handle} {written : Bytes}
    (writing : WrittenAs written (Bytes.hex h.encode)) : written ≠ [] := by
  rintro rfl
  have read := unhex_trim writing
  have empty : trim [] = [] := by
    rw [trim, Utf8.runes]
    rfl
  rw [empty] at read
  cases Except.ok.inj read

/-- A case that a description lists is turned into a handle, and the run prints the tag with the
position of the case, or with the bad constant where the position is no thirty-two bit number.
Another run that is given the digits of the handle, in large or small letters and between blanks, on
any workspace that lists the case, finds the tag again. The reference, an argument of a command
line, is taken to be short enough for its names to be stored. -/
theorem printed_handle_resolves {s : Surroundings} {words : List Bytes} {path ref : Bytes}
    (running : HandleRun s words [path, ref] [] d) (named : parseCaseRef ref = .ok (union, case))
    (short : (identifier ref).length < 2 ^ 32) (listed : d.Lists union case n) :
    let tag := union ++ text "." ++ tagsName ++ text "." ++ case
    let digits := Bytes.hex (Handle.encode ⟨.tag, union, case⟩)
    (∃ value, (n < 2 ^ 31 → value = Bytes.decimal n) ∧
      (2 ^ 31 ≤ n → value = text "<bad>") ∧
      Prints s words (text "handle:   " ++ digits ++ text "\nresolves: " ++ tag ++ text " = "
        ++ value ++ text "\n")) ∧
    ∀ s' words' args' written d' n', HandleRun s' words' args' written d' →
      WrittenAs written digits → d'.Lists union case n' →
      Prints s' words' (text "resolves: " ++ tag ++ text "\n") := by
  have fits := fits_of_parseCaseRef short named
  refine ⟨running.makes named listed fits, ?_⟩
  intro s' words' args' written d' n' running' writing listed'
  apply running'.shows (ne_nil_of_writtenAs writing)
  intro ws faithful
  obtain ⟨uc, resolved, -, path, -⟩ := faithful.resolves listed'
  refine ⟨.tag uc, decodeHandle_of_written fits writing ?_, path⟩
  rw [Model.resolveHandle?, resolved]
  rfl

/-- A workspace file in which a union has two cases. -/
def shapes : Bytes :=
  text "[[union]]\nname = \"Shape\"\ncases = [\"Circle\", \"Square\"]\n"

/-- What the file describes. -/
def shapesDescription : Description :=
  ⟨[⟨text "Shape", [text "Circle", text "Square"]⟩], []⟩

/-- A directory with the file and nothing else. -/
def besideShapes : Surroundings where
  disk := ⟨[], [([text "w"], .file shapes)]⟩
  build := ⟨[], []⟩
  now := ⟨0, 0, 0⟩
  elapsed _ := 0

theorem handleRun_besideShapes {words : List Bytes} {p : Parsed}
    (asked : parse words = .ok (.run .handle p)) (named : p.args.headD [] = text "w")
    (started : (Job.start besideShapes .handle p).map (fun job =>
      (job.beginInner .provider (text "load workspace")).2.recorder.disk) =
        .ok besideShapes.disk) :
    HandleRun besideShapes words p.args ((p.get? "decode").getD []) shapesDescription := by
  obtain ⟨job, begun, disk⟩ := ok_of_map started
  have read : (Toml.read shapes Description.reader).map (·.1) = .ok shapesDescription := by
    decide +kernel
  obtain ⟨⟨d, document⟩, reads, same⟩ := ok_of_map read
  obtain rfl : d = shapesDescription := same
  refine ⟨p, job, shapes, document, asked, rfl, rfl, begun, ?_, reads, ?_⟩
  · rw [disk, named]
    decide +kernel
  · rw [disk, named]
    decide +kernel

/-- The digits of the handle of the second case with most letters large, after a blank and before
a wide one. -/
def squareHandle : Bytes :=
  text " 84A176CD0001A16BCC02A175a55368617065A163A6537175617265\u3000"

theorem printed_handle_resolves_between_blanks :
    Prints besideShapes [text "handle", text "w", text "Shape.Square"]
        (text "handle:   84a176cd0001a16bcc02a175a55368617065a163a6537175617265\n" ++
          text "resolves: Shape.Tags.Square = 1\n") ∧
      Prints besideShapes [text "handle", text "--decode", squareHandle, text "w"]
        (text "resolves: Shape.Tags.Square\n") := by
  have listed : shapesDescription.Lists (text "Shape") (text "Square") 1 :=
    ⟨_, List.mem_cons_self, by decide +kernel, by decide +kernel⟩
  have making : HandleRun besideShapes [text "handle", text "w", text "Shape.Square"]
      [text "w", text "Shape.Square"] [] shapesDescription :=
    handleRun_besideShapes (parse_handle (by decide) (by decide)) rfl (by decide +kernel)
  have showing : HandleRun besideShapes [text "handle", text "--decode", squareHandle, text "w"]
      [text "w"] squareHandle shapesDescription :=
    handleRun_besideShapes (parse_handle_decode (by decide)) rfl (by decide +kernel)
  have writing : WrittenAs squareHandle
      (Bytes.hex (Handle.encode ⟨.tag, text "Shape", text "Square"⟩)) :=
    ⟨text " ", text "84A176CD0001A16BCC02A175a55368617065A163A6537175617265", text "\u3000",
      ⟨[0x20], by decide, by decide⟩, by decide +kernel, ⟨[0x3000], by decide, by decide⟩,
      by decide +kernel⟩
  obtain ⟨⟨value, position, -, printed⟩, shows⟩ :=
    printed_handle_resolves making (by decide +kernel) (by decide +kernel) listed
  rw [position (by decide)] at printed
  have shown := shows _ _ _ _ _ _ showing writing listed
  exact ⟨⟨printed.1, printed.2.trans (by decide +kernel)⟩,
    ⟨shown.1, shown.2.trans (by decide +kernel)⟩⟩

end Cli
end UnionAtlas
