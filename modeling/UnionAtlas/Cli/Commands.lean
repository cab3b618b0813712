import UnionAtlas.Cli.Job
import UnionAtlas.Symbols.Session
import UnionAtlas.Table
import UnionAtlas.Text.JsonText
import UnionAtlas.Universe

/-!
# Commands

The four commands: `tags` lists the tags of every union, `symbols` shows the symbols of one file,
`handle` turns a tag into a handle or a handle into an element, and `version` tells the version.
-/

namespace UnionAtlas
namespace Cli

/-- The columns of a tag: its full name, its position, its value, its type and its kind. -/
def tagRow (m : Model) (paintMissing : Bytes → Bytes) (uc : UnionCase) : List Bytes :=
  let tag := Element.tag uc
  [m.tagPath uc,
    (match m.tagIndex? uc with
     | some i => Bytes.decimal i
     | none => paintMissing (text "undefined")),
    (m.tagConstant uc).render,
    m.label Model.tagType,
    tag.kind.render]

/-- Lists the tags of every union. -/
def runTags (args : List Bytes) : Step Unit := fun j =>
  match j.loadWorkspace (args.headD []) with
  | (.error e, j) => (.error e, j)
  | (.ok ws, j) =>
    if ws.unions.isEmpty then (.ok (), j.print (text "no unions\n"))
    else
      let rows := (ws.unions.flatMap ws.model.types.cases).map
        (tagRow ws.model (j.paint "33"))
      let table : Table :=
        ⟨[text "MEMBER", text "INDEX", text "VALUE", text "TYPE", text "KIND"], rows⟩
      (.ok (), j.print table.render)

/-- The columns of a use: its place, name, kind, element and role. -/
def useRow (m : Model) (paintDecl : Bytes → Bytes) (u : SymbolUse) : List Bytes :=
  let describe (f : Element → Bytes) : Bytes := (u.element.map f).getD (text "-")
  [u.span.render, u.name, describe (·.kind.render), describe (·.render m),
    if u.isDecl then paintDecl (text "decl") else text "use"]

/-- The symbols of a file, asked for through the router. -/
def askSymbols (s : Session) (caller : Tracer) (id : FileId) : FileSymbols × Session :=
  let (task, s) := s.query .router caller false .symbols id
  let (finished, s) := s.collect
  match finished.find? (·.1 == task) with
  | some (_, .answer _ a) => (a.symbols, s)
  | _ => (.empty, s)

/-- Did the warm-up fail? -/
def warmFailed (task : TaskId) (finished : List (TaskId × TaskResult)) : Bool :=
  finished.any fun p => p.1 == task && p.2 = .warmCancelled

/-- Prints the symbols of a file. -/
def printSymbols (j : Job) (m : Model) (kind : FileKind) (symbols : FileSymbols) : Job :=
  if symbols.isEmpty then
    if kind = .misc then
      j.print (j.paint "90" (text "misc file: no resolved symbols") ++ text "\n")
    else j.print (text "no symbols\n")
  else
    let rows := (symbols.declared ++ symbols.resolved).map (useRow m (j.paint "32"))
    let table : Table :=
      ⟨[text "SPAN", text "NAME", text "KIND", text "ELEMENT", text "ROLE"], rows⟩
    j.print table.render

/-- Shows the symbols of one file, after all files were bound if that is asked for. -/
def runSymbols (args : List Bytes) (warm : Bool) : Step Unit := fun j =>
  let description := args.headD []
  let path := args.tail.headD []
  match j.loadWorkspace description with
  | (.error e, j) => (.error e, j)
  | (.ok ws, j) =>
    match ws.files.latest? path with
    | none => (.error (.noFile description path), j)
    | some file =>
      let router : Router := ⟨.endings j.config.miscEndings, true⟩
      let session := Session.new (.new ws.files j.recorder j.tracer) ws.model ws.binder router
      let (session, j, failed) :=
        if warm then
          let (task, session) := session.warm j.tracer false ws.order j.config.warmJobs
          let (finished, session) := session.collect
          let failed := warmFailed task finished
          (session, j.phase "warm" failed, failed)
        else (session, j, false)
      if failed then (.error .warm, { j with recorder := session.provider.recorder })
      else
        let kind := router.kind ws.files file
        let (symbols, session) := askSymbols session j.tracer file
        let j := { j.phase "resolve" false with recorder := session.provider.recorder }
        let j := j.print (path ++ text " (" ++ kind.render ++ text ")\n")
        let j := printSymbols j session.model kind symbols
        if symbols.isEmpty then (.ok (), j)
        else
          let counts := session.provider.cache.counts
          let detail := text "hits=" ++ Bytes.decimal counts.hits ++ text " misses="
            ++ Bytes.decimal counts.misses
          (.ok (), { j with
            recorder := j.recorder.point j.tracer .session (text "cache") detail })

/-- The element that a written handle stands for. -/
def decodeHandle (m : Model) (written : Bytes) : Except Failure Element := do
  let data ← (unhex (trim written)).mapError .hex
  let handle ← (Handle.decode data).mapError .handle
  match m.resolveHandle? handle with
  | none => throw .stale
  | some element => return element

/-- Does a handle of a tag lead back to the tag? -/
def roundTrip (m : Model) (uc : UnionCase) (data : Bytes) : Except Failure Unit := do
  let back ← decodeHandle m (Bytes.hex data)
  if ((Universe.single m).equal ⟨0, back⟩ ⟨0, .tag uc⟩).1 then return () else throw .notRoundTrip

/-- Shows the element of a written handle. -/
def showHandle (ws : Workspace) (written : Bytes) : Step Unit := fun j =>
  match decodeHandle ws.model written with
  | .error e =>
    let j := j.phase "decode" true
    (.error e, { j with
      recorder := j.recorder.failure j.tracer .session (text "decode handle") e.message })
  | .ok element =>
    let j := j.phase "decode" false
    (.ok (), j.print (text "resolves: " ++ element.render ws.model ++ text "\n"))

/-- Makes the handle of a tag, and checks that it leads back. -/
def makeHandle (ws : Workspace) (written : Bytes) : Step Unit := fun j =>
  match parseCaseRef written with
  | .error e => (.error (.caseRef e), j)
  | .ok (union, case) =>
    match ws.model.resolveCase? union case with
    | none => (.error (.noCase union case), j)
    | some uc =>
      let tagText := ws.model.tagPath uc
      let (span, j) := j.beginInner .session (text "round-trip " ++ tagText)
      let data := (ws.model.handleOf .tag uc).encode
      match roundTrip ws.model uc data with
      | .error e => (.error e, (j.phase "round-trip" true).endFailed span)
      | .ok _ =>
        let j := (j.phase "round-trip" false).endNoted span "bytes" data.length
        (.ok (), j.print (text "handle:   " ++ Bytes.hex data ++ text "\nresolves: " ++ tagText
          ++ text " = " ++ (ws.model.tagConstant uc).render ++ text "\n"))

/-- Turns a tag into a handle, or a handle into an element. -/
def runHandle (args : List Bytes) (decode : Bytes) : Step Unit := fun j =>
  match j.loadWorkspace (args.headD []) with
  | (.error e, j) => (.error e, j)
  | (.ok ws, j) =>
    if decode ≠ [] then showHandle ws decode j
    else
      match args with
      | [_, written] => makeHandle ws written j
      | _ => (.error .caseWanted, j)

/-- The version of the program. -/
def versionText : Bytes := text "0.3.0-dev"

/-- The version for people. -/
def versionLines (b : Build) : Bytes :=
  let line (label : String) (value : Bytes) : Bytes :=
    if trim value = [] then [] else text label ++ trim value ++ text "\n"
  program ++ text " " ++ versionText ++ text " (pointer schema " ++ Bytes.decimal handleSchema
    ++ text ")\n" ++ line "commit: " b.commit ++ line "built:  " b.date

/-- The version for programs. -/
def versionJson (b : Build) : Bytes :=
  let optional (name : String) (value : Bytes) : List (Bytes × Bytes) :=
    if trim value = [] then [] else [(text name, JsonText.encode (trim value))]
  let members :=
    [(text "tool", JsonText.encode program), (text "version", JsonText.encode versionText),
      (text "pointer_schema", Bytes.decimal handleSchema)]
      ++ optional "git_commit" b.commit ++ optional "build_date" b.date
  text "\x7b\n" ++ Bytes.join (text ",\n") (members.map fun (name, value) =>
    text "  " ++ JsonText.encode name ++ text ": " ++ value) ++ text "\n\x7d\n"

/-- Tells the version. -/
def runVersion (b : Build) (format : Bytes) : Step Unit := fun j =>
  if lowerCase format = text "pretty" then (.ok (), j.print (versionLines b))
  else if lowerCase format = text "json" then (.ok (), j.print (versionJson b))
  else (.error (.format format), j)

end Cli
end UnionAtlas
