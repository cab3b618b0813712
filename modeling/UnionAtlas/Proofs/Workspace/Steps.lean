import UnionAtlas.Proofs.Files.Latest
import UnionAtlas.Proofs.Model.Edits
import UnionAtlas.Workspace.Materialise

/-!
# What describing one union or one file does

A description is read entry by entry, and every entry may be refused. This module says what an entry
that is not refused adds to the workspace: a union leaves files and uses alone, and a file leaves
the model alone.
-/

namespace UnionAtlas

theorem ok_of_bind {ε α β : Type} {x : Except ε α} {f : α → Except ε β} {b : β}
    (done : (x >>= f) = .ok b) : ∃ a, x = .ok a ∧ f a = .ok b := by
  cases x with
  | error e => cases done
  | ok a => exact ⟨a, rfl, done⟩

theorem ok_of_map {ε α β : Type} {x : Except ε α} {f : α → β} {b : β} (done : x.map f = .ok b) :
    ∃ a, x = .ok a ∧ f a = b := by
  cases x with
  | error e => cases done
  | ok a => exact ⟨a, rfl, Except.ok.inj done⟩

namespace FileSet

theorem push_of_add {files files' : FileSet} {path content : Bytes} {flags : FileFlags}
    {id : FileId} (added : files.add path content flags = (id, files')) :
    ∃ file : SourceFile, file.id = id ∧ id = files.size ∧ file.path = Path.clean path ∧
      files' = files.push file := by
  obtain ⟨rfl, rfl⟩ := Prod.mk.inj added
  exact ⟨_, rfl, rfl, rfl, rfl⟩

end FileSet

namespace Workspace

variable {disk : Disk} {base : Bytes} {ws ws' : Workspace}

/-- A union is registered under a name that no union has, and then gets its cases. -/
theorem addUnion_ok {u : UnionEntry} (added : ws.addUnion u = .ok ws') :
    let name := identifier u.name
    let number := (ws.model.names.intern name).1
    let registered := (ws.model.edit (.name name)).edit (.register number .none)
    ws.model.types.unionByName? number = none ∧
      ∃ m', addCases name ws.model.types.types.length [] registered u.cases = .ok m' ∧
        ws' = { ws with model := m', unions := ws.unions ++ [ws.model.types.types.length] } := by
  intro name number registered
  simp only [addUnion] at added
  split at added
  · cases added
  · split at added
    · cases added
    · next fresh =>
      refine ⟨by simpa using fresh, ?_⟩
      obtain ⟨m', done, same⟩ := ok_of_map added
      exact ⟨m', done, same.symm⟩

theorem addVersion_ok {files files' : FileSet} {f : FileEntry} {id : FileId}
    (added : addVersion disk base files f = .ok (id, files')) :
    ∃ file : SourceFile, file.id = id ∧ id = files.size ∧ file.path = Path.clean f.path ∧
      files' = files.push file := by
  simp only [addVersion] at added
  split at added
  · cases added
  · split at added
    · rw [FileSet.load] at added
      cases read : disk.content (Path.join [base, f.source]) with
      | error e => simp [read, Except.map, Except.mapError] at added
      | ok bytes =>
        simp only [read, Except.map, Except.mapError, Except.ok.injEq] at added
        exact FileSet.push_of_add added
    · exact FileSet.push_of_add (Except.ok.inj added)

/-- A file is one more version of its path, and its uses are kept under the path. -/
theorem addFile_ok {f : FileEntry} (added : addFile disk base ws f = .ok ws') :
    ∃ file bindings, file.id = ws.files.size ∧ file.path = Path.clean f.path ∧
      file.content.length < UInt32.size ∧ f.uses.mapM (bindingOf f.path file) = .ok bindings ∧
      ws' = { ws with
        files := ws.files.push file
        order := ws.order ++ [file.id]
        bindings := (file.path, bindings) :: ws.bindings } := by
  unfold addFile at added
  split at added
  · cases added
  · obtain ⟨⟨id, files⟩, version, added⟩ := ok_of_bind added
    obtain ⟨file, rfl, number, path, rfl⟩ := addVersion_ok version
    have known : (ws.files.push file).get? file.id = some file := by
      rw [number, FileSet.get?_push_self]
    simp only [known] at added
    split at added
    · cases added
    · next small =>
      obtain ⟨bindings, placed, added⟩ := ok_of_bind added
      exact ⟨file, bindings, number, path, Nat.not_le.mp small, placed, (Except.ok.inj added).symm⟩

/-- What every described union keeps, all of them keep. -/
theorem addUnions_keeps (P : Workspace → Prop)
    (kept : ∀ {ws u ws'}, P ws → ws.addUnion u = .ok ws' → P ws') {us : List UnionEntry}
    {number : Nat} (holds : P ws) (added : ws.addUnions number us = .ok ws') : P ws' := by
  induction us generalizing ws number with
  | nil =>
    obtain rfl := Except.ok.inj added
    exact holds
  | cons u us ih =>
    rw [addUnions] at added
    split at added
    · cases added
    · next first => exact ih (kept holds first) added

/-- What every described file keeps, all of them keep. -/
theorem addFiles_keeps (P : Workspace → Prop)
    (kept : ∀ {ws f ws'}, P ws → addFile disk base ws f = .ok ws' → P ws') {fs : List FileEntry}
    {number : Nat} (holds : P ws) (added : addFiles disk base ws number fs = .ok ws') : P ws' := by
  induction fs generalizing ws number with
  | nil =>
    obtain rfl := Except.ok.inj added
    exact holds
  | cons f fs ih =>
    rw [addFiles] at added
    split at added
    · cases added
    · next first => exact ih (kept holds first) added

theorem ofDescription_ok {d : Description} (made : ofDescription disk base d = .ok ws') :
    ∃ ws, empty.addUnions 1 d.unions = .ok ws ∧ addFiles disk base ws 1 d.files = .ok ws' :=
  ok_of_bind made

theorem parse_ok {content : Bytes} (parsed : parse disk base content = .ok ws) :
    ∃ d document, Toml.read content Description.reader = .ok (d, document) ∧
      ofDescription disk base d = .ok ws := by
  unfold parse at parsed
  split at parsed
  · cases parsed
  · next d document read => exact ⟨d, document, read, parsed⟩

end Workspace
end UnionAtlas
