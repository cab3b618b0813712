import UnionAtlas.Text.Quoted
import UnionAtlas.Toml.Parse

/-!
# Typed reading

A reader turns a value into something typed and says which keys it used. Names in a document match
field names in any case. Once a document is read, a key that no reader used is an error.
-/

namespace UnionAtlas
namespace Toml

/-- Why a document cannot be read. -/
inductive DocumentError where
  /-- The text is no document. -/
  | malformed
  /-- A value is of another type than its field. -/
  | mismatch
  /-- A key means nothing. -/
  | unknownKey (key : Key)
  deriving Repr, DecidableEq

namespace DocumentError

/-- The message for a document that cannot be read. -/
def message : DocumentError → Bytes
  | .malformed => text "failed to parse TOML: malformed document"
  | .mismatch => text "failed to parse TOML: type mismatch"
  | .unknownKey key => text "unknown key " ++ Quoted.encode key.render

end DocumentError

/-- Reads the value of a key; the result names all keys that were used. -/
abbrev Reader (α : Type) := Key → Value → Option (α × List Key)

namespace Reader

/-- Reads a text. -/
def string : Reader Bytes := fun _ v =>
  match v with
  | .string s => some (s, [])
  | _ => none

/-- Reads an integer between two bounds. -/
def integer (low high : Int) : Reader Int := fun _ v =>
  match v with
  | .integer n => if low ≤ n ∧ n ≤ high then some (n, []) else none
  | _ => none

/-- Reads a truth value. -/
def boolean : Reader Bool := fun _ v =>
  match v with
  | .boolean b => some (b, [])
  | _ => none

/-- Reads the items of an array one by one. -/
def items {α : Type} (item : Reader α) (key : Key) : List Value → Option (List α × List Key)
  | [] => some ([], [])
  | v :: vs =>
    match item key v, items item key vs with
    | some (a, used), some (as, more) => some (a :: as, used ++ more)
    | _, _ => none

/-- Reads an array, or tables given one by one. -/
def list {α : Type} (item : Reader α) : Reader (List α) := fun key v =>
  match v with
  | .array vs => items item key vs
  | .tables ts => items item key (ts.map .table)
  | _ => none

/-- A field of a record: its name, and how its value changes the record. -/
structure Field (α : Type) where
  name : Bytes
  read : α → Reader α

/-- A field that is set to what a reader gives. -/
def Field.set {α β : Type} (name : String) (reader : Reader β) (set : α → β → α) : Field α where
  name := text name
  read a := fun key v => (reader key v).map fun (b, used) => (set a b, used)

/-- Reads the named values of a table into a record; names that no field has are left alone. -/
def fields {α : Type} (known : List (Field α)) (key : Key) : Fields → α → Option (α × List Key)
  | [], a => some (a, [])
  | (name, v) :: rest, a =>
    match (fieldFor? (known.map (·.name)) name).bind fun f => known.find? (·.name == f) with
    | none => fields known key rest a
    | some field =>
      match field.read a (key ++ [name]) v with
      | none => none
      | some (a, used) =>
        (fields known key rest a).map fun (a, more) => (a, (key ++ [name]) :: used ++ more)

/-- Reads a table into a record that starts from the given one. -/
def record {α : Type} (start : α) (known : List (Field α)) : Reader α := fun key v =>
  match v with
  | .table fs => fields known key fs start
  | _ => none

end Reader

/-- Reads a whole document. -/
def Document.read {α : Type} (d : Document) (reader : Reader α) : Except DocumentError α :=
  match reader [] (.table d.root) with
  | none => .error .mismatch
  | some (a, used) =>
    match d.keys.find? (!used.contains ·) with
    | some key => .error (.unknownKey key)
    | none => .ok a

/-- Reads a text as a document. -/
def read {α : Type} (bs : Bytes) (reader : Reader α) : Except DocumentError (α × Document) :=
  match parse? bs with
  | none => .error .malformed
  | some d => (d.read reader).map fun a => (a, d)

end Toml
end UnionAtlas
