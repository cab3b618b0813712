import UnionAtlas.Text.JsonText
import UnionAtlas.Trace.Level
import UnionAtlas.Trace.Stamp

/-!
# Trace events

An event and its two written forms: a line for people, and a line of JSON. Notes of an event are
written in the order of their keys, so both forms depend only on which notes there are.
-/

namespace UnionAtlas

/-- Notes by key, each key once. -/
abbrev Notes := List (Bytes × Bytes)

namespace Notes

/-- Sets the note with a key. -/
def set (notes : Notes) (key value : Bytes) : Notes :=
  if notes.any (·.1 == key) then notes.map fun p => if p.1 == key then (key, value) else p
  else notes ++ [(key, value)]

/-- The notes in the order of their keys. -/
def sorted (notes : Notes) : Notes :=
  notes.mergeSort fun a b => Bytes.le a.1 b.1

end Notes

/-- A trace event. -/
structure Event where
  time : Stamp
  /-- Position among all events; zero if it has none yet. -/
  seq : UInt64
  kind : EventKind
  scope : EventScope
  span : UInt64
  parent : UInt64
  name : Bytes
  detail : Bytes
  notes : Notes
  /-- The span whose notes these are, by its number in the recorder. -/
  owner : Option Nat := none
  deriving Repr, DecidableEq

namespace Event

/-- The line for people: number, scope, mark, name, detail and notes. The line of an event inside
a span is indented. -/
def line (e : Event) : Bytes :=
  text "#" ++ Bytes.padRight 5 (Bytes.decimal e.seq.toNat) ++ text " "
    ++ Bytes.padRight 8 e.scope.render ++ text " "
    ++ (if 0 < e.parent then text "  " else [])
    ++ e.kind.mark ++ e.name
    ++ (if e.detail.isEmpty then [] else text " (" ++ e.detail ++ text ")")
    ++ (if e.notes.isEmpty then []
        else text " \x7b"
          ++ Bytes.join (text " ") (e.notes.sorted.map fun (k, v) => k ++ text "=" ++ v)
          ++ text "\x7d")
    ++ text "\n"

/-- A JSON object with the given members. -/
def object (members : List (Bytes × Bytes)) : Bytes :=
  text "\x7b"
    ++ Bytes.join (text ",") (members.map fun (k, v) => JsonText.encode k ++ text ":" ++ v)
    ++ text "\x7d"

/-- The line of JSON. Numbers that are zero and texts that are empty are left out, except the
position, the kind, the scope and the name. -/
def json (e : Event) : Bytes :=
  let number (n : UInt64) : Bytes := Bytes.decimal n.toNat
  let always (k : String) (v : Bytes) : List (Bytes × Bytes) := [(text k, v)]
  let optional (present : Bool) (k : String) (v : Bytes) : List (Bytes × Bytes) :=
    if present then [(text k, v)] else []
  object
    (always "time" (JsonText.encode e.time.render)
      ++ always "seq" (number e.seq)
      ++ always "kind" (JsonText.encode e.kind.render)
      ++ always "scope" (JsonText.encode e.scope.render)
      ++ optional (e.span != 0) "span_id" (number e.span)
      ++ optional (e.parent != 0) "parent_id" (number e.parent)
      ++ always "name" (JsonText.encode e.name)
      ++ optional (!e.detail.isEmpty) "detail" (JsonText.encode e.detail)
      ++ optional (!e.notes.isEmpty) "extra"
          (object (e.notes.sorted.map fun (k, v) => (k, JsonText.encode v))))
    ++ text "\n"

/-- An event in one of the written forms. -/
def render (format : TraceFormat) (e : Event) : Bytes :=
  match format with
  | .ndjson => e.json
  | _ => e.line

end Event
end UnionAtlas
