import UnionAtlas.Toml.Value

/-!
# Documents in the making

A document is built statement by statement. A table that only a longer key implies may be stated
once later on; whatever else is stated a second time is refused, but for an array, which gives way
to what is stated after it. Keys are remembered in the order they appear in.
-/

namespace UnionAtlas
namespace Toml

/-- A document of which a part was read. -/
structure Draft where
  root : Fields
  /-- The keys whose last stated value is an array. -/
  arrays : List Key
  /-- The keys of tables that are implied and not stated yet. -/
  implied : List Key
  /-- The keys in the order they were stated, the last one first. -/
  stated : List Key

namespace Draft

/-- The document without statements. -/
def empty : Draft := ⟨[], [], [], []⟩

/-- Remembers a key. -/
def state (d : Draft) (key : Key) : Draft :=
  { d with stated := key :: d.stated }

/-- Marks the table of a key as implied. -/
def imply (d : Draft) (key : Key) : Draft :=
  { d with implied := key :: d.implied.filter (· != key) }

/-- Marks the table of a key as stated. -/
def settle (d : Draft) (key : Key) : Draft :=
  { d with implied := d.implied.filter (· != key) }

/-- The key that the kind of a value is remembered under. The empty name stands for its table. -/
def kindKey (context : Key) (name : Bytes) : Key :=
  if name = [] then (if context = [] then [[]] else context) else context ++ [name]

/-- Remembers whether a value is an array. -/
def markKind (d : Draft) (key : Key) (isArray : Bool) : Draft :=
  let others := d.arrays.filter (· != key)
  { d with arrays := if isArray then key :: others else others }

/-- Is there a value with this name in the table of a context? -/
def holds? (d : Draft) (context : Key) (name : Bytes) : Option Bool :=
  let rec find (fs : Fields) : Key → Option Bool
    | [] => some (fs.get? name).isSome
    | part :: rest =>
      match fs.get? part with
      | some (.table inner) => find inner rest
      | some (.tables items) => items.getLast?.bind fun last => find last rest
      | _ => none
  find d.root context

/-- Gives a name in the table of a context its value. -/
def put? (d : Draft) (context : Key) (name : Bytes) (v : Value) : Option Draft :=
  (d.root.update? context fun fs => some (fs.put name v)).map fun root => { d with root }

/-- States the value of a name in the table of a context. -/
def set? (d : Draft) (context : Key) (name : Bytes) (v : Value) : Option Draft :=
  let key := context ++ [name]
  match d.holds? context name with
  | none => none
  | some false => d.put? context name v
  | some true =>
    if d.arrays.contains key then (d.settle key).put? context name v
    else if d.implied.contains key then some (d.settle key)
    else none

/-- Makes the tables on the way to a key that are not there yet. -/
def pave? (d : Draft) (done : Key) : Key → Option Draft
  | [] => some d
  | part :: rest =>
    match d.holds? done part with
    | none => none
    | some true => d.pave? (done ++ [part]) rest
    | some false =>
      ((d.imply (done ++ [part])).put? done part (.table [])).bind fun d =>
        d.pave? (done ++ [part]) rest

/-- Begins the table of a key. -/
def openTable? (d : Draft) (key : Key) : Option Draft :=
  (d.pave? [] key.dropLast).bind fun d => d.set? key.dropLast (key.getLast?.getD []) (.table [])

/-- Begins one more table under a common key. -/
def openItem? (d : Draft) (key : Key) : Option Draft :=
  (d.pave? [] key.dropLast).bind fun d =>
    let name := key.getLast?.getD []
    (d.root.update? key.dropLast fun fs =>
      match fs.get? name with
      | none => some (fs.put name (.tables [[]]))
      | some (.tables items) => some (fs.put name (.tables (items ++ [[]])))
      | some _ => none).map fun root => { d with root }

/-- Begins the tables that the parts of a dotted name imply; the result is the context of its last
part. -/
def openDotted? (d : Draft) (context : Key) : Key → Option (Key × Draft)
  | [] => some (context, d)
  | part :: rest =>
    let context := context ++ [part]
    ((d.imply context).openTable? context).bind fun d => d.openDotted? context rest

end Draft

/-- A document: its values, and its keys in the order they were stated. -/
structure Document where
  root : Fields
  keys : List Key

end Toml
end UnionAtlas
