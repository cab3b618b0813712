import UnionAtlas.Toml.Key

/-!
# Values

The values of a document. A table is a list of named values. Tables that are given one by one under
a common name are kept apart from an array that is written out.
-/

namespace UnionAtlas
namespace Toml

/-- A value. -/
inductive Value where
  | string (s : Bytes)
  | integer (n : Int)
  /-- A number with a fraction or an exponent, as it was written. -/
  | float (written : Bytes)
  | boolean (b : Bool)
  /-- A date, a time, or both, as it was written. -/
  | moment (written : Bytes)
  | array (items : List Value)
  /-- Tables given one by one under a common name. -/
  | tables (items : List (List (Bytes × Value)))
  | table (fields : List (Bytes × Value))

/-- The named values of a table, in the order they were given. -/
abbrev Fields := List (Bytes × Value)

namespace Fields

/-- The value with a name. -/
def get? (fs : Fields) (name : Bytes) : Option Value :=
  (fs.find? (·.1 == name)).map (·.2)

/-- Gives a name a value, in its old place if it had one. -/
def put (fs : Fields) (name : Bytes) (v : Value) : Fields :=
  if (fs.get? name).isSome then fs.map fun p => if p.1 == name then (name, v) else p
  else fs ++ [(name, v)]

/-- Does a key lead to a value, through tables only? -/
def defines : Fields → Key → Bool
  | _, [] => false
  | fs, [name] => (fs.get? name).isSome
  | fs, name :: rest =>
    match fs.get? name with
    | some (.table inner) => defines inner rest
    | _ => false

/-- Changes the table that a key leads to. A name of tables given one by one leads to the last of
them; what is no table leads nowhere. -/
def update? (fs : Fields) (key : Key) (f : Fields → Option Fields) : Option Fields :=
  match key with
  | [] => f fs
  | name :: rest =>
    match fs.get? name with
    | some (.table inner) => (update? inner rest f).map fun t => fs.put name (.table t)
    | some (.tables items) =>
      match items.getLast? with
      | none => none
      | some last =>
        (update? last rest f).map fun t => fs.put name (.tables (items.dropLast ++ [t]))
    | _ => none

end Fields
end Toml
end UnionAtlas
