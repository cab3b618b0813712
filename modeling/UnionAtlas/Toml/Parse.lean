import UnionAtlas.Toml.Draft
import UnionAtlas.Toml.Scalar

/-!
# Reading a document

A document is read line by line: a heading begins a table, or one more table under a common name, and
every other line states the value of a key. Arrays may go over several lines and may end in a comma;
tables in braces stand on one line and may not.
-/

namespace UnionAtlas
namespace Toml

/-- What follows the blanks. -/
def skipSpaces (bs : Bytes) : Bytes :=
  bs.dropWhile isSpace

/-- What follows a comment: the line end, or nothing. -/
def skipComment (bs : Bytes) : Bytes :=
  bs.dropWhile (!isLineEnd ·)

/-- The parts of a dotted name, up to a closing byte. -/
def nameParts? (close : UInt8) : Nat → Bytes → Option (Key × Bytes)
  | 0, _ => none
  | fuel + 1, bs =>
    (name? (skipSpaces bs)).bind fun (part, rest) =>
      match skipSpaces rest with
      | [] => none
      | b :: rest =>
        if b == close then some ([part], rest)
        else if b == 0x2E then
          (nameParts? close fuel rest).map fun (parts, rest) => (part :: parts, rest)
        else none

/-- Blanks, line ends and comments between the items of an array. -/
def skipGap : Nat → Bytes → Bytes
  | 0, bs => bs
  | fuel + 1, bs =>
    match bs.dropWhile fun b => isSpace b || isLineEnd b with
    | 0x23 :: rest => skipGap fuel (skipComment rest)
    | bs => bs

/-- Puts a value into a table in braces, under a dotted name. -/
def putDotted? (fs : Fields) (parts : Key) (name : Bytes) (v : Value) : Option Fields :=
  match parts with
  | [] => some (fs.put name v)
  | part :: rest =>
    match fs.get? part with
    | none => (putDotted? [] rest name v).map fun t => fs.put part (.table t)
    | some (.table inner) => (putDotted? inner rest name v).map fun t => fs.put part (.table t)
    | some _ => none

mutual

/-- A value. It belongs to a name in the table of a context, or is an item of an array there. -/
def value? : Nat → Draft → Key → Bytes → Bool → Bytes → Option (Value × Draft × Bytes)
  | 0, _, _, _, _, _ => none
  | fuel + 1, d, context, name, inArray, bs =>
    match skipSpaces bs with
    | 0x5B :: rest =>
      (arrayItems? fuel (d.markKind (Draft.kindKey context name) true) context name rest).map
        fun (items, d, rest) => (.array items, d, rest)
    | 0x7B :: rest =>
      let key := context ++ [name]
      let opened := if inArray then (d.imply key).openItem? key else (d.imply key).openTable? key
      opened.bind fun d =>
        match skipSpaces rest with
        | 0x7D :: rest => some (.table [], d, rest)
        | rest =>
          (bracedPairs? fuel d key [] rest).map fun (fs, d, rest) => (.table fs, d, rest)
    | bs => (scalar? bs).map fun (v, rest) => (v, d, rest)

/-- The items of an array, up to its end. -/
def arrayItems? : Nat → Draft → Key → Bytes → Bytes → Option (List Value × Draft × Bytes)
  | 0, _, _, _, _ => none
  | fuel + 1, d, context, name, bs =>
    match skipGap bs.length bs with
    | 0x5D :: rest => some ([], d, rest)
    | bs =>
      (value? fuel d context name true bs).bind fun (v, d, rest) =>
        match skipGap rest.length rest with
        | 0x5D :: rest => some ([v], d, rest)
        | 0x2C :: rest =>
          (arrayItems? fuel d context name rest).map fun (vs, d, rest) => (v :: vs, d, rest)
        | _ => none

/-- The named values of a table in braces, up to its end. -/
def bracedPairs? : Nat → Draft → Key → Fields → Bytes → Option (Fields × Draft × Bytes)
  | 0, _, _, _, _ => none
  | fuel + 1, d, key, fs, bs =>
    (nameParts? 0x3D bs.length bs).bind fun (parts, rest) =>
      (d.openDotted? key parts.dropLast).bind fun (context, d) =>
        let name := parts.getLast?.getD []
        (value? fuel (d.state (context ++ [name])) context name false rest).bind
          fun (v, d, rest) =>
            (stateValue? d context name v).bind fun d =>
              (putDotted? fs parts.dropLast name v).bind fun fs =>
                match skipSpaces rest with
                | 0x7D :: rest => some (fs, d, rest)
                | 0x2C :: rest => bracedPairs? fuel d key fs rest
                | _ => none

/-- States a value that was read. -/
def stateValue? (d : Draft) (context : Key) (name : Bytes) (v : Value) : Option Draft :=
  (d.set? context name v).map fun d =>
    d.markKind (Draft.kindKey context name) (match v with | .array _ => true | _ => false)

end

/-- The end of a line: blanks and a comment may stand before it. -/
def lineEnd? (bs : Bytes) : Option Bytes :=
  match skipSpaces bs with
  | [] => some []
  | 0x23 :: rest => some (skipComment rest)
  | b :: rest => if isLineEnd b then some rest else none

/-- One statement: a heading in brackets, or the value of a key. The context is the table that the
last heading began. -/
def statement? (d : Draft) (context : Key) (bs : Bytes) : Option (Key × Draft × Bytes) :=
  match bs with
  | 0x5B :: 0x5B :: rest =>
    (nameParts? 0x5D rest.length rest).bind fun (key, rest) =>
      match rest with
      | 0x5D :: rest =>
        (d.openItem? key).map fun d => (key, (d.markKind key false).state key, rest)
      | _ => none
  | 0x5B :: rest =>
    (nameParts? 0x5D rest.length rest).bind fun (key, rest) =>
      (d.openTable? key).map fun d => (key, (d.markKind key false).state key, rest)
  | _ =>
    (nameParts? 0x3D bs.length bs).bind fun (parts, rest) =>
      (d.openDotted? context parts.dropLast).bind fun (inner, d) =>
        let name := parts.getLast?.getD []
        (value? bs.length (d.state (inner ++ [name])) inner name false rest).bind
          fun (v, d, rest) => (stateValue? d inner name v).map fun d => (context, d, rest)

/-- All statements. -/
def statements? : Nat → Draft → Key → Bytes → Option Draft
  | 0, _, _, _ => none
  | fuel + 1, d, context, bs =>
    match bs.dropWhile fun b => isSpace b || isLineEnd b with
    | [] => some d
    | 0x23 :: rest => statements? fuel d context (skipComment rest)
    | bs =>
      (statement? d context bs).bind fun (context, d, rest) =>
        (lineEnd? rest).bind fun rest => statements? fuel d context rest

/-- Is the character refused everywhere: a control character that is neither a tab nor part of a line
end, or the replacement character? -/
def isRefused (c : Nat) : Bool :=
  (c < 0x20 && c != 0x09 && c != 0x0A && c != 0x0D) || c == 0x7F || c == replacement

/-- Does every carriage return stand before a line feed? -/
def returnsFit : Bytes → Bool
  | [] => true
  | b :: rest => (b != 0x0D || rest.head? == some 0x0A) && returnsFit rest

/-- Is the text made of allowed characters? -/
def isClean (bs : Bytes) : Bool :=
  (Utf8.runes bs).all (fun r => r.scalar.isSome && !isRefused r.code) && returnsFit bs

/-- The text without the mark of its byte order. -/
def dropOrderMark (bs : Bytes) : Bytes :=
  match bs with
  | 0xFF :: 0xFE :: rest => rest
  | 0xFE :: 0xFF :: rest => rest
  | 0xEF :: 0xBB :: 0xBF :: rest => rest
  | _ => bs

/-- The document that a text stands for, if it is well formed. -/
def parse? (bs : Bytes) : Option Document :=
  let bs := dropOrderMark bs
  if isClean bs then
    (statements? (bs.length + 1) .empty [] bs).map fun d => ⟨d.root, d.stated.reverse⟩
  else none

end Toml
end UnionAtlas
