import UnionAtlas.Text.Blank
import UnionAtlas.Text.LowerCase
import UnionAtlas.Text.Quoted

/-!
# What is traced

Levels, kinds and scopes of trace events, where events are kept, and in which form they are written.
A level admits the events of its scopes; failures pass every level but `off`.
-/

namespace UnionAtlas

/-- How much is traced. -/
inductive TraceLevel where
  | off
  | error
  | phase
  | detail
  | debug
  | other (code : UInt8)
  deriving Repr, DecidableEq

/-- What happened. -/
inductive EventKind where
  | spanBegin
  | spanEnd
  | point
  | failure
  | other (code : UInt8)
  deriving Repr, DecidableEq

/-- What an event is about, from the coarse to the fine. -/
inductive EventScope where
  | session
  | provider
  | file
  | query
  | other (code : UInt8)
  deriving Repr, DecidableEq

/-- Where events are kept. -/
inductive TraceMode where
  | stream
  | ring
  | both
  | other (code : UInt8)
  deriving Repr, DecidableEq

/-- How events are written. -/
inductive TraceFormat where
  | auto
  | lines
  | ndjson
  | other (code : UInt8)
  deriving Repr, DecidableEq

namespace TraceLevel

/-- The level with a number. -/
def ofCode (n : UInt8) : TraceLevel :=
  match n with
  | 0 => .off
  | 1 => .error
  | 2 => .phase
  | 3 => .detail
  | 4 => .debug
  | n => .other n

/-- The number of a level. -/
def code : TraceLevel → UInt8
  | .off => 0
  | .error => 1
  | .phase => 2
  | .detail => 3
  | .debug => 4
  | .other n => n

/-- The word for a level. -/
def render : TraceLevel → Bytes
  | .off => text "off"
  | .error => text "error"
  | .phase => text "phase"
  | .detail => text "detail"
  | .debug => text "debug"
  | .other _ => text "unknown"

/-- Is anything traced at all? -/
def enabled (l : TraceLevel) : Bool :=
  l.code != 0

/-- The level with a name, in any case and with blanks around it; no name is `off`. -/
def parse? (s : Bytes) : Option TraceLevel :=
  let word := lowerCase (trim s)
  if word = text "off" ∨ word = [] then some .off
  else if word = text "error" then some .error
  else if word = text "phase" then some .phase
  else if word = text "detail" then some .detail
  else if word = text "debug" then some .debug
  else none

/-- The message for a name that is no level. -/
def parseError (s : Bytes) : Bytes :=
  text "invalid trace level: " ++ Quoted.encode s
    ++ text " (expected: off|error|phase|detail|debug)"

end TraceLevel

namespace EventKind

/-- The kind with a number. -/
def ofCode (n : UInt8) : EventKind :=
  match n with
  | 1 => .spanBegin
  | 2 => .spanEnd
  | 3 => .point
  | 4 => .failure
  | n => .other n

/-- The word for a kind. -/
def render : EventKind → Bytes
  | .spanBegin => text "begin"
  | .spanEnd => text "end"
  | .point => text "point"
  | .failure => text "failure"
  | .other _ => text "unknown"

/-- The mark of a kind in the text form. -/
def mark : EventKind → Bytes
  | .spanBegin => text "→ "
  | .spanEnd => text "← "
  | .point => text "• "
  | .failure => text "! "
  | .other _ => []

end EventKind

namespace EventScope

/-- The scope with a number. -/
def ofCode (n : UInt8) : EventScope :=
  match n with
  | 1 => .session
  | 2 => .provider
  | 3 => .file
  | 4 => .query
  | n => .other n

/-- The rank of a scope: the greater, the finer. -/
def rank : EventScope → Nat
  | .session => 1
  | .provider => 2
  | .file => 3
  | .query => 4
  | .other n => n.toNat

/-- The word for a scope. -/
def render : EventScope → Bytes
  | .session => text "session"
  | .provider => text "provider"
  | .file => text "file"
  | .query => text "query"
  | .other _ => text "unknown"

end EventScope

/-- Does the level admit an event of the given scope and kind? -/
def TraceLevel.admits (l : TraceLevel) (scope : EventScope) (kind : EventKind) : Bool :=
  match l with
  | .off => false
  | .phase => kind == .failure || scope.rank ≤ EventScope.provider.rank
  | .detail => kind == .failure || scope.rank ≤ EventScope.file.rank
  | .debug => true
  | _ => kind == .failure

namespace TraceMode

/-- The mode with a number. -/
def ofCode (n : UInt8) : TraceMode :=
  match n with
  | 1 => .stream
  | 2 => .ring
  | 3 => .both
  | n => .other n

/-- The number of a mode. -/
def code : TraceMode → UInt8
  | .stream => 1
  | .ring => 2
  | .both => 3
  | .other n => n

/-- The word for a mode. -/
def render : TraceMode → Bytes
  | .stream => text "stream"
  | .ring => text "ring"
  | .both => text "both"
  | .other _ => text "unknown"

/-- The mode with a name, in any case. -/
def parse? (s : Bytes) : Option TraceMode :=
  let word := lowerCase s
  if word = text "stream" then some .stream
  else if word = text "ring" then some .ring
  else if word = text "both" then some .both
  else none

/-- The message for a name that is no mode. -/
def parseError (s : Bytes) : Bytes :=
  text "invalid storage mode: " ++ Quoted.encode s
    ++ text " (expected: stream|ring|both)"

end TraceMode

namespace TraceFormat

/-- The format with a number. -/
def ofCode (n : UInt8) : TraceFormat :=
  match n with
  | 0 => .auto
  | 1 => .lines
  | 2 => .ndjson
  | n => .other n

/-- The number of a format. -/
def code : TraceFormat → UInt8
  | .auto => 0
  | .lines => 1
  | .ndjson => 2
  | .other n => n

/-- The format with a name, in any case; no name leaves the choice open. -/
def parse? (s : Bytes) : Option TraceFormat :=
  let word := lowerCase s
  if word = [] ∨ word = text "auto" then some .auto
  else if word = text "text" then some .lines
  else if word = text "ndjson" ∨ word = text "json" then some .ndjson
  else none

/-- The message for a name that is no format. -/
def parseError (s : Bytes) : Bytes :=
  text "invalid trace format: " ++ Quoted.encode s
    ++ text " (expected: auto|text|ndjson)"

end TraceFormat
end UnionAtlas
