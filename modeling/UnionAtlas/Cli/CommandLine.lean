import UnionAtlas.Text.Quoted

/-!
# Command lines

A command line names a command and gives switches and arguments in any order. The command is the
first word that is neither a switch nor the value of one; while it is looked for, a switch that is
not known is taken to have a value. Two dashes end the switches.
-/

namespace UnionAtlas
namespace Cli

/-- The commands. -/
inductive Command where
  | tags
  | symbols
  | handle
  | version
  deriving Repr, DecidableEq

namespace Command

/-- The name of a command. -/
def name : Command → Bytes
  | .tags => text "tags"
  | .symbols => text "symbols"
  | .handle => text "handle"
  | .version => text "version"

/-- All commands. -/
def all : List Command := [.tags, .symbols, .handle, .version]

/-- The command with a name. -/
def ofName? (word : Bytes) : Option Command :=
  all.find? (·.name == word)

end Command

/-- The name of the program. -/
def program : Bytes := text "declsym"

/-- A switch. -/
structure Switch where
  name : Bytes
  /-- Its short form. -/
  letter : Option UInt8
  /-- Does it take a text? If not, it is on or off. -/
  takesText : Bool
  deriving Repr, DecidableEq

namespace Switch

/-- A switch with a text. -/
def ofText (name : String) : Switch := ⟨text name, none, true⟩

/-- A switch that is on or off. -/
def ofTruth (name : String) : Switch := ⟨text name, none, false⟩

/-- The switch that asks for help. -/
def help : Switch := ⟨text "help", some (Bytes.ascii 'h'), false⟩

/-- The switch that asks for the version. -/
def version : Switch := ⟨text "version", some (Bytes.ascii 'v'), false⟩

/-- The switches of every command. -/
def shared : List Switch :=
  [ofText "color", ofText "config", ofText "trace", ofText "trace-level", ofText "trace-mode",
    ofTruth "timings"]

/-- The switches of a command. -/
def ofCommand : Option Command → List Switch
  | none => shared ++ [help, version]
  | some .tags => shared ++ [help]
  | some .symbols => shared ++ [help, ofTruth "warm"]
  | some .handle => shared ++ [help, ofText "decode"]
  | some .version => shared ++ [help, ofText "format"]

/-- The switch as messages name it. -/
def shown (s : Switch) : Bytes :=
  match s.letter with
  | some c => text "-" ++ [c] ++ text ", --" ++ s.name
  | none => text "--" ++ s.name

end Switch

/-- What is wrong with a command line. -/
inductive UsageError where
  | unknownCommand (word : Bytes)
  | badSyntax (arg : Bytes)
  | unknownSwitch (name : Bytes)
  | unknownLetter (letters : Bytes)
  | missingValue (name : Bytes)
  | badTruth (s : Switch) (value : Bytes)
  | count (wanted received : Nat)
  | countBetween (least most received : Nat)
  deriving Repr, DecidableEq

namespace UsageError

/-- A byte that is no switch as a character: from the upper half of the bytes only the group is
told. -/
def letterShown (b : UInt8) : Nat :=
  if b < 0x80 then b.toNat else if b < 0xC0 then 0xC2 else 0xC3

/-- The message for a command line with a fault. -/
def message : UsageError → Bytes
  | .unknownCommand word =>
    text "unknown command " ++ Quoted.encode word ++ text " for " ++ Quoted.encode program
  | .badSyntax arg => text "bad flag syntax: " ++ arg
  | .unknownSwitch name => text "unknown flag: --" ++ name
  | .unknownLetter letters =>
    text "unknown shorthand flag: '" ++ Quoted.codePoint '\'' (letterShown (letters.headD 0))
      ++ text "' in -" ++ letters
  | .missingValue name => text "flag needs an argument: --" ++ name
  | .badTruth s value =>
    text "invalid argument " ++ Quoted.encode value ++ text " for " ++ Quoted.encode s.shown
      ++ text " flag: strconv.ParseBool: parsing " ++ Quoted.encode value
      ++ text ": invalid syntax"
  | .count wanted received =>
    text "accepts " ++ Bytes.decimal wanted ++ text " arg(s), received "
      ++ Bytes.decimal received
  | .countBetween least most received =>
    text "accepts between " ++ Bytes.decimal least ++ text " and " ++ Bytes.decimal most
      ++ text " arg(s), received " ++ Bytes.decimal received

end UsageError

/-- The byte that switches begin with. -/
def dash : UInt8 := 0x2D

/-- The two dashes that end the switches. -/
def dashes : Bytes := [dash, dash]

/-- Is the word a switch whose value is the next word? This is asked before the command is known. -/
def takesNext (s : Bytes) : Bool :=
  if s.contains 0x3D then false
  else if dashes.isPrefixOf s then
    match Switch.shared.find? (·.name == s.drop 2) with
    | some switch => switch.takesText
    | none => true
  else [dash].isPrefixOf s && s.length == 2

/-- The words of a command line that are neither switches nor values of switches. -/
def plainWords : List Bytes → List Bytes
  | [] => []
  | s :: rest =>
    if s = dashes then []
    else if takesNext s then
      match rest with
      | _ :: next :: more => plainWords (next :: more)
      | _ => []
    else if s ≠ [] ∧ s.head? ≠ some dash then s :: plainWords rest
    else plainWords rest

/-- A command line without the first plain word that is the given one. -/
def removeWord (word : Bytes) : List Bytes → List Bytes
  | [] => []
  | s :: rest =>
    if s = dashes then s :: rest
    else if takesNext s then
      match rest with
      | value :: more => s :: value :: removeWord word more
      | [] => [s]
    else if s = word then rest
    else s :: removeWord word rest

/-- The words that ask for help or for what only a shell needs. -/
def helpWords : List Bytes := [text "help", text "completion"]

/-- The command of a command line and all other words. -/
inductive Located where
  /-- There is no command. -/
  | nothing (args : List Bytes)
  | command (c : Command) (args : List Bytes)
  | help
  | unknown (word : Bytes)
  deriving Repr, DecidableEq

/-- Finds the command. -/
def locate (args : List Bytes) : Located :=
  match plainWords args with
  | [] => .nothing args
  | word :: _ =>
    match Command.ofName? word with
    | some c => .command c (removeWord word args)
    | none => if helpWords.contains word then .help else .unknown word

/-- The value of a switch that is on or off. -/
def truthOf? (value : Bytes) : Option Bool :=
  if ["1", "t", "T", "TRUE", "true", "True"].any (text · == value) then some true
  else if ["0", "f", "F", "FALSE", "false", "False"].any (text · == value) then some false
  else none

/-- The values that switches were given, the last one first, and the arguments in order. -/
structure Parsed where
  values : List (Bytes × Bytes)
  args : List Bytes
  deriving Repr, DecidableEq

namespace Parsed

/-- Gives a switch a value. -/
def assign (p : Parsed) (s : Switch) (value : Bytes) : Except UsageError Parsed :=
  if s.takesText ∨ (truthOf? value).isSome then
    .ok { p with values := (s.name, value) :: p.values }
  else .error (.badTruth s value)

/-- The value of a switch, if it was given one. -/
def get? (p : Parsed) (name : String) : Option Bytes :=
  (p.values.find? (·.1 == text name)).map (·.2)

/-- Is a switch on? -/
def isOn (p : Parsed) (name : String) : Bool :=
  ((p.get? name).bind truthOf?).getD false

end Parsed

/-- The letters that belong to test runs and are passed over. -/
def isTestSwitch (letters : Bytes) : Bool :=
  (text "test.").isPrefixOf letters

/-- Reads short switches, one letter after the other. A short switch is on or off; an equals sign
gives it a value. -/
def parseLetters (switches : List Switch) (p : Parsed) : Bytes → Except UsageError Parsed
  | [] => .ok p
  | c :: rest =>
    if isTestSwitch (c :: rest) then .ok p
    else
      match switches.find? (·.letter == some c) with
      | none => .error (.unknownLetter (c :: rest))
      | some s =>
        if rest.head? = some 0x3D ∧ 2 ≤ rest.length then p.assign s (rest.drop 1)
        else
          match p.assign s (text "true") with
          | .error e => .error e
          | .ok p => parseLetters switches p rest

/-- The name and the value of a long switch. -/
def splitLong (body : Bytes) : Bytes × Option Bytes :=
  match Bytes.cut? 0x3D body with
  | some (name, value) => (name, some value)
  | none => (body, none)

/-- Reads the words of a command line that a command is given. -/
def parseWords (switches : List Switch) (p : Parsed) : List Bytes → Except UsageError Parsed
  | [] => .ok p
  | word :: rest =>
    if word.head? ≠ some dash ∨ word.length = 1 then
      parseWords switches { p with args := p.args ++ [word] } rest
    else if word = dashes then .ok { p with args := p.args ++ rest }
    else if dashes.isPrefixOf word then
      let body := word.drop 2
      if body.head? = some dash ∨ body.head? = some 0x3D then .error (.badSyntax word)
      else
        let (name, value?) := splitLong body
        match switches.find? (·.name == name) with
        | none => .error (.unknownSwitch name)
        | some s =>
          match value? with
          | some value =>
            match p.assign s value with
            | .error e => .error e
            | .ok p => parseWords switches p rest
          | none =>
            if s.takesText then
              match rest with
              | [] => .error (.missingValue name)
              | value :: rest =>
                match p.assign s value with
                | .error e => .error e
                | .ok p => parseWords switches p rest
            else
              match p.assign s (text "true") with
              | .error e => .error e
              | .ok p => parseWords switches p rest
    else
      match parseLetters switches p (word.drop 1) with
      | .error e => .error e
      | .ok p => parseWords switches p rest

/-- Checks the number of arguments of a command. -/
def checkCount (c : Command) (received : Nat) : Except UsageError Unit :=
  match c with
  | .tags => if received = 1 then .ok () else .error (.count 1 received)
  | .symbols => if received = 2 then .ok () else .error (.count 2 received)
  | .handle =>
    if 1 ≤ received ∧ received ≤ 2 then .ok () else .error (.countBetween 1 2 received)
  | .version => .ok ()

/-- What a command line asks for. -/
inductive Request where
  | help
  | programVersion
  | run (c : Command) (p : Parsed)
  deriving Repr, DecidableEq

/-- Reads a command line. Help is given before arguments are counted. -/
def parse (args : List Bytes) : Except UsageError Request :=
  match locate args with
  | .help => .ok .help
  | .unknown word => .error (.unknownCommand word)
  | .nothing args =>
    match parseWords (Switch.ofCommand none) ⟨[], []⟩ args with
    | .error e => .error e
    | .ok p =>
      if p.isOn "help" then .ok .help
      else if p.isOn "version" then .ok .programVersion
      else .ok .help
  | .command c args =>
    match parseWords (Switch.ofCommand (some c)) ⟨[], []⟩ args with
    | .error e => .error e
    | .ok p =>
      if p.isOn "help" then .ok .help
      else
        match checkCount c p.args.length with
        | .error e => .error e
        | .ok _ => .ok (.run c p)

end Cli
end UnionAtlas
