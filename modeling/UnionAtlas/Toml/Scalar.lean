import UnionAtlas.Toml.Moment
import UnionAtlas.Toml.Value

/-!
# Texts, numbers and dates

The values that are written in one piece. Every reader takes the bytes from the value on and gives
the value and what follows it, or nothing if there is no such value.
-/

namespace UnionAtlas
namespace Toml

/-- The value of a run of hexadecimal digits. -/
def hexNumber? (bs : Bytes) : Option Nat :=
  bs.foldl (fun acc b => acc.bind fun n => (Bytes.hexValue? b).map fun d => n * 16 + d) (some 0)

/-- The character given by its number in hexadecimal digits. -/
def numberedChar? (hex : Bytes) : Option Bytes :=
  (hexNumber? hex).bind fun n => if Utf8.isScalar n then some (Utf8.encode n) else none

/-- The character that a letter stands for after a backslash. -/
def lettered? (b : UInt8) : Option UInt8 :=
  match b with
  | 0x62 => some 0x08
  | 0x74 => some 0x09
  | 0x6E => some 0x0A
  | 0x66 => some 0x0C
  | 0x72 => some 0x0D
  | 0x22 => some 0x22
  | 0x5C => some 0x5C
  | _ => none

/-- What stands after a backslash: the characters meant, and how many bytes were read. -/
def escape? (bs : Bytes) : Option (Bytes × Nat) :=
  match bs with
  | [] => none
  | 0x75 :: rest =>
    if rest.length < 4 then none else (numberedChar? (rest.take 4)).map fun c => (c, 5)
  | 0x55 :: rest =>
    if rest.length < 8 then none else (numberedChar? (rest.take 8)).map fun c => (c, 9)
  | b :: _ => (lettered? b).map fun c => ([c], 1)

/-- Is the byte part of a line end? -/
def isLineEnd (b : UInt8) : Bool :=
  b == 0x0A || b == 0x0D

/-- Is the byte a space or a tab? -/
def isSpace (b : UInt8) : Bool :=
  b == 0x20 || b == 0x09

/-- The rest of a text in double quotes on one line. -/
def basicText? : Bytes → Option (Bytes × Bytes)
  | [] => none
  | b :: rest =>
    if b == 0x22 then some ([], rest)
    else if isLineEnd b then none
    else if b == 0x5C then
      match escape? rest with
      | none => none
      | some (c, n) => (basicText? (rest.drop n)).map fun (s, after) => (c ++ s, after)
    else (basicText? rest).map fun (s, after) => (b :: s, after)
  termination_by bs => bs.length
  decreasing_by all_goals simp only [List.length_drop, List.length_cons]; omega

/-- The rest of a text in single quotes on one line. -/
def rawText? : Bytes → Option (Bytes × Bytes)
  | [] => none
  | b :: rest =>
    if b == 0x27 then some ([], rest)
    else if isLineEnd b then none
    else (rawText? rest).map fun (s, after) => (b :: s, after)

/-- Do five quotes end what was read, the last byte first? In a text with escapes five quotes after
a backslash do not count. -/
def endsInFive (quote : UInt8) (escapes : Bool) (seen : Bytes) : Bool :=
  (List.replicate 5 quote).isPrefixOf seen && !(escapes && seen[5]? == some 0x5C)

/-- The written content of a text over several lines, up to three closing quotes. One or two quotes
right before these belong to the content, and more are refused. What was read so far is given with
its last byte first. -/
def longText? (quote : UInt8) (escapes : Bool) (seen : Bytes) (bs : Bytes) :
    Option (Bytes × Bytes) :=
  match bs with
  | [] => none
  | b :: rest =>
    if escapes && b == 0x5C then
      match rest with
      | [] => none
      | e :: rest => longText? quote escapes (e :: b :: seen) rest
    else if b == quote && [quote, quote].isPrefixOf rest then
      if (rest.drop 2).head? == some quote then
        if endsInFive quote escapes (quote :: quote :: quote :: seen) then none
        else longText? quote escapes (b :: seen) rest
      else some (seen.reverse, rest.drop 2)
    else longText? quote escapes (b :: seen) rest

/-- The content without a line end at its beginning. -/
def dropFirstLineEnd (bs : Bytes) : Bytes :=
  match bs with
  | 0x0A :: rest => rest
  | 0x0D :: 0x0A :: rest => rest
  | _ => bs

/-- The text that written content stands for. A backslash at the end of a line takes away all blanks
and line ends up to the next character. -/
def unescape? : Bytes → Option Bytes
  | [] => some []
  | b :: rest =>
    if b == 0x5C then
      let gap := rest.takeWhile fun c => isSpace c || isLineEnd c
      if gap.contains 0x0A then unescape? (rest.drop gap.length)
      else
        match escape? rest with
        | none => none
        | some (c, n) => (unescape? (rest.drop n)).map (c ++ ·)
    else (unescape? rest).map (b :: ·)
  termination_by bs => bs.length
  decreasing_by all_goals simp only [List.length_drop, List.length_cons]; omega

/-- A text in any of the four kinds of quotes. -/
def text? (bs : Bytes) : Option (Bytes × Bytes) :=
  match bs with
  | 0x22 :: 0x22 :: 0x22 :: rest =>
    (longText? 0x22 true [] rest).bind fun (raw, after) =>
      (unescape? (dropFirstLineEnd raw)).map fun s => (s, after)
  | 0x27 :: 0x27 :: 0x27 :: rest =>
    (longText? 0x27 false [] rest).map fun (raw, after) => (dropFirstLineEnd raw, after)
  | 0x22 :: rest => basicText? rest
  | 0x27 :: rest => rawText? rest
  | _ => none

/-- A name in quotes on one line, or a bare name. -/
def name? (bs : Bytes) : Option (Bytes × Bytes) :=
  match bs with
  | 0x22 :: rest => basicText? rest
  | 0x27 :: rest => rawText? rest
  | _ =>
    let name := bs.takeWhile isBare
    if name.isEmpty then none else some (name, bs.drop name.length)

/-- Does every underscore stand between two digits, and is there a digit at the end? -/
def underscoresFit (isDigit : UInt8 → Bool) (bs : Bytes) : Bool :=
  (Bytes.split 0x5F bs).all fun run => !run.isEmpty && run.all isDigit

/-- A run of digits without its underscores. -/
def bareDigits (bs : Bytes) : Bytes :=
  bs.filter (· != 0x5F)

/-- Digits with underscores between them. -/
def isDigitRun (bs : Bytes) : Bool :=
  underscoresFit Bytes.isDigit bs

/-- The sign in front of a number, and the number without it. -/
def signOf (bs : Bytes) : Bytes × Bytes :=
  match bs with
  | b :: rest => if b == 0x2B || b == 0x2D then ([b], rest) else ([], bs)
  | [] => ([], [])

/-- Integers have sixty-four bits. -/
def inRange (n : Int) : Bool :=
  -9223372036854775808 ≤ n && n ≤ 9223372036854775807

/-- Does a number have digits after a zero at its beginning? -/
def hasLeadingZero (digits : Bytes) : Bool :=
  digits.head? == some 0x30 && 1 < digits.length

/-- The value of a decimal integer. -/
def decimalInteger? (written : Bytes) : Option Int :=
  let (sign, digits) := signOf written
  if isDigitRun digits && !hasLeadingZero digits then
    let n : Int := Bytes.digitsValue (bareDigits digits)
    let n := if sign = [0x2D] then -n else n
    if inRange n then some n else none
  else none

/-- The base of a number by its letter. -/
def baseOf? (b : UInt8) : Option Nat :=
  match b with
  | 0x62 => some 2
  | 0x6F => some 8
  | 0x78 => some 16
  | _ => none

/-- Is the byte a digit of the base? -/
def isBaseDigit (base : Nat) (b : UInt8) : Bool :=
  match Bytes.hexValue? b with
  | some d => d < base
  | none => false

/-- The value of an integer in another base, without its first two characters. -/
def basedInteger? (base : Nat) (digits : Bytes) : Option Int :=
  if underscoresFit (isBaseDigit base) digits then
    let n : Int := (bareDigits digits).foldl
      (fun n b => n * base + (Bytes.hexValue? b).getD 0) 0
    if inRange n then some n else none
  else none

/-- The largest number of digits before the point of a number in range. -/
def maxMagnitude : Nat := 309

/-- The first number that is out of range: halfway between the largest double and the next power of
two. -/
def overflowBound : Nat := Nat.pow 2 1024 - Nat.pow 2 970

/-- Is a number in the range of doubles? It has the given digits before and after the point and the
given exponent of ten. -/
def fitsDouble (whole fraction : Bytes) (exponent : Int) : Bool :=
  let digits := (whole ++ fraction).dropWhile (· == 0x30)
  if digits.isEmpty then true
  else
    let zeros := (whole ++ fraction).length - digits.length
    let magnitude : Int := (whole.length : Int) - zeros + exponent
    if magnitude < maxMagnitude then true
    else if maxMagnitude < magnitude then false
    else
      let scale : Int := (fraction.length : Int) - exponent
      let value := Bytes.digitsValue digits
      if scale ≤ 0 then value * Nat.pow 10 (-scale).toNat < overflowBound
      else value < overflowBound * Nat.pow 10 scale.toNat

/-- Is the text a number with a fraction or an exponent? -/
def isFloat (written : Bytes) : Bool :=
  let (_, number) := signOf written
  let isMark (b : UInt8) : Bool := b == 0x65 || b == 0x45
  let mantissa := number.takeWhile (!isMark ·)
  let power := (number.drop mantissa.length).drop 1
  let hasPower := mantissa.length < number.length
  let whole := mantissa.takeWhile (· != 0x2E)
  let fraction := (mantissa.drop whole.length).drop 1
  let hasFraction := whole.length < mantissa.length
  let (powerSign, powerDigits) := signOf power
  isDigitRun whole && !hasLeadingZero whole
    && (!hasFraction || isDigitRun fraction)
    && (!hasPower || isDigitRun powerDigits)
    && fitsDouble (bareDigits whole) (bareDigits fraction)
      (let n : Int := Bytes.digitsValue (bareDigits powerDigits)
       if powerSign = [0x2D] then -n else n)

/-- May the byte stand in a number with a fraction or an exponent? -/
def isFloatByte (b : UInt8) : Bool :=
  Bytes.isDigit b || b == 0x5F || b == 0x2E || b == 0x2D || b == 0x2B || b == 0x65 || b == 0x45

/-- May the byte stand in a date or a time? -/
def isMomentByte (b : UInt8) : Bool :=
  Bytes.isDigit b || b == 0x2D || b == 0x3A || b == 0x54 || b == 0x74 || b == 0x20 || b == 0x2E
    || b == 0x5A || b == 0x7A || b == 0x2B

/-- A decimal number: whole digits, and a fraction or an exponent if one follows them. -/
def decimal? (bs : Bytes) : Option (Value × Bytes) :=
  let (sign, digits) := signOf bs
  let whole := digits.takeWhile fun b => Bytes.isDigit b || b == 0x5F
  let after := digits.drop whole.length
  match after.head? with
  | some b =>
    if b == 0x2E || b == 0x65 || b == 0x45 then
      let written := sign ++ whole ++ after.takeWhile isFloatByte
      if isFloat written then some (.float written, bs.drop written.length) else none
    else (decimalInteger? (sign ++ whole)).map fun n => (.integer n, after)
  | none => (decimalInteger? (sign ++ whole)).map fun n => (.integer n, after)

/-- A date or a time; blanks behind it are read as well. -/
def moment? (bs : Bytes) : Option (Value × Bytes) :=
  let written := bs.takeWhile isMomentByte
  let trimmed := (written.reverse.dropWhile (· == 0x20)).reverse
  if Moment.isValid trimmed then some (.moment trimmed, bs.drop written.length) else none

/-- A number, a date or a time that begins with a digit. -/
def digitFirst? (bs : Bytes) : Option (Value × Bytes) :=
  let run := bs.takeWhile Bytes.isDigit
  match run, bs.drop run.length with
  | [0x30], b :: rest =>
    match baseOf? b with
    | some base =>
      let digits := rest.takeWhile fun d => isBaseDigit base d || d == 0x5F
      (basedInteger? base digits).map fun n => (.integer n, rest.drop digits.length)
    | none => decimal? bs
  | _, b :: _ => if b == 0x2D || b == 0x3A then moment? bs else decimal? bs
  | _, [] => decimal? bs

/-- A number that begins with a sign. -/
def signed? (sign : UInt8) (rest : Bytes) : Option (Value × Bytes) :=
  if (text "inf").isPrefixOf rest || (text "nan").isPrefixOf rest then
    some (.float (sign :: rest.take 3), rest.drop 3)
  else
    match rest with
    | 0x30 :: b :: _ => if (baseOf? b).isSome then none else decimal? (sign :: rest)
    | d :: _ => if Bytes.isDigit d then decimal? (sign :: rest) else none
    | [] => none

/-- Is the byte an ASCII letter, or part of a character outside ASCII? -/
def continuesWord (b : UInt8) : Bool :=
  (65 ≤ b && b ≤ 90) || (97 ≤ b && b ≤ 122) || 0x80 ≤ b

/-- A truth value: the word may not go on. -/
def truth? (bs : Bytes) : Option (Value × Bytes) :=
  let word := bs.takeWhile continuesWord
  if word = text "true" then some (.boolean true, bs.drop word.length)
  else if word = text "false" then some (.boolean false, bs.drop word.length)
  else none

/-- A value that is written in one piece. -/
def scalar? (bs : Bytes) : Option (Value × Bytes) :=
  match bs with
  | [] => none
  | b :: rest =>
    if b == 0x22 || b == 0x27 then (text? bs).map fun (s, after) => (.string s, after)
    else if Bytes.isDigit b then digitFirst? bs
    else if b == 0x2B || b == 0x2D then signed? b rest
    else if (text "inf").isPrefixOf bs || (text "nan").isPrefixOf bs then
      some (.float (bs.take 3), bs.drop 3)
    else truth? bs

end Toml
end UnionAtlas
