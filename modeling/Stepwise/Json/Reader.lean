import Stepwise.Double.Read
import Stepwise.Json.Basic

/-!
# Reading JSON

The reader accepts exactly the texts of the standard grammar, nested at most 127
levels deep. Objects keep their fields sorted by key, and the last of several
fields with one key stays.

An integer that fits 64 bits stays an integer. Every other number is a double,
computed from the digits that fit an unsigned 64-bit significand and a power of
ten, with one rounding for each of the two.

## Main definitions

* `Stepwise.Json.Significand` — the digits of a number that are kept.
* `Stepwise.Json.ofScaled?` — the double of a significand and a power of ten.
* `Stepwise.Json.parse?` — the value that a text writes.
-/

namespace Stepwise.Json

/-! ### Strings -/

/-- The value of a digit in base sixteen. -/
def hexValue? (c : Char) : Option Nat :=
  if c.isDigit then some (c.toNat - '0'.toNat)
  else if 'a' ≤ c && c ≤ 'f' then some (c.toNat - 'a'.toNat + 10)
  else if 'A' ≤ c && c ≤ 'F' then some (c.toNat - 'A'.toNat + 10)
  else none

/-- Four digits in base sixteen, and what follows them. -/
def readHex4 : Text → Option (Nat × Text)
  | a :: b :: c :: d :: rest => do
    let a ← hexValue? a
    let b ← hexValue? b
    let c ← hexValue? c
    let d ← hexValue? d
    some (((a * 16 + b) * 16 + c) * 16 + d, rest)
  | _ => none

/-- The character that a one-letter escape stands for. -/
def simpleEscape? (c : Char) : Option Char :=
  if c = '\x22' || c = '\\' || c = '/' then some c
  else if c = 'b' then some '\x08'
  else if c = 'f' then some '\x0c'
  else if c = 'n' then some '\n'
  else if c = 'r' then some '\r'
  else if c = 't' then some '\t'
  else none

/-- The character of an escape, whose backslash is already read. A character beyond
the basic plane is a pair of surrogates, and no surrogate stands alone. -/
def readEscape : Text → Option (Char × Text)
  | [] => none
  | c :: rest =>
    if c ≠ 'u' then (simpleEscape? c).map (·, rest)
    else do
      let (high, rest) ← readHex4 rest
      if 0xDC00 ≤ high && high ≤ 0xDFFF then none
      else if 0xD800 ≤ high && high ≤ 0xDBFF then
        match rest with
        | '\\' :: 'u' :: rest => do
          let (low, rest) ← readHex4 rest
          if 0xDC00 ≤ low && low ≤ 0xDFFF then
            some (Char.ofNat (0x10000 + (high - 0xD800) * 0x400 + (low - 0xDC00)), rest)
          else none
        | _ => none
      else some (Char.ofNat high, rest)

/-- The contents of a string, whose opening quote is already read. -/
def readString : Nat → Text → Option (Text × Text)
  | 0, _ => none
  | _, [] => none
  | fuel + 1, c :: rest =>
    if c = '\x22' then some ([], rest)
    else if c = '\\' then do
      let (d, rest) ← readEscape rest
      let (text, rest) ← readString fuel rest
      some (d :: text, rest)
    else if c.toNat < 0x20 then none
    else do
      let (text, rest) ← readString fuel rest
      some (c :: text, rest)

/-! ### Numbers -/

/-- The bound of unsigned 64-bit significands. -/
def significandBound : Nat := UInt64.size

/-- The greatest exponent that can be written. -/
def exponentBound : Nat := 2147483648

/-- The digits of a number that are kept: the longest run that stays below the
bound, with the digits that did not fit. -/
structure Significand where
  /-- The number that the kept digits write. -/
  value : Nat
  /-- How many digits are kept. -/
  kept : Nat
  /-- How many digits are left out. -/
  dropped : Nat

/-- Takes digits into a significand until one does not fit. -/
def takeDigits (value kept : Nat) : Text → Significand
  | [] => ⟨value, kept, 0⟩
  | c :: rest =>
    let next := value * 10 + (c.toNat - '0'.toNat)
    if next < significandBound then takeDigits next (kept + 1) rest
    else ⟨value, kept, rest.length + 1⟩

/-- The double of `significand * 10 ^ exponent`: the significand is rounded to a
double and then multiplied or divided by a power of ten that is a double itself.
There is none when the product is infinite. -/
def ofScaled? (significand : Float) (exponent : Int) : Option Float :=
  if exponent.natAbs ≤ 308 then
    let power := Float.ofScientific 1 false exponent.natAbs
    if 0 ≤ exponent then
      let product := significand * power
      if product.isInf then none else some product
    else some (significand / power)
  else if significand == 0.0 then some significand
  else if 0 ≤ exponent then none
  else ofScaled? (significand / Float.ofScientific 1 false 308) (exponent + 308)
termination_by (-exponent).toNat

/-- The exponent of a number, whose letter is already read, with what follows it.
There is no value for an exponent whose digits leave the bound. -/
def readExponent (text : Text) : Option (Bool × Option Nat × Text) :=
  let (negative, rest) := Double.splitSign text
  let (digits, rest) := Double.splitDigits rest
  if digits.isEmpty then none
  else
    let n := Double.natOfDigits digits
    some (negative, if n < exponentBound then some n else none, rest)

/-- The double of a significand and an exponent that may be followed by a written
exponent. -/
def finishDouble (negative : Bool) (significand : Nat) (exponent : Int) (text : Text) :
    Option (Json × Text) :=
  let signed (magnitude : Float) : Json := .double (if negative then -magnitude else magnitude)
  let start := significand.toUInt64.toFloat
  match text with
  | [] => (ofScaled? start exponent).map fun x => (signed x, [])
  | c :: rest =>
    if c = 'e' || c = 'E' then do
      let (down, shift, rest) ← readExponent rest
      match shift with
      | some n =>
        let total := if down then exponent - n else exponent + n
        (ofScaled? start total).map fun x => (signed x, rest)
      | none => if significand ≠ 0 && !down then none else some (signed 0.0, rest)
    else (ofScaled? start exponent).map fun x => (signed x, text)

/-- A number, whose minus sign is already read. -/
def readNumber (negative : Bool) (text : Text) : Option (Json × Text) :=
  let (whole, rest) := Double.splitDigits text
  if whole.isEmpty || (whole.length ≠ 1 && whole.head? == some '0') then none
  else
    let s := takeDigits 0 0 whole
    match rest with
    | '.' :: rest =>
      let (fraction, rest) := Double.splitDigits rest
      if fraction.isEmpty then none
      else
        let t := takeDigits s.value 0 fraction
        finishDouble negative t.value ((s.dropped : Int) - t.kept) rest
    | rest =>
      if rest.head? == some 'e' || rest.head? == some 'E' || s.dropped ≠ 0 then
        finishDouble negative s.value s.dropped rest
      -- A negative zero and what no signed word holds are doubles.
      else if !negative then some (.int s.value, rest)
      else if s.value = 0 || 9223372036854775808 < s.value then finishDouble true s.value 0 rest
      else some (.int (-s.value), rest)

/-! ### Values -/

/-- Spaces, tabs, line feeds and carriage returns may stand between tokens. -/
def skipBlanks (text : Text) : Text :=
  text.dropWhile fun c => c == ' ' || c == '\t' || c == '\n' || c == '\r'

/-- A word, and the value it stands for. -/
def readName (text : Text) : Option (Json × Text) :=
  ((Text.afterLead "null".toList text).map (Json.null, ·)).or <|
    ((Text.afterLead "true".toList text).map (Json.bool true, ·)).or <|
      (Text.afterLead "false".toList text).map (Json.bool false, ·)

mutual

/-- A value, nested at most `depth` levels deep, and what follows it. -/
def readValue (fuel depth : Nat) (text : Text) : Option (Json × Text) :=
  match fuel with
  | 0 => none
  | fuel + 1 =>
    match skipBlanks text with
    | [] => none
    | c :: rest =>
      if c = '[' then
        match depth with
        | 0 => none
        | depth + 1 =>
          match skipBlanks rest with
          | ']' :: rest => some (.arr [], rest)
          | rest => (readItems fuel depth rest).map fun r => (.arr r.1, r.2)
      else if c = '{' then
        match depth with
        | 0 => none
        | depth + 1 =>
          match skipBlanks rest with
          | '}' :: rest => some (.obj [], rest)
          | rest => (readFields fuel depth rest).map fun r => (ofFields r.1, r.2)
      else if c = '\x22' then
        (readString (rest.length + 1) rest).map fun r => (.str r.1, r.2)
      else if c = '-' then readNumber true rest
      else if c.isDigit then readNumber false (c :: rest)
      else readName (c :: rest)

/-- The items of an array up to its closing bracket. -/
def readItems (fuel depth : Nat) (text : Text) : Option (List Json × Text) :=
  match fuel with
  | 0 => none
  | fuel + 1 =>
    match readValue fuel depth text with
    | none => none
    | some (item, rest) =>
      match skipBlanks rest with
      | ',' :: rest => (readItems fuel depth rest).map fun r => (item :: r.1, r.2)
      | ']' :: rest => some ([item], rest)
      | _ => none

/-- The fields of an object up to its closing bracket, in the order written. -/
def readFields (fuel depth : Nat) (text : Text) : Option (List (Text × Json) × Text) :=
  match fuel with
  | 0 => none
  | fuel + 1 =>
    match skipBlanks text with
    | '\x22' :: rest =>
      match readString (rest.length + 1) rest with
      | none => none
      | some (key, rest) =>
        match skipBlanks rest with
        | ':' :: rest =>
          match readValue fuel depth rest with
          | none => none
          | some (value, rest) =>
            match skipBlanks rest with
            | ',' :: rest => (readFields fuel depth rest).map fun r => ((key, value) :: r.1, r.2)
            | '}' :: rest => some ([(key, value)], rest)
            | _ => none
        | _ => none
    | _ => none

end

/-- The value that a text writes, if the whole text is one value. Twice the length
of the text bounds the number of nested calls, because every second call takes a
character off. -/
def parse? (text : Text) : Option Json :=
  match readValue (2 * text.length + 2) 127 text with
  | some (value, rest) => if (skipBlanks rest).isEmpty then some value else none
  | none => none

end Stepwise.Json
