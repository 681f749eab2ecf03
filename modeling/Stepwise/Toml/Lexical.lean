import Stepwise.Double.Read
import Stepwise.Json.Reader
import Stepwise.Toml.Basic

/-!
# The words of TOML

Readers for keys, strings, numbers and times. Each gives what it read and the text
after it.

## Main definitions

* `Stepwise.Toml.skipBlanks`, `skipComment`, `readNewline` — what separates words.
* `Stepwise.Toml.readString` — the four kinds of strings.
* `Stepwise.Toml.readKey` — a dotted key.
* `Stepwise.Toml.readNumber`, `readTime` — integers, floats and times.
-/

namespace Stepwise.Toml

/-! ### Separators -/

/-- Spaces and tabs. -/
def isSpace (c : Char) : Bool :=
  c == ' ' || c == '\t'

/-- The text without leading spaces and tabs. -/
def skipBlanks (text : Text) : Text :=
  text.dropWhile isSpace

/-- A character that may stand in comments and literal strings: no control character
but the tab. -/
def isPlain (c : Char) : Bool :=
  c == '\t' || (0x20 ≤ c.toNat && c.toNat != 0x7F)

/-- The text after a line feed, which a carriage return may precede. -/
def readNewline : Text → Option Text
  | '\n' :: rest => some rest
  | '\r' :: '\n' :: rest => some rest
  | _ => none

/-- The text without a leading comment. -/
def skipComment (text : Text) : Text :=
  match text with
  | '#' :: rest => rest.dropWhile isPlain
  | text => text

/-- The text after the end of a line: blanks, a comment, and a line feed or the end of
the document. -/
def finishLine (text : Text) : Option Text :=
  match skipComment (skipBlanks text) with
  | [] => some []
  | rest => readNewline rest

/-- The text without leading blanks, comments and line feeds. A comment ends in a line
feed. -/
def skipLines : Nat → Text → Option Text
  | 0, text => some text
  | fuel + 1, text =>
    match skipBlanks text with
    | '#' :: rest => (readNewline (rest.dropWhile isPlain)).bind (skipLines fuel)
    | rest =>
      match readNewline rest with
      | some rest => skipLines fuel rest
      | none => some rest

/-! ### Strings -/

/-- The number that digits in base sixteen write. -/
def hexNumber? (digits : Text) : Option Nat :=
  digits.foldlM (fun n c => (Json.hexValue? c).map fun d => n * 16 + d) 0

/-- The character that an escape with `size` digits writes, and the text after it. No
surrogate is a character. -/
def readCodePoint (size : Nat) (text : Text) : Option (Char × Text) :=
  let digits := text.take size
  if digits.length ≠ size then none
  else
    match hexNumber? digits with
    | none => none
    | some n =>
      if n < 0xD800 || (0xDFFF < n && n < 0x110000) then some (Char.ofNat n, text.drop size)
      else none

/-- The character of an escape, whose backslash is already read. -/
def readEscape : Text → Option (Char × Text)
  | [] => none
  | c :: rest =>
    if c = 'u' then readCodePoint 4 rest
    else if c = 'U' then readCodePoint 8 rest
    else if c = 'b' then some ('\x08', rest)
    else if c = 't' then some ('\t', rest)
    else if c = 'n' then some ('\n', rest)
    else if c = 'f' then some ('\x0c', rest)
    else if c = 'r' then some ('\r', rest)
    else if c = '\x22' || c = '\\' then some (c, rest)
    else none

/-- The contents of a string in double quotes on one line, whose opening quote is
already read. -/
def readBasic : Nat → Text → Option (Text × Text)
  | 0, _ => none
  | _, [] => none
  | fuel + 1, c :: rest =>
    if c = '\x22' then some ([], rest)
    else if c = '\\' then do
      let (d, rest) ← readEscape rest
      let (text, rest) ← readBasic fuel rest
      some (d :: text, rest)
    else if isPlain c then do
      let (text, rest) ← readBasic fuel rest
      some (c :: text, rest)
    else none

/-- The contents of a string in single quotes on one line, whose opening quote is
already read. -/
def readLiteral (text : Text) : Option (Text × Text) :=
  let contents := text.takeWhile fun c => isPlain c && c != '\x27'
  match text.drop contents.length with
  | '\x27' :: rest => some (contents, rest)
  | _ => none

/-- The end of a string over several lines: three quotes, before which two more may
stand as contents. Gives the contents and the text after the end. -/
def closeLong (quote : Char) (text : Text) : Option (Text × Text) :=
  let quotes := text.takeWhile (· == quote)
  if quotes.length < 3 then none
  else
    let inside := min (quotes.length - 3) 2
    some (quotes.take inside, text.drop (inside + 3))

/-- The text without leading blanks and line feeds. -/
def skipBlankLines : Nat → Text → Text
  | 0, text => text
  | fuel + 1, text =>
    match readNewline (skipBlanks text) with
    | some rest => skipBlankLines fuel rest
    | none => skipBlanks text

/-- The text after an escaped end of line: all white space after it is left out. -/
def skipEscapedLine (text : Text) : Option Text :=
  (readNewline (skipBlanks text)).map fun rest => skipBlankLines (rest.length + 1) rest

/-- The contents of a string over several lines, whose opening quotes are already
read. Escapes only count where `escapes` holds. -/
def readLong (quote : Char) (escapes : Bool) : Nat → Text → Option (Text × Text)
  | 0, _ => none
  | _, [] => none
  | fuel + 1, c :: rest =>
    let keep (d : Char) (rest : Text) : Option (Text × Text) :=
      (readLong quote escapes fuel rest).map fun r => (d :: r.1, r.2)
    if c = quote then
      -- One or two quotes alone belong to the contents.
      match closeLong quote (c :: rest) with
      | some found => some found
      | none => keep c rest
    else if escapes && c = '\\' then
      match skipEscapedLine rest with
      | some rest => readLong quote escapes fuel rest
      | none => (readEscape rest).bind fun r => keep r.1 r.2
    else if c = '\n' then keep '\n' rest
    else if c = '\r' then
      match rest with
      | '\n' :: rest => keep '\n' rest
      | _ => none
    else if isPlain c then keep c rest
    else none

/-- The text without a line feed right at its start. -/
def dropFirstNewline (text : Text) : Text :=
  (readNewline text).getD text

/-- A string of any of the four kinds. -/
def readString (text : Text) : Option (Text × Text) :=
  match text with
  | '\x22' :: '\x22' :: '\x22' :: rest =>
    readLong '\x22' true (rest.length + 1) (dropFirstNewline rest)
  | '\x27' :: '\x27' :: '\x27' :: rest =>
    readLong '\x27' false (rest.length + 1) (dropFirstNewline rest)
  | '\x22' :: rest => readBasic (rest.length + 1) rest
  | '\x27' :: rest => readLiteral rest
  | _ => none

/-! ### Keys -/

/-- The characters of keys without quotes. -/
def isBareKeyChar (c : Char) : Bool :=
  c.isAlphanum || c == '_' || c == '-'

/-- A key without dots. -/
def readSimpleKey (text : Text) : Option (Text × Text) :=
  match text with
  | '\x22' :: rest => readBasic (rest.length + 1) rest
  | '\x27' :: rest => readLiteral rest
  | text =>
    let key := text.takeWhile isBareKeyChar
    if key.isEmpty then none else some (key, text.drop key.length)

/-- A dotted key as the list of its parts, with the blanks around them. -/
def readParts : Nat → Text → Option (List Text × Text)
  | 0, _ => none
  | fuel + 1, text => do
    let (part, rest) ← readSimpleKey (skipBlanks text)
    match skipBlanks rest with
    | '.' :: rest => do
      let (parts, rest) ← readParts fuel rest
      some (part :: parts, rest)
    | rest => some ([part], rest)

/-- How deep values and keys may be nested. -/
def nestingLimit : Nat := 80

/-- A dotted key: the parts before the last one, the last one and the text after it. -/
def readKey (text : Text) : Option (List Text × Text × Text) := do
  let (parts, rest) ← readParts (text.length + 1) text
  if nestingLimit ≤ parts.length then none
  else match parts.getLast? with
    | some key => some (parts.dropLast, key, rest)
    | none => none

/-! ### Numbers -/

/-- Digits between which single underscores may stand, without the underscores, and
the text after them. -/
def readDigits (isDigit : Char → Bool) : Text → Text × Text
  | [] => ([], [])
  | '_' :: c :: rest => if isDigit c then readDigits isDigit (c :: rest) else ([], '_' :: c :: rest)
  | c :: rest =>
    if isDigit c then
      let (digits, rest) := readDigits isDigit rest
      (c :: digits, rest)
    else ([], c :: rest)

/-- Digits of which the first one is no underscore. -/
def readSomeDigits (isDigit : Char → Bool) (text : Text) : Option (Text × Text) :=
  if text.head?.any isDigit then some (readDigits isDigit text) else none

/-- The digits of a decimal integer: a zero stands alone. -/
def readDecimal (text : Text) : Option (Text × Text) :=
  match text with
  | '0' :: rest => some (['0'], rest)
  | text => readSomeDigits Char.isDigit text

/-- The integers that can be written. -/
def isInteger (n : Int) : Bool :=
  -9223372036854775808 ≤ n && n ≤ 9223372036854775807

/-- An integer with a given base after its mark. -/
def readBased (base : Nat) (text : Text) : Option (Toml × Text) := do
  let isDigit (c : Char) : Bool := (Json.hexValue? c).any fun d => d < base
  let (digits, rest) ← readSomeDigits isDigit text
  let n := digits.foldl (fun n c => n * base + (Json.hexValue? c).getD 0) 0
  if isInteger n then some (.integer n, rest) else none

/-- The exponent of a float, if there is one. -/
def readExponent (text : Text) : Option (Text × Text) :=
  match text with
  | c :: rest =>
    if c = 'e' || c = 'E' then
      let (negative, rest) := Double.splitSign rest
      (readSomeDigits Char.isDigit rest).map fun r =>
        ('e' :: (if negative then ['-'] else []) ++ r.1, r.2)
    else none
  | [] => none

/-- A float with a fraction or an exponent, whose sign is already read. A positive one
must not be too great. -/
def readFloat (negative : Bool) (text : Text) : Option (Toml × Text) := do
  let (whole, rest) ← readDecimal text
  let (digits, rest) ← match rest with
    | '.' :: rest => do
      let (fraction, rest) ← readSomeDigits Char.isDigit rest
      match readExponent rest with
      | some (exponent, rest) => some (whole ++ '.' :: fraction ++ exponent, rest)
      | none => some (whole ++ '.' :: fraction, rest)
    | rest => (readExponent rest).map fun (exponent, rest) => (whole ++ exponent, rest)
  let value ← Double.ofText? digits
  if value.isInf && !negative then none else some (.float, rest)

/-- A number. -/
def readNumber (text : Text) : Option (Toml × Text) :=
  let (negative, rest) := Double.splitSign text
  let special := ((Text.afterLead "inf".toList rest).or (Text.afterLead "nan".toList rest)).map
    fun rest => (Toml.float, rest)
  let based := match text with
    | '0' :: 'x' :: rest => some (readBased 16 rest)
    | '0' :: 'o' :: rest => some (readBased 8 rest)
    | '0' :: 'b' :: rest => some (readBased 2 rest)
    | _ => none
  let decimal := (readDecimal rest).bind fun (digits, rest) =>
    let n : Int := Double.natOfDigits digits
    let n := if negative then -n else n
    if isInteger n then some (Toml.integer n, rest) else none
  match based with
  | some result => result
  | none => (readFloat negative rest).or (special.or decimal)

/-! ### Times -/

/-- The number of exactly `size` digits, if it lies in a range. -/
def readField (size low high : Nat) (text : Text) : Option (Nat × Text) :=
  let digits := text.take size
  if digits.length = size && digits.all Char.isDigit then
    let n := Double.natOfDigits digits
    if low ≤ n && n ≤ high then some (n, text.drop size) else none
  else none

/-- The text after a given character. -/
def readChar (c : Char) : Text → Option Text
  | d :: rest => if c = d then some rest else none
  | [] => none

/-- The number of days of a month. -/
def daysOf (year month : Nat) : Nat :=
  if month = 2 then
    if (year % 4 = 0 && year % 100 ≠ 0) || year % 400 = 0 then 29 else 28
  else if [4, 6, 9, 11].contains month then 30
  else 31

/-- A date. -/
def readDate (text : Text) : Option Text := do
  let (year, rest) ← readField 4 0 9999 text
  let (month, rest) ← readField 2 1 12 (← readChar '-' rest)
  let (_, rest) ← readField 2 1 (daysOf year month) (← readChar '-' rest)
  some rest

/-- A time of day; a second may be a leap second. -/
def readClock (text : Text) : Option Text := do
  let (_, rest) ← readField 2 0 23 text
  let (_, rest) ← readField 2 0 59 (← readChar ':' rest)
  let (_, rest) ← readField 2 0 60 (← readChar ':' rest)
  match rest with
  | '.' :: fraction =>
    let digits := fraction.takeWhile Char.isDigit
    if digits.isEmpty then some rest else some (fraction.drop digits.length)
  | rest => some rest

/-- The text after the distance from universal time, if there is one. -/
def skipZone (text : Text) : Text :=
  match text with
  | c :: rest =>
    if c = 'Z' || c = 'z' then rest
    else if c = '+' || c = '-' then
      let zone := do
        let (_, rest) ← readField 2 0 23 rest
        let (_, rest) ← readField 2 0 59 (← readChar ':' rest)
        some rest
      zone.getD text
    else text
  | [] => []

/-- A date, a time of day, or both with an optional distance from universal time. -/
def readTime (text : Text) : Option (Toml × Text) :=
  match readDate text with
  | some rest =>
    match rest with
    | c :: later =>
      if c = 'T' || c = 't' || c = ' ' then
        match readClock later with
        | some rest => some (.time, skipZone rest)
        | none => some (.time, rest)
      else some (.time, rest)
    | [] => some (.time, [])
  | none => (readClock text).map fun rest => (.time, rest)

end Stepwise.Toml
