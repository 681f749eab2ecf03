import Stepwise.Toml.Lexical

/-!
# Reading TOML

## Main definitions

* `Stepwise.Toml.readValue` — a value: a word, an array or a table in braces.
* `Stepwise.Toml.Progress` — the document read so far.
* `Stepwise.Toml.parse?` — the fields of a document.
-/

namespace Stepwise.Toml

mutual

/-- A value whose arrays and tables are nested less than `depth` levels deep, and the
text after it. -/
def readValue (fuel depth : Nat) (text : Text) : Option (Toml × Text) :=
  match fuel with
  | 0 => none
  | fuel + 1 =>
    match text with
    | [] => none
    | c :: rest =>
      if c = '\x22' || c = '\x27' then (readString text).map fun r => (.string r.1, r.2)
      else if c = '[' then
        match depth with
        | 0 | 1 => none
        | depth + 1 => (readItems fuel depth rest).map fun r => (.array r.1, r.2)
      else if c = '{' then
        match depth with
        | 0 | 1 => none
        | depth + 1 =>
          match skipBlanks rest with
          | '}' :: rest => some (.table .inline [], rest)
          | rest => (readPairs fuel depth [] rest).map fun r => (.table .inline r.1, r.2)
      else if c = 't' then (Text.afterLead "true".toList text).map fun rest => (.boolean true, rest)
      else if c = 'f' then
        (Text.afterLead "false".toList text).map fun rest => (.boolean false, rest)
      else (readTime text).or (readNumber text)

/-- The items of an array up to its closing bracket. A comma may follow the last one. -/
def readItems (fuel depth : Nat) (text : Text) : Option (List Toml × Text) :=
  match fuel with
  | 0 => none
  | fuel + 1 =>
    match skipLines (text.length + 1) text with
    | none => none
    | some (']' :: rest) => some ([], rest)
    | some text =>
      match readValue fuel depth text with
      | none => none
      | some (item, rest) =>
        match skipLines (rest.length + 1) rest with
        | some (',' :: rest) => (readItems fuel depth rest).map fun r => (item :: r.1, r.2)
        | some (']' :: rest) => some ([item], rest)
        | _ => none

/-- The keys of a table in braces up to its closing brace, added to the fields that
precede them. -/
def readPairs (fuel depth : Nat) (fields : Fields) (text : Text) : Option (Fields × Text) :=
  match fuel with
  | 0 => none
  | fuel + 1 =>
    match readKey text with
    | some (path, key, '=' :: rest) =>
      match readValue fuel depth (skipBlanks rest) with
      | none => none
      | some (value, rest) =>
        match insertKey path key value fields with
        | none => none
        | some fields =>
          match skipBlanks rest with
          | ',' :: rest => readPairs fuel depth fields rest
          | '}' :: rest => some (fields, rest)
          | _ => none
    | _ => none

end

/-! ### Documents -/

/-- The document read so far. -/
structure Progress where
  /-- The fields of the document. -/
  fields : Fields := []
  /-- The table that the last header opened. -/
  current : List Text := []

/-- Adds a key to the table that the last header opened. -/
def Progress.insert (progress : Progress) (path : List Text) (key : Text) (value : Toml) :
    Option Progress :=
  (within false (fun _ inner => insertKey path key value inner) progress.current .header
    progress.fields).map fun fields => { progress with fields }

/-- A header between `closing` brackets; `openAt` opens what it names. -/
def readHeader (closing : Text) (openAt : List Text → Text → Fields → Option Fields)
    (progress : Progress) (text : Text) : Option (Progress × Text) := do
  let (path, key, rest) ← readKey text
  let rest ← Text.afterLead closing rest
  let fields ← openAt path key progress.fields
  some ({ fields, current := path ++ [key] }, rest)

/-- A key with its value. -/
def readPair (progress : Progress) (text : Text) : Option (Progress × Text) := do
  let (path, key, rest) ← readKey text
  let rest ← readChar '=' rest
  let (value, rest) ← readValue (2 * text.length + 2) nestingLimit (skipBlanks rest)
  some (← progress.insert path key value, rest)

/-- The fields of a document from a line on. -/
def readLines : Nat → Progress → Text → Option Fields
  | 0, _, _ => none
  | fuel + 1, progress, text =>
    let next (found : Option (Progress × Text)) : Option Fields := do
      let (progress, rest) ← found
      readLines fuel progress (← finishLine rest)
    match skipBlanks text with
    | [] => some progress.fields
    | '[' :: '[' :: rest => next (readHeader [']', ']'] openElement progress rest)
    | '[' :: rest => next (readHeader [']'] openTable progress rest)
    | c :: rest =>
      if c = '#' || c = '\n' || c = '\r' then next (some (progress, c :: rest))
      else next (readPair progress (c :: rest))

/-- The text without a mark of its byte order. -/
def dropByteOrderMark : Text → Text
  | '\uFEFF' :: rest => rest
  | text => text

/-- The fields of a document. Every line takes at least one character. -/
def parse? (text : Text) : Option Fields :=
  readLines (text.length + 1) {} (dropByteOrderMark text)

end Stepwise.Toml
