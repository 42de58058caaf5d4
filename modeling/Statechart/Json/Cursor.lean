/-!
# Reading JSON text byte by byte

A cursor walks the UTF-8 bytes of a JSON text. Every fault it reports carries
the place where reading stopped, as a line (counted from 1) and a column (the
bytes since the last line feed). Faults raised by a typed reader, such as a
value of the wrong type, carry no place of their own: the innermost value
reader that sees them gives them the place where the cursor stands then
(`fixPlace`).

Two places are used. `fault` marks the current byte; `peekFault` marks the
byte after it, or the end of the text, as when a reader looked at a byte without
taking it. Nesting is allowed to 127 levels: the 128th bracket is refused
before it is taken.
-/
namespace Statechart.Json

/-- Why reading a JSON text failed. -/
inductive Fault where
  | eofValue
  | eofList
  | eofObject
  | eofString
  | expectedColon
  | expectedListCommaOrEnd
  | expectedObjectCommaOrEnd
  | expectedIdent
  | expectedValue
  | invalidEscape
  | invalidNumber
  | numberOutOfRange
  | controlCharacter
  | keyMustBeString
  | loneLeadingSurrogate
  | trailingComma
  | trailingCharacters
  | unexpectedEndOfHexEscape
  | recursionLimit
  /-- A fault found by a typed reader, in its own words. -/
  | message (text : String)
  deriving DecidableEq, Repr, Inhabited

namespace Fault

/-- The words of a fault. -/
def describe : Fault → String
  | .eofValue => "EOF while parsing a value"
  | .eofList => "EOF while parsing a list"
  | .eofObject => "EOF while parsing an object"
  | .eofString => "EOF while parsing a string"
  | .expectedColon => "expected `:`"
  | .expectedListCommaOrEnd => "expected `,` or `]`"
  | .expectedObjectCommaOrEnd => "expected `,` or `\x7d`"
  | .expectedIdent => "expected ident"
  | .expectedValue => "expected value"
  | .invalidEscape => "invalid escape"
  | .invalidNumber => "invalid number"
  | .numberOutOfRange => "number out of range"
  | .controlCharacter => "control character (\\u0000-\\u001F) found while parsing a string"
  | .keyMustBeString => "key must be a string"
  | .loneLeadingSurrogate => "lone leading surrogate in hex escape"
  | .trailingComma => "trailing comma"
  | .trailingCharacters => "trailing characters"
  | .unexpectedEndOfHexEscape => "unexpected end of hex escape"
  | .recursionLimit => "recursion limit exceeded"
  | .message text => text

end Fault

/-- A fault and, once known, its line and column. -/
structure ReadError where
  fault : Fault
  place : Option (Nat × Nat) := none
  deriving DecidableEq, Repr, Inhabited

/-- The text of a read error: the fault, then its place when it has one. -/
def ReadError.render (e : ReadError) : String :=
  match e.place with
  | some (line, column) => s!"{e.fault.describe} at line {line} column {column}"
  | none => e.fault.describe

/-- The bytes of a text and how far reading has come. -/
structure Cursor where
  bytes : ByteArray
  pos : Nat := 0
  /-- How many more levels of nesting may be opened before the limit. -/
  room : Nat := 128

/-- Reading JSON: faults keep the cursor where they happened. -/
abbrev Reader := ExceptT ReadError (StateM Cursor)

namespace Cursor

/-- Line and column of byte index `i`: lines count from 1, columns are the
bytes since the last line feed before `i`. -/
def placeOf (bytes : ByteArray) (i : Nat) : Nat × Nat :=
  let before := (bytes.extract 0 i).toList
  let line := 1 + before.count 10
  let column := (before.reverse.takeWhile (· != 10)).length
  (line, column)

def isBlank (b : UInt8) : Bool :=
  b == 32 || b == 10 || b == 9 || b == 13

/-- The cursor moved past white space. -/
def skipBlank (c : Cursor) : Cursor :=
  if h : c.pos < c.bytes.size then
    if isBlank c.bytes[c.pos] then skipBlank { c with pos := c.pos + 1 } else c
  else c
termination_by c.bytes.size - c.pos

end Cursor

def peek : Reader (Option UInt8) := do
  let c ← get
  return c.bytes[c.pos]?

def advance : Reader Unit :=
  modify fun c => { c with pos := c.pos + 1 }

def next : Reader (Option UInt8) := do
  let b ← peek
  if b.isSome then advance
  return b

/-- Skips white space and returns the byte under the cursor. -/
def peekValue : Reader (Option UInt8) := do
  modify Cursor.skipBlank
  peek

/-- A fault at the current byte. -/
def fault (f : Fault) : Reader ReadError := do
  let c ← get
  return { fault := f, place := some (Cursor.placeOf c.bytes c.pos) }

/-- A fault at the byte after the current one, or at the end of the text. -/
def peekFault (f : Fault) : Reader ReadError := do
  let c ← get
  return { fault := f, place := some (Cursor.placeOf c.bytes (min c.bytes.size (c.pos + 1))) }

/-- Fails with a fault at the current byte. -/
def failHere (f : Fault) : Reader α := do throw (← fault f)

/-- Fails with a fault at the byte after the current one. -/
def failNext (f : Fault) : Reader α := do throw (← peekFault f)

/-- Fails with a typed reader's message, placed later. -/
def failWith (text : String) : Reader α :=
  throw { fault := .message text }

/-- Gives a fault without a place the place where the cursor stands when it
reaches this reader. -/
def fixPlace (r : Reader α) : Reader α :=
  tryCatch r fun e => do
    match e.place with
    | some _ => throw e
    | none => throw (← fault e.fault)

/-- Runs `body`, then `close` whatever happened; the first fault wins. -/
def closedBy (body : Reader α) (close : Reader Unit) : Reader α := do
  let r ← ExceptT.lift body.run
  let c ← ExceptT.lift close.run
  match r, c with
  | .error e, _ => throw e
  | .ok _, .error e => throw e
  | .ok v, .ok () => pure v

/-- Opens one level of nesting around `body`: refused at the limit, before the
bracket is taken. -/
def nested (body : Reader α) : Reader α := do
  let c ← get
  if c.room ≤ 1 then failNext .recursionLimit
  set { c with room := c.room - 1, pos := c.pos + 1 }
  let r ← ExceptT.lift body.run
  modify fun c' => { c' with room := c'.room + 1 }
  match r with
  | .ok v => pure v
  | .error e => throw e

/-- Takes the expected bytes of a keyword whose first byte is already taken. -/
def keyword (rest : List UInt8) : Reader Unit :=
  match rest with
  | [] => pure ()
  | b :: bs => do
    match ← next with
    | some x => if x == b then keyword bs else failHere .expectedIdent
    | none => failHere .eofValue

/-- Closes a list: takes `]`; a comma before it or anything else is a fault. -/
def closeList : Reader Unit := do
  match ← peekValue with
  | some 93 => advance
  | some 44 =>
    advance
    match ← peekValue with
    | some 93 => failNext .trailingComma
    | _ => failNext .trailingCharacters
  | some _ => failNext .trailingCharacters
  | none => failNext .eofList

/-- Closes an object: takes `}`; anything else is a fault and is left in place. -/
def closeObject : Reader Unit := do
  match ← peekValue with
  | some 125 => advance
  | some 44 => failNext .trailingComma
  | some _ => failNext .trailingCharacters
  | none => failNext .eofObject

/-- Whether another list element follows; takes the comma before it. -/
def moreElements (first : Bool) : Reader Bool := do
  match ← peekValue with
  | none => failNext .eofList
  | some 93 => pure false
  | some b =>
    if first then pure true
    else if b == 44 then
      advance
      match ← peekValue with
      | some 93 => failNext .trailingComma
      | some _ => pure true
      | none => failNext .eofValue
    else failNext .expectedListCommaOrEnd

/-- Whether another object member follows; takes the comma before it and
leaves the cursor on the key's opening quote. -/
def moreMembers (first : Bool) : Reader Bool := do
  match ← peekValue with
  | some 125 => pure false
  | none => failNext .eofObject
  | some b =>
    if b == 44 && !first then
      advance
      keyStart (← peekValue)
    else if first then keyStart (some b)
    else failNext .expectedObjectCommaOrEnd
where
  /-- A key must start with a quote. -/
  keyStart : Option UInt8 → Reader Bool
    | some 34 => pure true
    | some 125 => failNext .trailingComma
    | some _ => failNext .keyMustBeString
    | none => failNext .eofValue

def colon : Reader Unit := do
  match ← peekValue with
  | some 58 => advance
  | some _ => failNext .expectedColon
  | none => failNext .eofObject

/-- Reads the elements of a list up to its closing bracket, left in place.
Each element consumes at least one byte, so the bytes left bound the loop. -/
def elements (elem : Reader α) : Reader (List α) := do
  let c ← get
  go elem (c.bytes.size - c.pos + 1) true []
where
  go (elem : Reader α) : Nat → Bool → List α → Reader (List α)
    | 0, _, acc => pure acc.reverse
    | fuel + 1, first, acc => do
      if ← moreElements first then
        let x ← elem
        go elem fuel false (x :: acc)
      else pure acc.reverse

/-- Reads the members of an object up to its closing brace, left in place:
`key` reads a key from its opening quote, `value` the value after the colon. -/
def members (key : Reader κ) (value : κ → Reader α) : Reader (List (κ × α)) := do
  let c ← get
  go key value (c.bytes.size - c.pos + 1) true []
where
  go (key : Reader κ) (value : κ → Reader α) : Nat → Bool → List (κ × α) → Reader (List (κ × α))
    | 0, _, acc => pure acc.reverse
    | fuel + 1, first, acc => do
      if ← moreMembers first then
        let k ← key
        colon
        let v ← value k
        go key value fuel false ((k, v) :: acc)
      else pure acc.reverse

end Statechart.Json
