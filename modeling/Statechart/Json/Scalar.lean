import Statechart.Json.Cursor
import Statechart.Text.Shortest
import Statechart.Text.Escape
/-!
# JSON strings and numbers

A string is read after its opening quote. Escapes are decoded; a `\u` escape
of a leading surrogate must be followed at once by a `\u` escape of a
trailing one. A raw control character is refused.

A number is read as an unsigned integer while it fits in 64 bits, as a
negative integer while it fits in 64 signed bits, and as a binary64 value
otherwise. The binary64 value is the significand scaled by exact powers of ten
(`scaleByTen`); a value that overflows is refused, one that underflows becomes
zero.
-/
namespace Statechart.Json

/-- A number as read: its kind decides how a type mismatch describes it. -/
inductive Number where
  | unsigned (n : Nat)
  | signed (i : Int)
  | float (x : Float)
  deriving Repr, Inhabited

/-- What a value turned out to be, for messages about a type mismatch. -/
inductive Unexpected where
  | null
  | bool (b : Bool)
  | number (n : Number)
  | string (s : String)
  | seq
  | map
  deriving Repr, Inhabited

namespace Unexpected

/-- How a mismatch message names the value. -/
def describe : Unexpected → String
  | .null => "null"
  | .bool b => s!"boolean `{b}`"
  | .number (.unsigned n) => s!"integer `{n}`"
  | .number (.signed i) => s!"integer `{i}`"
  | .number (.float x) => s!"floating point `{Text.Shortest.render x}`"
  | .string s => "string " ++ Text.debugQuote s
  | .seq => "sequence"
  | .map => "map"

end Unexpected

/-- The message for a value of the wrong type. -/
def invalidType (u : Unexpected) (expected : String) : String :=
  s!"invalid type: {u.describe}, expected {expected}"

/-! ## Strings -/

/-- Appends the UTF-8 bytes of a code point. -/
def pushCodePoint (acc : ByteArray) (n : Nat) : ByteArray :=
  if n < 0x80 then acc.push n.toUInt8
  else if n < 0x800 then
    (acc.push (0xC0 + n / 64).toUInt8).push (0x80 + n % 64).toUInt8
  else if n < 0x10000 then
    ((acc.push (0xE0 + n / 4096).toUInt8).push (0x80 + n / 64 % 64).toUInt8).push
      (0x80 + n % 64).toUInt8
  else
    (((acc.push (0xF0 + n / 262144).toUInt8).push (0x80 + n / 4096 % 64).toUInt8).push
      (0x80 + n / 64 % 64).toUInt8).push (0x80 + n % 64).toUInt8

/-- The value of a hexadecimal digit. -/
def hexDigit? (b : UInt8) : Option Nat :=
  if 48 ≤ b ∧ b ≤ 57 then some (b - 48).toNat
  else if 97 ≤ b ∧ b ≤ 102 then some (b - 87).toNat
  else if 65 ≤ b ∧ b ≤ 70 then some (b - 55).toNat
  else none

/-- A fault at byte index `i` of the text. -/
structure Stop where
  fault : Fault
  at_ : Nat

/-- The byte at `i`, or zero past the end. -/
def byteAt (bytes : ByteArray) (i : Nat) : UInt8 := bytes[i]?.getD 0

/-- Four hexadecimal digits at `i`: their value and the index after them. -/
def hexEscape (bytes : ByteArray) (i : Nat) : Except Stop (Nat × Nat) :=
  if i + 4 ≤ bytes.size then
    match hexDigit? (byteAt bytes i), hexDigit? (byteAt bytes (i + 1)),
      hexDigit? (byteAt bytes (i + 2)), hexDigit? (byteAt bytes (i + 3)) with
    | some a, some b, some c, some d => .ok (((a * 16 + b) * 16 + c) * 16 + d, i + 4)
    | _, _, _, _ => .error ⟨.invalidEscape, i + 4⟩
  else .error ⟨.eofString, bytes.size⟩

/-- A `\u` escape whose `u` is at `i - 1`: a code point, or a surrogate pair. -/
def unicodeEscape (bytes : ByteArray) (i : Nat) (acc : ByteArray) :
    Except Stop (ByteArray × Nat) := do
  let (n, i) ← hexEscape bytes i
  if 0xDC00 ≤ n ∧ n ≤ 0xDFFF then throw ⟨.loneLeadingSurrogate, i⟩
  if n < 0xD800 ∨ 0xDBFF < n then return (pushCodePoint acc n, i)
  match bytes[i]? with
  | none => throw ⟨.eofString, i⟩
  | some 92 =>
    match bytes[i + 1]? with
    | none => throw ⟨.eofString, i + 1⟩
    | some 117 =>
      let (n2, j) ← hexEscape bytes (i + 2)
      if n2 < 0xDC00 ∨ 0xDFFF < n2 then throw ⟨.loneLeadingSurrogate, j⟩
      return (pushCodePoint acc (((n - 0xD800) * 1024 + (n2 - 0xDC00)) + 0x10000), j)
    | some _ => throw ⟨.unexpectedEndOfHexEscape, i + 2⟩
  | some _ => throw ⟨.unexpectedEndOfHexEscape, i + 1⟩

/-- One escape whose backslash is at `i - 1`. -/
def escapeAt (bytes : ByteArray) (i : Nat) (acc : ByteArray) : Except Stop (ByteArray × Nat) :=
  match bytes[i]? with
  | none => .error ⟨.eofString, i⟩
  | some c =>
    if c == 34 then .ok (acc.push 34, i + 1)
    else if c == 92 then .ok (acc.push 92, i + 1)
    else if c == 47 then .ok (acc.push 47, i + 1)
    else if c == 98 then .ok (acc.push 8, i + 1)
    else if c == 102 then .ok (acc.push 12, i + 1)
    else if c == 110 then .ok (acc.push 10, i + 1)
    else if c == 114 then .ok (acc.push 13, i + 1)
    else if c == 116 then .ok (acc.push 9, i + 1)
    else if c == 117 then unicodeEscape bytes (i + 1) acc
    else .error ⟨.invalidEscape, i + 1⟩

/-- The bytes of a string body from `i` to its closing quote, decoded, and the
index after the quote. -/
def scanString (bytes : ByteArray) (i : Nat) (acc : ByteArray) : Except Stop (ByteArray × Nat) :=
  if h : i < bytes.size then
    let b := bytes[i]
    if b == 34 then .ok (acc, i + 1)
    else if b == 92 then
      match escapeAt bytes (i + 1) acc with
      | .ok (acc', j) => if i < j then scanString bytes j acc' else .ok (acc', j)
      | .error e => .error e
    else if b < 32 then .error ⟨.controlCharacter, i + 1⟩
    else scanString bytes (i + 1) (acc.push b)
  else .error ⟨.eofString, bytes.size⟩
termination_by bytes.size - i

/-- Reads a string whose opening quote is already taken. -/
def stringBody : Reader String := do
  let c ← get
  match scanString c.bytes c.pos ByteArray.empty with
  | .ok (acc, j) =>
    set { c with pos := j }
    return (String.fromUTF8? acc).getD ""
  | .error e =>
    set { c with pos := e.at_ }
    failHere e.fault

/-! ## Numbers -/

def u64Max : Nat := Nat.pow 2 64 - 1

def i32Max : Int := Int.pow 2 31 - 1

/-- Whether `acc * 10 + d` would pass `limit`. -/
def overflows (acc d limit : Nat) : Bool :=
  acc ≥ limit / 10 && (acc > limit / 10 || d > limit % 10)

def isDigit (b : UInt8) : Bool := 48 ≤ b && b ≤ 57

/-- A fault read one byte ahead of `i`, as for a byte looked at but not taken. -/
def Stop.ahead (bytes : ByteArray) (f : Fault) (i : Nat) : Stop := ⟨f, min bytes.size (i + 1)⟩

/-- The significand times `10^exp`, by exact powers of ten up to `10^308`:
overflow is refused, underflow goes to zero. -/
def scaleByTen (positive : Bool) (significand : Nat) (exp : Int) (i : Nat) : Except Stop Float :=
  go (Float.ofNat significand) exp 10
where
  go (f : Float) (exp : Int) : Nat → Except Stop Float
    | 0 => .ok (if positive then f else -f)
    | fuel + 1 =>
      if exp.natAbs ≤ 308 then
        if 0 ≤ exp then
          let g := f * Float.ofScientific 1 false exp.toNat
          if g.isInf then .error ⟨.numberOutOfRange, i⟩ else .ok (if positive then g else -g)
        else
          let g := f / Float.ofScientific 1 false exp.natAbs
          .ok (if positive then g else -g)
      else if f == 0 then .ok (if positive then f else -f)
      else if 0 ≤ exp then .error ⟨.numberOutOfRange, i⟩
      else go (f / Float.ofScientific 1 false 308) (exp + 308) fuel

def clampI32 (x : Int) : Int := max (-(i32Max + 1)) (min i32Max x)

def skipDigits (bytes : ByteArray) (i : Nat) : Nat :=
  if h : i < bytes.size then
    if isDigit bytes[i] then skipDigits bytes (i + 1) else i
  else i
termination_by bytes.size - i

/-- The exponent part from its `e` at `i`. -/
def exponentPart (bytes : ByteArray) (positive : Bool) (significand : Nat) (start : Int)
    (i : Nat) : Except Stop (Float × Nat) := do
  let i := i + 1
  let (positiveExp, i) :=
    if byteAt bytes i == 43 then (true, i + 1)
    else if byteAt bytes i == 45 then (false, i + 1)
    else (true, i)
  match bytes[i]? with
  | none => throw ⟨.eofValue, i⟩
  | some c =>
    if !isDigit c then throw ⟨.invalidNumber, i + 1⟩
    let rec digits (exp : Nat) (j : Nat) (fuel : Nat) : Except Stop (Float × Nat) :=
      match fuel with
      | 0 => .error ⟨.invalidNumber, j⟩
      | fuel + 1 =>
        let d := byteAt bytes j
        if isDigit d then
          let dv := (d - 48).toNat
          if overflows exp dv i32Max.toNat then
            if significand != 0 && positiveExp then .error ⟨.numberOutOfRange, j + 1⟩
            else
              let k := skipDigits bytes (j + 1)
              .ok ((if positive then 0.0 else -0.0), k)
          else digits (exp * 10 + dv) (j + 1) fuel
        else
          let e := if positiveExp then clampI32 (start + exp) else clampI32 (start - exp)
          match scaleByTen positive significand e j with
          | .ok f => .ok (f, j)
          | .error s => .error s
    digits (c - 48).toNat (i + 1) (bytes.size + 1)

/-- After digits that no longer fit: the rest of the digits only move the
exponent. -/
def afterOverflow (bytes : ByteArray) (positive : Bool) (significand : Nat) (exp : Int)
    (i : Nat) : Except Stop (Float × Nat) :=
  let j := skipDigits bytes i
  let b := byteAt bytes j
  if b == 101 || b == 69 then exponentPart bytes positive significand exp j
  else (scaleByTen positive significand exp j).map (·, j)

/-- The fraction part from its point at `i`. -/
def fractionPart (bytes : ByteArray) (positive : Bool) (significand : Nat) (before : Int)
    (i : Nat) : Except Stop (Float × Nat) :=
  go significand 0 (i + 1) (bytes.size + 1)
where
  go (sig : Nat) (after : Int) (j : Nat) : Nat → Except Stop (Float × Nat)
    | 0 => .error ⟨.invalidNumber, j⟩
    | fuel + 1 =>
      let d := byteAt bytes j
      if isDigit d then
        let dv := (d - 48).toNat
        if overflows sig dv u64Max then afterOverflow bytes positive sig (before + after) j
        else go (sig * 10 + dv) (after - 1) (j + 1) fuel
      else if after == 0 then
        match bytes[j]? with
        | some _ => .error (Stop.ahead bytes .invalidNumber j)
        | none => .error (Stop.ahead bytes .eofValue j)
      else
        let b := byteAt bytes j
        if b == 101 || b == 69 then exponentPart bytes positive sig (before + after) j
        else (scaleByTen positive sig (before + after) j).map (·, j)

/-- A whole number too large for 64 bits: the remaining digits only count
toward the exponent. -/
def longInteger (bytes : ByteArray) (positive : Bool) (significand : Nat) (i : Nat) :
    Except Stop (Float × Nat) :=
  let j := skipDigits bytes i
  let exp : Int := j - i
  let b := byteAt bytes j
  if b == 46 then fractionPart bytes positive significand exp j
  else if b == 101 || b == 69 then exponentPart bytes positive significand exp j
  else (scaleByTen positive significand exp j).map (·, j)

/-- What follows the whole part `significand` ending at `i`. -/
def numberTail (bytes : ByteArray) (positive : Bool) (significand : Nat) (i : Nat) :
    Except Stop (Number × Nat) :=
  let b := byteAt bytes i
  if b == 46 then (fractionPart bytes positive significand 0 i).map fun (f, j) => (.float f, j)
  else if b == 101 || b == 69 then
    (exponentPart bytes positive significand 0 i).map fun (f, j) => (.float f, j)
  else if positive then .ok (.unsigned significand, i)
  else if 0 < significand ∧ significand ≤ Nat.pow 2 63 then .ok (.signed (-(significand : Int)), i)
  else .ok (.float (-(Float.ofNat significand)), i)

/-- A number from its first digit at `i`, after any minus sign. -/
def scanNumber (bytes : ByteArray) (positive : Bool) (i : Nat) : Except Stop (Number × Nat) :=
  match bytes[i]? with
  | none => .error ⟨.eofValue, i⟩
  | some c =>
    if c == 48 then
      if isDigit (byteAt bytes (i + 1)) then .error (Stop.ahead bytes .invalidNumber (i + 1))
      else numberTail bytes positive 0 (i + 1)
    else if isDigit c then go (c - 48).toNat (i + 1) (bytes.size + 1)
    else .error ⟨.invalidNumber, i + 1⟩
where
  go (sig : Nat) (j : Nat) : Nat → Except Stop (Number × Nat)
    | 0 => .error ⟨.invalidNumber, j⟩
    | fuel + 1 =>
      let d := byteAt bytes j
      if isDigit d then
        let dv := (d - 48).toNat
        if overflows sig dv u64Max then
          (longInteger bytes positive sig j).map fun (f, k) => (.float f, k)
        else go (sig * 10 + dv) (j + 1) fuel
      else numberTail bytes positive sig j

/-- Reads a number from its first digit; `positive` is false after a minus
sign, which is already taken. -/
def numberBody (positive : Bool) : Reader Number := do
  let c ← get
  match scanNumber c.bytes positive c.pos with
  | .ok (n, j) =>
    set { c with pos := j }
    return n
  | .error e =>
    set { c with pos := e.at_ }
    failHere e.fault

end Statechart.Json
