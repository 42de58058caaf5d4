import Statechart.Json.Scalar
/-!
# Buffered JSON values

Some readers cannot tell from the first byte which shape a value has: a list
of candidates may be one candidate or several, and either may be written as a
string, an object or a list. Such a value is first read whole into `Content`,
and the shapes are then tried on it in turn.
-/
namespace Statechart.Json

/-- A JSON value read whole, object members kept in order. -/
inductive Content where
  | null
  | bool (b : Bool)
  | number (n : Number)
  | string (s : String)
  | seq (items : List Content)
  | map (entries : List (String × Content))
  deriving Repr, Inhabited

/-- Reads an object key from its opening quote. -/
def key : Reader String := do
  advance
  stringBody

/-- Reads any JSON value whole. `depth` bounds the nesting this reader may
follow; the cursor's own limit is reached first. -/
def Content.read : Nat → Reader Content
  | 0 => failNext .recursionLimit
  | depth + 1 => fixPlace do
    match ← peekValue with
    | none => failNext .eofValue
    | some b =>
      if b == 110 then do advance; keyword [117, 108, 108]; pure .null
      else if b == 116 then do advance; keyword [114, 117, 101]; pure (.bool true)
      else if b == 102 then do advance; keyword [97, 108, 115, 101]; pure (.bool false)
      else if b == 45 then do advance; return .number (← numberBody false)
      else if isDigit b then return .number (← numberBody true)
      else if b == 34 then do advance; return .string (← stringBody)
      else if b == 91 then
        closedBy (nested do return .seq (← elements (Content.read depth))) closeList
      else if b == 123 then
        closedBy (nested do return .map (← members key fun _ => Content.read depth)) closeObject
      else failNext .expectedValue

namespace Content

/-- How a mismatch message names the value. -/
def unexpected : Content → Unexpected
  | .null => .null
  | .bool b => .bool b
  | .number n => .number n
  | .string s => .string s
  | .seq _ => .seq
  | .map _ => .map

def string? : Content → Option String
  | .string s => some s
  | _ => none

/-- An optional string: null for none, a string for some. -/
def optString? : Content → Option (Option String)
  | .null => some none
  | .string s => some (some s)
  | _ => none

end Content

end Statechart.Json
