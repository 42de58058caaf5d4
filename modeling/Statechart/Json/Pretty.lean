/-!
# Writing JSON text, indented

Strings are quoted with the quote and the backslash escaped, the control
characters that have a short escape written with it (`\b`, `\f`, `\n`, `\r`,
`\t`), and the other control characters as `\u` with four lower-case hex
digits; everything else is written as it is.

Nested objects and arrays put each member on its own line, indented by two
spaces per level; an empty one is written `{}` or `[]`.
-/
namespace Statechart.Json

/-- The escaped text of one character inside a JSON string. -/
def escapeChar (c : Char) : String :=
  if c == '"' then "\\\""
  else if c == '\\' then "\\\\"
  else if c == '\x08' then "\\b"
  else if c == '\x0c' then "\\f"
  else if c == '\n' then "\\n"
  else if c == '\r' then "\\r"
  else if c == '\t' then "\\t"
  else if c.toNat < 0x20 then
    let hex := Nat.toDigits 16 c.toNat
    "\\u" ++ String.ofList (List.replicate (4 - hex.length) '0' ++ hex)
  else c.toString

/-- A string as a JSON string literal. -/
def quote (s : String) : String :=
  "\"" ++ String.join (s.toList.map escapeChar) ++ "\""

/-- A JSON value to be written: strings, arrays and objects whose members
keep their order and may repeat a key. -/
inductive Pretty where
  | str (s : String)
  | arr (items : List Pretty)
  | obj (members : List (String × Pretty))
  deriving Repr, Inhabited

namespace Pretty

/-- Two spaces per level. -/
def pad (level : Nat) : String := String.ofList (List.replicate (2 * level) ' ')

mutual
/-- The text of a value whose first line is already indented to `level`. -/
def render (level : Nat) : Pretty → String
  | .str s => quote s
  | .arr [] => "[]"
  | .arr items => "[" ++ renderItems (level + 1) true items ++ "\n" ++ pad level ++ "]"
  | .obj [] => "\x7b\x7d"
  | .obj members => "\x7b" ++ renderMembers (level + 1) true members ++ "\n" ++ pad level ++ "\x7d"

def renderItems (level : Nat) (first : Bool) : List Pretty → String
  | [] => ""
  | v :: vs =>
    (if first then "\n" else ",\n") ++ pad level ++ render level v ++ renderItems level false vs

def renderMembers (level : Nat) (first : Bool) : List (String × Pretty) → String
  | [] => ""
  | (k, v) :: ms =>
    (if first then "\n" else ",\n") ++ pad level ++ quote k ++ ": " ++ render level v ++
      renderMembers level false ms
end

end Pretty

end Statechart.Json
