import Statechart.Config.Basic
import Statechart.Json.Content
/-!
# Reading configurations from JSON text

A state is an object with the fields id, type, initial, entry, exit, on,
always and states, each optional; an unknown or repeated field is refused. A
state may also be written as an array of up to eight values, taken as those
fields in that order.

An action list is one action id or an array of them. A candidate is a target
string, or an object with the fields target, guard (also spelled cond) and
actions, or an array of up to three values taken as those fields. A candidate
list is one candidate, or else an array of candidates; so an array that can be
read as one candidate is one (`["a", "g"]` is the candidate to `a` guarded by
`g`, and `[]` the candidate with no fields).

Errors name the line and column where reading stopped; a mismatch found after
a value was read is placed where the innermost enclosing value reader stands.
-/
namespace Statechart

open Json

namespace ConfigReader

/-- The fields of a state, in the order an array form gives them. -/
def stateFields : List String :=
  ["id", "type", "initial", "entry", "exit", "on", "always", "states"]

/-- Backquoted names: one, two joined by "or", or "one of" a list. -/
def oneOf (names : List String) : String :=
  match names with
  | [a] => s!"`{a}`"
  | [a, b] => s!"`{a}` or `{b}`"
  | _ => "one of " ++ ", ".intercalate (names.map fun n => s!"`{n}`")

/-- The message for a field the type does not have. -/
def unknownField (name : String) (fields : List String) : String :=
  if fields.isEmpty then s!"unknown field `{name}`, there are no fields"
  else s!"unknown field `{name}`, expected {oneOf fields}"

/-- The message for a variant the type does not have. -/
def unknownVariant (name : String) (variants : List String) : String :=
  if variants.isEmpty then s!"unknown variant `{name}`, there are no variants"
  else s!"unknown variant `{name}`, expected {oneOf variants}"

/-- Names the value under the cursor and fails with a type mismatch, placed
after the value, or at its bracket when it is an array or object. -/
def mismatch (expected : String) : Reader α := do
  let u ← match ← peek with
    | some 110 => do advance; keyword [117, 108, 108]; pure Unexpected.null
    | some 116 => do advance; keyword [114, 117, 101]; pure (Unexpected.bool true)
    | some 102 => do advance; keyword [97, 108, 115, 101]; pure (Unexpected.bool false)
    | some 45 => do advance; pure (Unexpected.number (← numberBody false))
    | some 34 => do advance; pure (Unexpected.string (← stringBody))
    | some 91 => pure Unexpected.seq
    | some 123 => pure Unexpected.map
    | some b => if isDigit b then do pure (Unexpected.number (← numberBody true))
                else failNext .expectedValue
    | none => failNext .expectedValue
  failHere (.message (invalidType u expected))

def string (expected : String := "a string") : Reader String := fixPlace do
  match ← peekValue with
  | none => failNext .eofValue
  | some 34 => do advance; stringBody
  | some _ => mismatch expected

/-- Reads null as none, anything else with `some`. -/
def option (some_ : Reader α) : Reader (Option α) := do
  match ← peekValue with
  | some 110 => do advance; keyword [117, 108, 108]; pure none
  | _ => return some (← some_)

def unit : Reader Unit := fixPlace do
  match ← peekValue with
  | none => failNext .eofValue
  | some 110 => do advance; keyword [117, 108, 108]
  | some _ => mismatch "unit"

/-- Reads a state kind: a variant name, or an object with one variant name
mapped to null. In the object form the name is read as a key: anything but a
quoted name (or the closing brace, which is no value) is refused as a key. -/
def kind : Reader StateKind := do
  let variant : Reader StateKind := do
    let name ← string "variant identifier"
    match StateKind.ofName? name with
    | some k => pure k
    | none => fixPlace (failWith (unknownVariant name (StateKind.all.map StateKind.name)))
  let key : Reader StateKind := do
    match ← peekValue with
    | some 34 | some 125 => variant
    | some _ => failNext .keyMustBeString
    | none => failNext .eofObject
  match ← peekValue with
  | some 123 => do
    let k ← nested do
      let k ← key
      colon
      unit
      pure k
    match ← peekValue with
    | some 125 => do advance; pure k
    | some _ => failHere .expectedValue
    | none => failHere .eofObject
  | some 34 => variant
  | some _ => failNext .expectedValue
  | none => failNext .eofValue

/-! ## Shapes tried on a buffered value -/

/-- An action list: one id, or an array of ids. -/
def actionsOf? : Content → Option (List String)
  | .string s => some [s]
  | .seq items => items.mapM Content.string?
  | _ => none

/-- A candidate's fields from object members, each at most once. -/
def fieldsOfMembers (members : List (String × Content)) : Option CandidateConfig :=
  go members none none none
where
  go : List (String × Content) → Option (Option String) → Option (Option String) →
      Option (List String) → Option CandidateConfig
    | [], t, g, a => some ⟨t.getD none, g.getD none, a.getD []⟩
    | (k, v) :: rest, t, g, a =>
      if k == "target" then
        if t.isSome then none else v.optString?.bind fun x => go rest (some x) g a
      else if k == "guard" || k == "cond" then
        if g.isSome then none else v.optString?.bind fun x => go rest t (some x) a
      else if k == "actions" then
        if a.isSome then none else (actionsOf? v).bind fun x => go rest t g (some x)
      else none

/-- A candidate's fields from an array of at most three values. -/
def fieldsOfItems : List Content → Option CandidateConfig
  | [] => some {}
  | [t] => t.optString?.map fun t => { target := t }
  | [t, g] => do return { target := ← t.optString?, guard := ← g.optString? }
  | [t, g, a] => do
    return { target := ← t.optString?, guard := ← g.optString?, actions := ← actionsOf? a }
  | _ => none

/-- One candidate: a target string, or its fields as an object or an array. -/
def candidateOf? : Content → Option CandidateConfig
  | .string s => some (CandidateConfig.toward s)
  | .map members => fieldsOfMembers members
  | .seq items => fieldsOfItems items
  | _ => none

/-- A candidate list: one candidate, or else an array of candidates. -/
def candidatesOf? (c : Content) : Option (List CandidateConfig) :=
  match candidateOf? c with
  | some x => some [x]
  | none =>
    match c with
    | .seq items => items.mapM candidateOf?
    | _ => none

/-- How deep a buffered value may nest; the cursor's limit comes first. -/
def contentDepth : Nat := 130

def actions : Reader (List String) := do
  match actionsOf? (← Content.read contentDepth) with
  | some l => pure l
  | none => failWith "data did not match any variant of untagged enum OneOrMany"

def candidates : Reader (List CandidateConfig) := do
  match candidatesOf? (← Content.read contentDepth) with
  | some l => pure l
  | none => failWith "data did not match any variant of untagged enum CandidatesRepr"

/-- Reads an object as an ordered list of members, keys kept as written. -/
def entries (value : Reader α) : Reader (List (String × α)) := fixPlace do
  match ← peekValue with
  | none => failNext .eofValue
  | some 123 => closedBy (nested (members key fun _ => value)) closeObject
  | some _ => mismatch "a map"

/-! ## States -/

/-- A state's fields as read so far. -/
structure Fields where
  id : Option (Option String) := none
  kind : Option (Option StateKind) := none
  initial : Option (Option String) := none
  entry : Option (List String) := none
  exit : Option (List String) := none
  on : Option (List (String × List CandidateConfig)) := none
  always : Option (List CandidateConfig) := none
  states : Option (List (String × StateConfig)) := none

/-- The state the fields describe, absent fields empty. -/
def Fields.toState (f : Fields) : StateConfig :=
  { id := f.id.getD none, kind := f.kind.getD none, initial := f.initial.getD none,
    entry := f.entry.getD [], exit := f.exit.getD [], on := f.on.getD [],
    always := f.always.getD [], states := f.states.getD [] }

/-- Reads the value of field `name` into the fields; `child` reads a child state. -/
def field (child : Reader StateConfig) (f : Fields) : String → Reader Fields
  | "id" => do return { f with id := some (← option string) }
  | "type" => do return { f with kind := some (← option kind) }
  | "initial" => do return { f with initial := some (← option string) }
  | "entry" => do return { f with entry := some (← actions) }
  | "exit" => do return { f with exit := some (← actions) }
  | "on" => do return { f with on := some (← entries candidates) }
  | "always" => do return { f with always := some (← candidates) }
  | "states" => do return { f with states := some (← entries child) }
  | _ => pure f

def Fields.has (f : Fields) : String → Bool
  | "id" => f.id.isSome
  | "type" => f.kind.isSome
  | "initial" => f.initial.isSome
  | "entry" => f.entry.isSome
  | "exit" => f.exit.isSome
  | "on" => f.on.isSome
  | "always" => f.always.isSome
  | "states" => f.states.isSome
  | _ => false

/-- Reads the members of a state object up to its closing brace. -/
def stateMembers (child : Reader StateConfig) : Reader Fields := do
  let c ← get
  go (c.bytes.size - c.pos + 1) true {}
where
  go : Nat → Bool → Fields → Reader Fields
    | 0, _, f => pure f
    | fuel + 1, first, f => do
      if ← moreMembers first then
        let name ← key
        if !stateFields.contains name then failWith (unknownField name stateFields)
        if f.has name then failWith s!"duplicate field `{name}`"
        colon
        go fuel false (← field child f name)
      else pure f

/-- Reads the elements of a state array, field by field, up to its closing
bracket; fields beyond the last element stay absent. -/
def stateItems (child : Reader StateConfig) : Reader Fields :=
  go stateFields true {}
where
  go : List String → Bool → Fields → Reader Fields
    | [], _, f => pure f
    | name :: rest, first, f => do
      if ← moreElements first then go rest false (← field child f name)
      else pure f

/-- Reads a state and its subtree; `depth` bounds the nesting followed, the
cursor's limit coming first. -/
def state : Nat → Reader StateConfig
  | 0 => failNext .recursionLimit
  | depth + 1 => fixPlace do
    match ← peekValue with
    | none => failNext .eofValue
    | some 91 =>
      return (← closedBy (nested (stateItems (state depth))) closeList).toState
    | some 123 =>
      return (← closedBy (nested (stateMembers (state depth))) closeObject).toState
    | some _ => mismatch "struct StateConfig"

/-- Refuses anything but white space after the value. -/
def finish : Reader Unit := do
  match ← peekValue with
  | some _ => failNext .trailingCharacters
  | none => pure ()

end ConfigReader

/-- Reads a configuration from JSON text. -/
def MachineConfig.ofJson? (text : String) : Except Json.ReadError MachineConfig :=
  let r : Reader StateConfig := do
    let s ← ConfigReader.state 200
    ConfigReader.finish
    pure s
  match (r.run.run { bytes := text.toUTF8 }).1 with
  | .ok s => .ok ⟨s⟩
  | .error e => .error e

end Statechart
