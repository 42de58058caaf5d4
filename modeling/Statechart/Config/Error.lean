import Statechart.Config.Read
import Statechart.Config.Write
/-!
# Configuration errors

Building a machine reports every problem of its configuration at once, in
the order they were found. A configuration that cannot be read at all is one
such problem. Lint warnings do not stop a build.
-/
namespace Statechart

/-- One problem of a configuration. -/
inductive ConfigError where
  | missingInitial (state : String)
  | unknownInitial (state initial : String)
  | initialOnLeaf (state initial : String)
  | finalWithChildren (state : String)
  | unknownTarget (state trigger target : String)
  | duplicateKey (parent key : String)
  | duplicateId (id : String)
  | invalidKey (parent key : String)
  | unknownGuard (state guard : String)
  | unknownAction (state action : String)
  | parse (message : String)
  deriving DecidableEq, Repr, Inhabited

namespace ConfigError

/-- The problem in words. -/
def message : ConfigError → String
  | .missingInitial s =>
    s!"Compound state '{s}' has no initial state. Set `initial` to one of its children"
  | .unknownInitial s i => s!"Initial state '{i}' of '{s}' is not one of its children"
  | .initialOnLeaf s i => s!"State '{s}' declares initial state '{i}' but has no children"
  | .finalWithChildren s => s!"Final state '{s}' cannot have children"
  | .unknownTarget s t g => s!"Transition on '{t}' from '{s}' targets unknown state '{g}'"
  | .duplicateKey p k => s!"State '{p}' has more than one child named '{k}'"
  | .duplicateId i => s!"State id '{i}' is used by more than one state"
  | .invalidKey p k =>
    s!"State key '{k}' under '{p}' must be non-empty and must not contain '.' or '#'"
  | .unknownGuard s g => s!"Guard '{g}' used by '{s}' has no implementation"
  | .unknownAction s a => s!"Action '{a}' used by '{s}' has no implementation"
  | .parse m => s!"Configuration could not be parsed: {m}"

def name : ConfigError → String
  | .missingInitial .. => "MissingInitial"
  | .unknownInitial .. => "UnknownInitial"
  | .initialOnLeaf .. => "InitialOnLeaf"
  | .finalWithChildren .. => "FinalWithChildren"
  | .unknownTarget .. => "UnknownTarget"
  | .duplicateKey .. => "DuplicateKey"
  | .duplicateId .. => "DuplicateId"
  | .invalidKey .. => "InvalidKey"
  | .unknownGuard .. => "UnknownGuard"
  | .unknownAction .. => "UnknownAction"
  | .parse .. => "Parse"

end ConfigError

/-- Every problem found by a failed build. -/
structure BuildError where
  errors : List ConfigError
  deriving DecidableEq, Repr, Inhabited

/-- The build failure in words, one problem per line. -/
def BuildError.message (e : BuildError) : String :=
  "Invalid machine configuration" ++ String.join (e.errors.map fun c => "\n  - " ++ c.message)

/-- A problem that does not stop a build. -/
structure LintWarning where
  state : String
  message : String
  deriving DecidableEq, Repr, Inhabited

/-- The warning for a state whose `count` eventless candidates end with a
guarded one: when every guard fails, the actor rests where it was meant to move on. -/
def LintWarning.eventless (state : String) (count : Nat) : LintWarning :=
  ⟨state, s!"eventless transitions ({count} candidate(s)) end with a " ++
    "guarded candidate; add an unguarded fallback to guarantee progress"⟩

/-- The warning prefixed with its state. -/
def LintWarning.render (w : LintWarning) : String := s!"{w.state}: {w.message}"

/-- Reads a configuration; a text that cannot be read is a build error. -/
def MachineConfig.parse (text : String) : Except BuildError MachineConfig :=
  match MachineConfig.ofJson? text with
  | .ok m => .ok m
  | .error e => .error ⟨[.parse e.render]⟩

/-- Whether writing a configuration and reading the text back gives it again;
a written text the reader refuses is that build error. -/
def MachineConfig.roundTrips (m : MachineConfig) : Except BuildError Bool := do
  let m' ← MachineConfig.parse m.toJson
  return decide (m' = m)

end Statechart
