import Statechart.Tree.Build
import Statechart.Machine.Plan
/-!
# Machines

A machine is a validated state tree with the guards and actions its
configuration names and a default context. Building one reports every problem
at once: first those of the tree, then every guard or action named but not
registered. Eventless candidate lists that can leave an actor stuck are
reported as warnings and do not stop the build.

A machine can resolve a trigger against a state value without running
anything.
-/
namespace Statechart

/-- A built machine with context `C`, events `E` and child descriptions `σ`. -/
structure Machine (C E σ : Type) where
  tree : StateTree
  guards : List (String × Guard C E)
  actions : List (String × Action C E σ)
  context : C
  warnings : List LintWarning

/-- A configuration with a default context, collecting guards and actions. -/
structure MachineBuilder (C E σ : Type) where
  config : MachineConfig
  context : C
  guards : List (String × Guard C E) := []
  actions : List (String × Action C E σ) := []

/-- Registers `v` under `k`, replacing an earlier registration. -/
def register (k : String) (v : α) (table : List (String × α)) : List (String × α) :=
  if table.any (·.1 == k) then table.map fun (k', v') => if k' == k then (k', v) else (k', v')
  else table ++ [(k, v)]

/-- The entry registered under `k`. -/
def lookup (table : List (String × α)) (k : String) : Option α :=
  (table.find? (·.1 == k)).map Prod.snd

namespace MachineBuilder

def guard (b : MachineBuilder C E σ) (id : String) (g : Guard C E) : MachineBuilder C E σ :=
  { b with guards := register id g b.guards }

def action (b : MachineBuilder C E σ) (id : String) (a : Action C E σ) : MachineBuilder C E σ :=
  { b with actions := register id a b.actions }

/-- Every problem of the configuration: the tree's, then the references. -/
def check (b : MachineBuilder C E σ) : StateTree × List ConfigError :=
  let (tree, treeErrors) := StateTree.check b.config
  let refs := referenceErrors (fun g => b.guards.any (·.1 == g)) (fun a => b.actions.any (·.1 == a))
    b.config.machineId [] b.config.root
  (tree, treeErrors ++ refs)

/-- Builds the machine, or reports every problem of its configuration. -/
def build (b : MachineBuilder C E σ) : Except BuildError (Machine C E σ) :=
  match b.check with
  | (tree, []) =>
    .ok { tree, guards := b.guards, actions := b.actions, context := b.context,
          warnings := tree.lint }
  | (_, errors) => .error ⟨errors⟩

end MachineBuilder

namespace Machine

def id (m : Machine C E σ) : String := m.tree.machineId

/-- The state value a fresh actor enters before eventless transitions. -/
def initialState (m : Machine C E σ) : StateValue := m.tree.value m.tree.initialConfiguration

/-- Resolves an event, or the eventless trigger, against a state value. -/
def transition [Event E] (m : Machine C E σ) (state : StateValue) (context : C)
    (event : Option E) : Except RuntimeError (Option Plan) :=
  match m.tree.configurationFor state with
  | none => .error (.unknownState m.id state.render)
  | some configuration =>
    let trigger := (event.map Trigger.ofEvent).getD .always
    (m.tree.select (lookup m.guards) configuration context event trigger).2

/-- The machine as a debugging aid prints it. -/
def debug (m : Machine C E σ) : String :=
  "Machine \x7b id: " ++ Text.debugQuote m.id ++ " \x7d"

end Machine

end Statechart
