import Statechart.Demo.Basic
import Statechart.Config.Write
/-!
# Demo: a toggle

The smallest useful machine: two states and one event flipping between them.
An observer prints every snapshot; at the end the path taken is printed from
the history.
-/
namespace Statechart.Demo.Toggle

/-- The one event. -/
inductive Switch where
  | toggle
  deriving DecidableEq, Repr, Inhabited

instance : Event Switch := ⟨fun _ => "TOGGLE"⟩

/-- Two states, each left for the other on `TOGGLE`. -/
def config : MachineConfig :=
  ⟨(MachineConfig.new "toggle").root.withInitial "relaxed"
    |>.addState "relaxed" (StateConfig.new.addOn "TOGGLE" [.toward "toggled"])
    |>.addState "toggled" (StateConfig.new.addOn "TOGGLE" [.toward "relaxed"])⟩

/-- What the observer prints. -/
def present : Report (Snapshot Unit) → List Piece
  | .notified _ s => line s!"  -> {s.value.render} (changed: {s.changed})"
  | _ => []

/-- Children the toggle could spawn (it spawns none). -/
abbrev Child := Machine Unit Switch Empty

abbrev Cell := MachineActor Unit Switch Empty

def program : Script Unit Switch Child Cell Unit := do
  discard <| (Interpreter.subscribe : Run Unit Switch Child Cell Nat)
  say "Starting:"
  attempt (Interpreter.start machineNursery)
  say "\nSending TOGGLE three times:"
  for _ in [0, 1, 2] do
    attempt (Interpreter.send machineNursery Switch.toggle)
  let i ← get
  say ("\nPath taken: " ++ " -> ".intercalate (i.root.history.path.map StateValue.render))
  attempt (Interpreter.stop : Run Unit Switch Child Cell _)
  let i ← get
  say s!"Final status: {i.root.status.describe}"
  say "\n=== Example Complete ==="

def run : Outcome :=
  let header := line "=== Toggle Machine ===\n" ++ line "Configuration:" ++ line (config.toJson ++ "\n")
  match ({ config, context := () } : MachineBuilder Unit Switch Child).build with
  | .error _ => { output := header, success := false }
  | .ok m =>
    let o := perform m (.system 0) false present program
    { o with output := header ++ o.output }

end Statechart.Demo.Toggle
