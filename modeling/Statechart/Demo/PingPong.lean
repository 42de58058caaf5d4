import Statechart.Demo.Basic
/-!
# Demo: ping pong

A parent machine spawns a child on entry, and the two trade messages through
delayed sends until the parent has counted five rallies and reaches its final
state, which shuts the tree down. A diagnostics hook prints spawns,
transitions and stops; an observer prints the count.
-/
namespace Statechart.Demo.PingPong

/-- The two messages. -/
inductive Rally where
  | ping
  | pong
  deriving DecidableEq, Repr, Inhabited

instance : Event Rally := ⟨fun | .ping => "PING" | .pong => "PONG"⟩

/-- Rallies played before the game ends. -/
def rallies : Nat := 5

/-- The child: answers every `PING` with a `PONG` 250 ms later. -/
def ponger : Except BuildError (Machine Unit Rally Empty) :=
  let config : MachineConfig := ⟨(MachineConfig.new "ponger").root.withInitial "active"
    |>.addState "active" (StateConfig.new.addOn "PING" [CandidateConfig.targetless.addActions ["pong"]])⟩
  ({ config, context := () } : MachineBuilder Unit Rally Empty)
    |>.action "pong" (.send .parent (fun _ _ => some .pong) (some (Duration.ofMillis 250)))
    |>.build

/-- The parent: spawns the child, serves, and counts the answers. -/
def pinger (child : Machine Unit Rally Empty) :
    Except BuildError (Machine Nat Rally (Machine Unit Rally Empty)) :=
  let config : MachineConfig := ⟨(MachineConfig.new "pinger").root.withInitial "serving"
    |>.addEntry ["spawnPonger", "ping"]
    |>.addState "serving" (StateConfig.new.addOn "PONG"
      [(CandidateConfig.toward "finished").withGuard "lastRally" |>.addActions ["count"],
       CandidateConfig.targetless.addActions ["count", "ping"]])
    |>.addState "finished" StateConfig.final⟩
  ({ config, context := 0 } : MachineBuilder Nat Rally (Machine Unit Rally Empty))
    |>.action "spawnPonger" (.spawn "ponger" (fun _ _ => child) none)
    |>.action "ping" (.send (.child "ponger") (fun _ _ => some .ping) (some (Duration.ofMillis 250)))
    |>.action "count" (.assign fun hits _ => hits + 1)
    |>.guard "lastRally" (Guard.ofPredicate fun hits _ => hits + 1 ≥ rallies)
    |>.build

/-- What the hook and the observer print. -/
def present : Report (Snapshot Nat) → List Piece
  | .diagnostic (.spawned parent child) =>
    [.text "  spawned ", .actor child, .text " under ", .actor parent, .text "\n"]
  | .diagnostic (.transitioned actor _ target trigger) =>
    [.text "  ", .actor actor, .text s!": {trigger.eventType} -> {target.render}\n"]
  | .diagnostic (.stopped actor) => [.text "  stopped ", .actor actor, .text "\n"]
  | .notified _ s => line s!"  rallies: {s.context}"
  | _ => []

abbrev Cell := MachineActor Unit Rally Empty

def program : Script Nat Rally (Machine Unit Rally Empty) Cell Unit := do
  discard <| (Interpreter.subscribe : Run Nat Rally (Machine Unit Rally Empty) Cell Nat)
  attempt (Interpreter.start machineNursery)
  say s!"\nPlaying {rallies} rallies, 250ms per hit:"
  attempt (Interpreter.runTimers machineNursery)
  let i ← get
  say s!"\nDone: {i.root.done} after {i.root.context} rallies"
  say "\n=== Example Complete ==="

def run : Outcome :=
  let header := line "=== Ping Pong Actors ===\n"
  match ponger >>= pinger with
  | .error _ => { output := header, success := false }
  | .ok m =>
    let o := perform m (.system 0) true present program
    { o with output := header ++ o.output }

end Statechart.Demo.PingPong
