import Statechart.Script.Action
/-!
# Echo actors

An echo actor is not a machine. When started it tells its parent
`ECHO_STARTED`, with the interpreter's options and whether it has a parent.
It answers every event `T` by sending `ECHO_T`, with the same data, back to
its parent, except for a few commands, each reading the number `n` of the
event:

* `ECHO_SPAWN` spawns a child echo named `echo<n>`;
* `ECHO_STOP`, `ECHO_STOP_PARENT` and `ECHO_STOP_CHILD` stop itself, its
  parent, or its child `echo<n>`;
* `ECHO_DONE` makes it done, so the system stops it;
* `ECHO_TELL_CHILD` sends `TOLD` to its child `echo<n>`;
* `ECHO_LATER` sends `ECHO_LATE` to its parent after `n` milliseconds (none
  when `n` is negative).

Its state is `done` once done and `echo` before.
-/
namespace Statechart.Script

/-- An echo actor. -/
structure Echo where
  status : ActorStatus := .notStarted
  done : Bool := false
  deriving DecidableEq, Repr, Inhabited

namespace Echo

/-- The name of a numbered child. -/
def childName (n : Int64) : String := "echo" ++ toString n.toInt

def state (e : Echo) : StateValue := if e.done then ⟨["done"]⟩ else ⟨["echo"]⟩

/-- A count as the 64-bit integer an event carries. -/
def count (n : Nat) : Int64 := Int64.ofInt n

/-- Starts: tells the parent. -/
def start (e : Echo) : Turn ν β Signal (Echo × Except RuntimeError Unit) := do
  let s ← get
  let data := sortedOf [("max_eventless_steps", count s.options.maxEventlessSteps),
    ("history_limit", count s.options.historyLimit),
    ("has_parent", if s.parent.isSome then 1 else 0)]
  Scope.send .parent ⟨"ECHO_STARTED", data⟩
  return ({ e with status := .running }, .ok ())

/-- Handles one event; `spawnEcho` makes and starts a child echo. -/
def receive (spawnEcho : String → TurnE ν β Signal ActorRef) (e : Echo) (event : Signal) :
    Turn ν β Signal (Echo × Except RuntimeError Unit) := do
  let n := event.arg "n"
  let s ← get
  match event.type with
  | "ECHO_SPAWN" =>
    match ← (spawnEcho (childName n)).run with
    | .error err => return (e, .error err)
    | .ok _ => return (e, .ok ())
  | "ECHO_STOP" => Scope.stop .itself; return (e, .ok ())
  | "ECHO_STOP_PARENT" => Scope.stop .parent; return (e, .ok ())
  | "ECHO_STOP_CHILD" => Scope.stop (.child (childName n)); return (e, .ok ())
  | "ECHO_DONE" => return ({ e with done := true }, .ok ())
  | "ECHO_TELL_CHILD" =>
    Scope.send (.child (childName n)) { event with type := "TOLD" }
    return (e, .ok ())
  | "ECHO_LATER" =>
    let ms := if n < 0 then 0 else n.toInt.toNat
    Scope.sendAfter .parent { event with type := "ECHO_LATE" } (some (Duration.ofMillis ms))
    return (e, .ok ())
  | other =>
    if let some p := s.parent then
      Scope.send (.actor p) { event with type := "ECHO_" ++ other }
    return (e, .ok ())

end Echo

end Statechart.Script
