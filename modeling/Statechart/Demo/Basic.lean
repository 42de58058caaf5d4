import Statechart.Actor.Interpreter
/-!
# Demo programs

A demo builds machines, runs an interpreter and prints what happens: its own
lines, what its observers print, and what its diagnostics hook prints. All of
it goes to the interpreter's journal in the order it happens, the demo's own
lines as written lines, and is turned into output at the end.

Output is kept as pieces of text and actor references, so that whoever shows
it chooses how actor ids look: a real system makes them up at random.
-/
namespace Statechart.Demo

/-- A piece of output. -/
inductive Piece where
  | text (s : String)
  /-- An actor, shown as `name#id`. -/
  | actor (ref : ActorRef)
  deriving DecidableEq, Repr, Inhabited

/-- The text of a piece; ids are written by `label`. -/
def Piece.render (label : ActorId → String) : Piece → String
  | .text s => s
  | .actor r => r.render label

/-- The text of some output. -/
def render (label : ActorId → String) (ps : List Piece) : String :=
  String.join (ps.map (Piece.render label))

/-- The actor ids shown, in order of first appearance. -/
def actorsShown (ps : List Piece) : List ActorId :=
  (ps.filterMap fun | .actor r => some r.id | .text _ => none).eraseDups

/-- The place of an id among those shown, counting from 1. -/
def appearance (ps : List Piece) (id : ActorId) : Nat := (actorsShown ps).idxOf id + 1

def line (s : String) : List Piece := [.text (s ++ "\n")]

/-- What a demo printed, and whether it ran to its end. -/
structure Outcome where
  output : List Piece
  success : Bool
  deriving Repr, Inhabited

/-- A demo at work on its interpreter; a failure ends it. -/
abbrev Script (C E σ β : Type) := ExceptT String (Run C E σ β)

def say (s : String) : Script C E σ β Unit :=
  (Journal.report (.effect s) : Journal (Snapshot C) Unit)

/-- Runs an interpreter call; a runtime error ends the demo. -/
def attempt (x : Run C E σ β (Except RuntimeError α)) : Script C E σ β α := do
  match ← (x : Run C E σ β (Except RuntimeError α)) with
  | .ok a => pure a
  | .error e => throw (e.message fun id => toString id)

/-- A spawn for machines that spawn nothing. -/
def noChildren : Spawner ν β E Empty := fun _ e => nomatch e

/-- Actors below the root are machines without children, spawned from the
machine itself with its default context. -/
def machineNursery [Event E] : Nursery C E (Machine D E Empty) (MachineActor D E Empty) :=
  { spawn := fun name m => Scope.spawn (fun rt => rt.start noChildren) name (MachineActor.new m m.context)
    behaviour := { receive := fun rt e => rt.receive noChildren e, status := (·.status),
                   state := (·.value), isDone := (·.done) } }

/-- Runs a demo on a fresh interpreter for a machine; `present` turns every
journal entry into output, a written line into itself. -/
def perform [Event E] (m : Machine C E σ) (clock : Clock) (hook : Bool)
    (present : Report (Snapshot C) → List Piece) (demo : Script C E σ β Unit) : Outcome :=
  let (i, ledger) := (Interpreter.new m m.context clock hook {} : Journal (Snapshot C) _).run {}
  let ((result, _), ledger) := ((demo.run).run i).run ledger
  let output := ledger.reports.toList.flatMap fun
    | .effect s => line s
    | r => present r
  { output, success := result.isOk }

end Statechart.Demo
