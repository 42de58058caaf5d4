import Statechart.Actor.Registry
import Statechart.Actor.Timer
import Statechart.Actor.Scope
/-!
# The actor system of an interpreter

The system owns everything below the root actor: the registry of live
actors, the instance of every live actor but the root, the mailbox and the
timers. Actors only record commands; the system commits them in order once a
macrostep has succeeded, and carries on after a failing command, returning
the first failure:

* a send is addressed relative to its sender (a send to the parent of the
  root is dropped), then queued, or put on a timer when it has a non-zero
  delay (dropped when its due instant is out of the clock's range);
* a spawn registers the child (its parent must still be live and the name
  free), reports it, commits what its start produced, and stops it at once
  when it is already done;
* a stop of the root is noted for the interpreter; any other live actor is
  stopped with its subtree, children first, and its timers cancelled.
-/
namespace Statechart

/-- What the system needs of the actors it runs. -/
structure Behaviour (ν β E : Type) where
  /-- Handles one message; the instance is returned even when it fails. -/
  receive : β → E → Turn ν β E (β × Except RuntimeError Unit)
  status : β → ActorStatus
  state : β → StateValue
  isDone : β → Bool

/-- A queued message. -/
structure Envelope (E : Type) where
  sender : ActorId
  recipient : Address
  event : E
  deriving Repr, Inhabited

/-- Everything below the root of an interpreter. -/
structure System (β E : Type) where
  root : ActorRef
  registry : Registry
  cells : List (ActorId × β) := []
  mailbox : List (Envelope E) := []
  timers : TimerQueue E := {}
  clock : Clock
  hook : Bool
  options : Options
  rootStopRequested : Bool := false

/-- Work on the system that writes to the journal. -/
abbrev Sys (ν β E : Type) := StateT (System β E) (Journal ν)

namespace System

variable {ν β E : Type} [Event E]

/-- A system with only the root registered. -/
def new (root : ActorRef) (clock : Clock) (hook : Bool) (options : Options) : System β E :=
  { root, registry := .ofRoot root, clock, hook, options }

def cell? (s : System β E) (id : ActorId) : Option β := lookupCell s.cells id
where
  /-- The first instance under an id. -/
  lookupCell : List (ActorId × β) → ActorId → Option β
    | [], _ => none
    | (i, c) :: rest, id => if i == id then some c else lookupCell rest id

def putCell (s : System β E) (id : ActorId) (c : β) : System β E :=
  { s with cells := (s.cells.filter (·.1 != id)) ++ [(id, c)] }

def dropCell (s : System β E) (id : ActorId) : System β E :=
  { s with cells := s.cells.filter (·.1 != id) }

/-- A fresh scope for an actor: its parent and live children as registered. -/
def scopeFor (s : System β E) (actor : ActorRef) : Scope β E :=
  { actor
    parent := (s.registry.parent? actor.id).bind s.registry.actor?
    children := (s.registry.children actor.id).map (·.name)
    hook := s.hook
    options := s.options }

def emit (d : Diagnostic) : Sys ν β E Unit := do
  (Journal.emit (← get).hook d : Journal ν Unit)

def enqueue (sender : ActorId) (recipient : Address) (event : E) : Sys ν β E Unit :=
  modify fun s => { s with mailbox := s.mailbox ++ [⟨sender, recipient, event⟩] }

/-- The live actor an address points at. -/
def resolve (s : System β E) : Address → Option ActorId
  | .actor id => if s.registry.contains id then some id else none
  | .child parent name => s.registry.child? parent name

/-- The address of a target as seen from `origin`; the parent of an actor
without one has none. -/
def address (s : System β E) (origin : ActorId) : Target → Option Address
  | .itself => some (.actor origin)
  | .parent => (s.registry.parent? origin).map .actor
  | .child name => some (.child origin name)
  | .actor ref => some (.actor ref.id)

/-- Reports a send that found no recipient, from the sender (or the root). -/
def dropSend (sender : ActorId) (destination : Destination) (event : E) : Sys ν β E Unit := do
  let s ← get
  emit (.droppedSend ((s.registry.actor? sender).getD s.root) destination (Event.eventType event))

/-- Stops one actor: its instance and its timers go, and it is reported. -/
def release (actor : ActorRef) : Sys ν β E Unit := do
  modify fun s => { s.dropCell actor.id with timers := s.timers.cancelFrom actor.id }
  emit (.stopped actor)

/-- Stops a live actor and its descendants, children first. -/
def stopActor (id : ActorId) : Sys ν β E Unit := do
  let s ← get
  let (registry, removed) := s.registry.removeSubtree id
  set { s with registry }
  for actor in removed do release actor

/-- Stops everything below the root and forgets all pending work. -/
def shutdown : Sys ν β E Unit := do
  let s ← get
  let (registry, removed) := s.registry.removeDescendants s.root.id
  set { s with registry }
  for actor in removed do release actor
  modify fun s => { s with timers := s.timers.clear, mailbox := [], rootStopRequested := false }
  emit (.stopped (← get).root)

def commitSend (origin : ActorId) (target : Target) (event : E) (delay : Option Duration) :
    Sys ν β E Unit := do
  let s ← get
  match s.address origin target with
  | none => dropSend origin (.target target) event
  | some address =>
    match delay.filter (!·.isZero) with
    | some d =>
      match s.clock.due? d with
      | some due => set { s with timers := s.timers.schedule due ⟨origin, address, event⟩ }
      | none => dropSend origin (.address address) event
    | none => enqueue origin address event

def commitStop (origin : ActorId) (target : Target) : Sys ν β E Unit := do
  let s ← get
  match (s.address origin target).bind s.resolve with
  | some id => if id == s.root.id then set { s with rootStopRequested := true } else stopActor id
  | none => pure ()

mutual
/-- Commits the commands of an actor in order; every command is committed and
the first failure returned. -/
def commit (b : Behaviour ν β E) (origin : ActorId) :
    List (Command β E) → Sys ν β E (Except RuntimeError Unit)
  | [] => pure (.ok ())
  | c :: cs => do
    let first ← commitOne b origin c
    let rest ← commit b origin cs
    pure (match first with
      | .error e => .error e
      | .ok () => rest)

def commitOne (b : Behaviour ν β E) (origin : ActorId) :
    Command β E → Sys ν β E (Except RuntimeError Unit)
  | .send target event delay => do commitSend origin target event delay; pure (.ok ())
  | .stop target => do commitStop origin target; pure (.ok ())
  | .spawn actor cell commands => do
    let s ← get
    match s.registry.register origin actor with
    | .error e => pure (.error e)
    | .ok registry =>
      set { s with registry }
      if let some parent := registry.actor? origin then
        emit (.spawned parent actor)
      modify fun s => s.putCell actor.id cell
      let committed ← commit b actor.id commands
      if b.isDone cell then stopActor actor.id
      pure committed
end

/-- Delivers a message to a live actor other than the root and commits what
it produced; its instance is kept even when it fails. -/
def deliver (b : Behaviour ν β E) (id : ActorId) (event : E) : Sys ν β E (Except RuntimeError Unit) := do
  let s ← get
  match s.cell? id, s.registry.actor? id with
  | some cell, some actor =>
    let ((cell, outcome), scope) ← ((b.receive cell event).run (s.scopeFor actor) : Journal ν _)
    modify fun s => s.putCell id cell
    match outcome with
    | .error e => pure (.error e)
    | .ok () =>
      let committed ← commit b id scope.commands.toList
      if b.isDone cell then stopActor id
      pure committed
  | _, _ => pure (.ok ())

/-- Moves the earliest timer into the mailbox if it is due. -/
def fireDue : Sys ν β E Bool := do
  let s ← get
  match s.timers.popDue s.clock.now with
  | some (t, timers) =>
    set { s with timers }
    enqueue t.origin t.recipient t.event
    pure true
  | none => pure false

def childState (b : Behaviour ν β E) (s : System β E) (name : String) : Option StateValue :=
  ((s.registry.child? s.root.id name).bind s.cell?).map b.state

def childStatus (b : Behaviour ν β E) (s : System β E) (name : String) : Option ActorStatus :=
  ((s.registry.child? s.root.id name).bind s.cell?).map b.status

end System

end Statechart
