import Statechart.Actor.MachineActor
import Statechart.Actor.System
/-!
# Interpreters

An interpreter runs a machine as the root of an actor tree. Every call runs
to completion: the event is handled, eventless transitions are taken, and
every message the actors send each other is delivered before the call
returns. Delayed sends wait on the clock until timers are processed.

After each macrostep of the root, the tree is shut down if the root is done
or an actor asked to stop it, and then every observer is shown a snapshot.
A failing macrostep of the root returns its error at once and leaves the
rest of the mailbox queued.

The real system would loop for ever on a conversation that never ends; here
each call delivers at most `deliveryBound` messages and sleeps at most
`sleepBound` times, and fails when that was not enough.
-/
namespace Statechart

/-- What an observer is shown of the root. -/
structure Snapshot (C : Type) where
  value : StateValue
  context : C
  status : ActorStatus
  /-- The root reached a final child of its root state. -/
  done : Bool
  /-- The last macrostep took a transition. -/
  changed : Bool
  deriving Repr, Inhabited

/-- How an interpreter makes and runs the actors below its root: `spawn`
turns a child description into a started actor, `behaviour` drives it. -/
structure Nursery (C E σ β : Type) where
  spawn : Spawner (Snapshot C) β E σ
  behaviour : Behaviour (Snapshot C) β E

/-- A machine running as the root of an actor tree. -/
structure Interpreter (C E σ β : Type) where
  root : MachineActor C E σ
  system : System β E
  /-- Subscription ids, in order of subscription. -/
  observers : List Nat := []
  nextSubscription : Nat := 0

/-- Work on an interpreter that writes to the journal. -/
abbrev Run (C E σ β : Type) := StateT (Interpreter C E σ β) (Journal (Snapshot C))

namespace Interpreter

variable {C E σ β : Type} [Event E]

/-- Messages one call delivers at most. -/
def deliveryBound : Nat := 1000000

/-- Times one call to `runTimers` sleeps at most. -/
def sleepBound : Nat := 1000000

/-- An interpreter for a machine, with its own context, clock, diagnostics
hook and options; the root is named after the machine. -/
def new (m : Machine C E σ) (context : C) (clock : Clock) (hook : Bool) (options : Options) :
    Journal (Snapshot C) (Interpreter C E σ β) := do
  let root ← Journal.fresh m.id
  return { root := .new m context, system := .new root clock hook options }

def actorRef (i : Interpreter C E σ β) : ActorRef := i.system.root

def snapshot (i : Interpreter C E σ β) : Snapshot C :=
  { value := i.root.value, context := i.root.context, status := i.root.status,
    done := i.root.done, changed := i.root.changed }

def sys (x : Sys (Snapshot C) β E α) : Run C E σ β α := do
  let i ← get
  let (a, system) ← (x.run i.system : Journal (Snapshot C) _)
  set { i with system }
  return a

/-- Runs a macrostep of the root in a fresh scope: the commands it recorded,
or its failure. -/
def onRoot (step : MachineActor C E σ → Turn (Snapshot C) β E (MachineActor C E σ × Except RuntimeError Unit)) :
    Run C E σ β (Except RuntimeError (List (Command β E))) := do
  let i ← get
  let ((root, outcome), scope) ←
    ((step i.root).run (i.system.scopeFor i.system.root) : Journal (Snapshot C) _)
  set { i with root }
  return outcome.map fun () => scope.commands.toList

def notify : Run C E σ β Unit := do
  let i ← get
  for sub in i.observers do
    (Journal.report (.notified sub i.snapshot) : Journal (Snapshot C) Unit)

/-- Stops every actor below the root, forgets pending work, stops the root. -/
def shutdown : Run C E σ β Unit := do
  sys System.shutdown
  modify fun i => { i with root := i.root.stop }

/-- After a macrostep of the root: shut down if the root is done or was asked
to stop, then notify. -/
def finishRootStep : Run C E σ β Unit := do
  let i ← get
  if i.root.done || i.system.rootStopRequested then shutdown
  notify

def takeRootStop : Run C E σ β Bool := do
  let i ← get
  set { i with system := { i.system with rootStopRequested := false } }
  return i.system.rootStopRequested

/-- Commits commands of the root, then finishes its macrostep. -/
def commitRoot (n : Nursery C E σ β) (commands : List (Command β E)) :
    Run C E σ β (Except RuntimeError Unit) := do
  let root := (← get).system.root.id
  let committed ← sys (System.commit n.behaviour root commands)
  finishRootStep
  return committed

/-- Delivers queued messages until the mailbox is empty or one fails; with
`fuel` deliveries used up and messages left, it gives up. -/
def drain (n : Nursery C E σ β) : Nat → Run C E σ β (Except RuntimeError Unit)
  | 0 => do
    if (← get).system.mailbox.isEmpty then return .ok () else return .error (.deliveryLimit deliveryBound)
  | fuel + 1 => do
    let i ← get
    match i.system.mailbox with
    | [] => return .ok ()
    | envelope :: rest =>
      set { i with system := { i.system with mailbox := rest } }
      match i.system.resolve envelope.recipient with
      | some id =>
        if id == i.system.root.id then
          if i.root.status != .running then drain n fuel
          else
            match ← onRoot fun rt => rt.receive n.spawn envelope.event with
            | .error e => return .error e
            | .ok commands =>
              match ← commitRoot n commands with
              | .error e => return .error e
              | .ok () => drain n fuel
        else
          let delivered ← sys (System.deliver n.behaviour id envelope.event)
          if ← takeRootStop then
            shutdown
            notify
          match delivered with
          | .error e => return .error e
          | .ok () => drain n fuel
      | none =>
        sys (System.dropSend envelope.sender (.address envelope.recipient) envelope.event)
        drain n fuel

def notRunning (i : Interpreter C E σ β) : RuntimeError :=
  .notRunning i.system.root.name i.root.status

/-- Enters the initial configuration and runs to completion. -/
def start (n : Nursery C E σ β) : Run C E σ β (Except RuntimeError Unit) := do
  match ← onRoot fun rt => rt.start n.spawn with
  | .error e => return .error e
  | .ok commands =>
    match ← commitRoot n commands with
    | .error e => return .error e
    | .ok () => drain n deliveryBound

/-- Delivers an event to the root and runs to completion. -/
def send (n : Nursery C E σ β) (event : E) : Run C E σ β (Except RuntimeError Unit) := do
  let i ← get
  if Event.eventType event == "" then return .error .reservedEventType
  if i.root.status != .running then return .error i.notRunning
  let root := i.system.root.id
  sys (System.enqueue root (.actor root) event)
  drain n deliveryBound

/-- Stops every actor, children first, and cancels every timer; no exit
action runs. Stopping twice does nothing. -/
def stop : Run C E σ β (Except RuntimeError Unit) := do
  let i ← get
  match i.root.status with
  | .notStarted => return .error i.notRunning
  | .stopped => return .ok ()
  | .running =>
    shutdown
    return .ok ()

/-- Registers an observer; ids count from 1. -/
def subscribe : Run C E σ β Nat := do
  let i ← get
  let id := i.nextSubscription + 1
  set { i with observers := i.observers ++ [id], nextSubscription := id }
  return id

/-- Removes an observer; whether it was registered. -/
def unsubscribe (id : Nat) : Run C E σ β Bool := do
  let i ← get
  set { i with observers := i.observers.filter (· != id) }
  return i.observers.contains id

def advance (d : Duration) : Run C E σ β Unit :=
  modify fun i => { i with system := { i.system with clock := i.system.clock.advance d } }

/-- Fires due timers, earliest first, each run to completion, while the root
runs; how many fired. A timer scheduled meanwhile is due later than now, so
at most the timers pending at the start fire. -/
def processTimers (n : Nursery C E σ β) : Run C E σ β (Except RuntimeError Nat) := do
  go ((← get).system.timers.size + 1) 0
where
  /-- Fires the next due timer. -/
  go : Nat → Nat → Run C E σ β (Except RuntimeError Nat)
    | 0, fired => return .ok fired
    | fuel + 1, fired => do
      if (← get).root.status != .running then return .ok fired
      if !(← sys System.fireDue) then return .ok fired
      match ← drain n deliveryBound with
      | .error e => return .error e
      | .ok () => go fuel (fired + 1)

/-- Sleeps until each pending timer is due and fires it, until no timer is
left or the root stops. -/
def runTimers (n : Nursery C E σ β) : Run C E σ β (Except RuntimeError Unit) :=
  go sleepBound
where
  /-- One sleep and the timers it makes due. -/
  go : Nat → Run C E σ β (Except RuntimeError Unit)
    | 0 => do
      let i ← get
      if i.root.status == .running && i.system.timers.size > 0 then return .error (.sleepLimit sleepBound)
      else return .ok ()
    | fuel + 1 => do
      let i ← get
      if i.root.status != .running then return .ok ()
      match i.system.timers.nextDue with
      | none => return .ok ()
      | some due =>
        set { i with system := { i.system with clock := i.system.clock.sleepUntil due } }
        match ← processTimers n with
        | .error e => return .error e
        | .ok _ => go fuel

/-- The live children of the root, in name order. -/
def children (i : Interpreter C E σ β) : List ActorRef := i.system.registry.children i.system.root.id

/-- Time until the earliest pending timer is due, zero when it is overdue. -/
def nextTimerIn (i : Interpreter C E σ β) : Option Duration :=
  i.system.timers.nextDue.map fun due => due.since i.system.clock.now

def pendingTimers (i : Interpreter C E σ β) : Nat := i.system.timers.size

end Interpreter

end Statechart
