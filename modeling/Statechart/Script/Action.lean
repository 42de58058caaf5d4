import Statechart.Script.Basic
/-!
# Scripted actions and machine definitions

A scripted action is data: assignments, trace labels, log lines, sends,
spawns and stops, turned into a machine action when the machine is built.

A child is described by the machine it runs, with its own context when the
spawn gives one, or is an echo actor.
-/
namespace Statechart.Script

/-- Who a scripted send or stop is meant for. -/
inductive Recipient where
  | self
  | parent
  | child (name : String)
  /-- An actor that was never started: a send to it is always dropped. -/
  | detached (name : String)
  deriving DecidableEq, Repr, Inhabited

/-- The target of a recipient; `refOf` gives detached actors their reference. -/
def Recipient.target (refOf : String → ActorRef) : Recipient → Target
  | .self => .itself
  | .parent => .parent
  | .child name => .child name
  | .detached name => .actor (refOf name)

/-- What a send carries. -/
inductive Payload where
  /-- A new event computed when the action runs. -/
  | event (type : String) (data : List (String × Expr))
  /-- The triggering event itself; nothing is sent without one. -/
  | forward
  deriving DecidableEq, Repr, Inhabited

/-- A child to spawn. -/
inductive ChildSpec where
  /-- The named machine, with the given context or else its default one. -/
  | machine (name : String) (context : Option Context)
  | echo
  deriving DecidableEq, Repr, Inhabited

/-- A scripted action. -/
inductive ActionSpec where
  /-- Sets variables, every value computed from the context before the action. -/
  | assign (updates : List (String × Expr))
  /-- Appends a label to the trace. -/
  | push (label : String)
  /-- Writes `label`, or `label=value`. -/
  | log (label : String) (value : Option Expr)
  /-- Sends, when `condition` is absent or holds. -/
  | send (payload : Payload) (recipient : Recipient) (delay : Option Duration) (condition : Option Formula)
  /-- Spawns a machine; its variables, when given, are computed from the
  spawning context and event. -/
  | spawnMachine (name machine : String) (vars : Option (List (String × Expr))) (store : Option String)
  | spawnEcho (name : String) (store : Option String)
  | stop (target : Recipient)
  deriving Repr, Inhabited

/-- The machine action of a scripted action. -/
def ActionSpec.toAction (refOf : String → ActorRef) : ActionSpec → Action Context Signal ChildSpec
  | .assign updates => .assign fun c e =>
    { c with vars := (evalAll c e updates).foldl (fun vs (k, v) => insertSorted k v vs) c.vars }
  | .push label => .assign fun c _ => { c with trace := c.trace ++ [label] }
  | .log label value => .effect fun c e =>
    match value with
    | some x => [label ++ "=" ++ toString (x.eval c e).toInt]
    | none => [label]
  | .send payload recipient delay condition =>
    .send (recipient.target refOf) (fun c e =>
      let enabled := match condition with
        | some f => match f.eval c e with
          | .ok b => b
          | .error _ => false
        | none => true
      if enabled then
        match payload with
        | .event type data => some ⟨type, evalAll c e data⟩
        | .forward => e
      else none) delay
  | .spawnMachine name machine vars store =>
    .spawn name (fun c e => .machine machine (vars.map fun xs => { vars := evalAll c e xs }))
      (store.map keep)
  | .spawnEcho name store => .spawn name (fun _ _ => .echo) (store.map keep)
  | .stop target => .stop (target.target refOf)
where
  /-- Keeps a reference under a key. -/
  keep (key : String) (c : Context) (r : ActorRef) : Context :=
    { c with refs := insertSorted key r c.refs }

/-- Where a definition's configuration comes from. -/
inductive ConfigSource where
  /-- JSON text, read when the machine is built. -/
  | text (json : String)
  /-- A configuration built directly. -/
  | built (config : MachineConfig)
  deriving Repr, Inhabited

/-- A scripted machine: configuration, default variables, guards and actions. -/
structure Definition where
  source : ConfigSource
  vars : List (String × Int64) := []
  guards : List (String × Formula) := []
  actions : List (String × ActionSpec) := []
  deriving Repr, Inhabited

/-- A machine built from a definition. -/
abbrev ScriptMachine := Machine Context Signal ChildSpec

/-- Builds a definition's machine. -/
def Definition.build (refOf : String → ActorRef) (d : Definition) : Except BuildError ScriptMachine := do
  let config ← match d.source with
    | .text json => MachineConfig.parse json
    | .built config => pure config
  let b : MachineBuilder Context Signal ChildSpec := { config, context := { vars := sortedOf d.vars } }
  let b := d.guards.foldl (fun b (k, f) => b.guard k f.toGuard) b
  let b := d.actions.foldl (fun b (k, a) => b.action k (a.toAction refOf)) b
  b.build

/-- The machine names detached recipients of a definition mention, in order. -/
def Definition.detachedNames (d : Definition) : List String :=
  d.actions.flatMap fun (_, a) => match a with
    | .send _ (.detached n) _ _ | .stop (.detached n) => [n]
    | _ => []

end Statechart.Script
