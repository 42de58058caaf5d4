import Statechart.Proofs.Actor.ChildNames
/-!
# What actors record

An actor touches its scope only to record a send, a stop or a spawn. A property
of scopes that recording keeps is therefore kept by a whole macrostep of a
machine actor, failed ones included (`MachineActor.start_keeps`,
`MachineActor.receive_keeps`), and by a scripted actor by induction on the
depth of nested spawns (`Script.Recording`).

Committing asks two such properties of the commands: they are recorded from the
children the scope counted live (`Scope.Tracks`), and every spawn is of an
instance that runs (`System.Started`). Both hold of all a scripted actor or
root records (`Script.recorded_tracks`, `Script.recorded_started`,
`Script.root_records`).
-/
namespace Statechart

variable {ν β E α γ : Type}

/-! ## Scope invariants of a turn -/

namespace Turn

/-- Run from a scope satisfying `I`, with any journal, `x` leaves a scope
satisfying `I`. -/
def Keeps (I : Scope β E → Prop) (x : Turn ν β E α) : Prop :=
  ∀ sc l, I sc → I ((x.run sc).run l).1.2

namespace Keeps

variable {I : Scope β E → Prop}

theorem pure (a : α) : Keeps I (Pure.pure a : Turn ν β E α) :=
  fun _ _ h => h

theorem bind {x : Turn ν β E α} {f : α → Turn ν β E γ} (hx : Keeps I x) (hf : ∀ a, Keeps I (f a)) :
    Keeps I (x >>= f) := by
  intro sc l h
  rw [run_bind]
  exact hf _ _ _ (hx sc l h)

theorem get : Keeps I (MonadState.get : Turn ν β E (Scope β E)) :=
  fun _ _ h => h

theorem journal (j : Journal ν α) : Keeps I (j : Turn ν β E α) :=
  fun _ _ h => h

theorem emit (d : Diagnostic) : Keeps I (Scope.emit d : Turn ν β E Unit) :=
  fun _ _ h => h

theorem forIn {xs : List α} {init : γ} {body : α → γ → Turn ν β E (ForInStep γ)}
    (h : ∀ a b, Keeps I (body a b)) : Keeps I (forIn xs init body) := by
  induction xs generalizing init with
  | nil => exact pure init
  | cons a xs ih =>
    rw [List.forIn_cons]
    refine bind (h a init) fun step => ?_
    cases step with
    | done b => exact pure b
    | yield b => exact ih

end Keeps

end Turn

namespace TurnE

/-- `x` keeps `I` of the scope, whether it succeeds or fails. -/
def Keeps (I : Scope β E → Prop) (x : TurnE ν β E α) : Prop :=
  Turn.Keeps I x.run

namespace Keeps

variable {I : Scope β E → Prop}

theorem pure (a : α) : Keeps I (Pure.pure a : TurnE ν β E α) :=
  Turn.Keeps.pure _

theorem throw (e : RuntimeError) : Keeps I (MonadExcept.throw e : TurnE ν β E α) :=
  Turn.Keeps.pure _

theorem bind {x : TurnE ν β E α} {f : α → TurnE ν β E γ} (hx : Keeps I x) (hf : ∀ a, Keeps I (f a)) :
    Keeps I (x >>= f) := by
  unfold Keeps
  rw [ExceptT.run_bind]
  refine Turn.Keeps.bind hx ?_
  rintro (e | a)
  · exact Turn.Keeps.pure _
  · exact hf a

theorem lift {x : Turn ν β E α} (hx : Turn.Keeps I x) : Keeps I (x : TurnE ν β E α) :=
  fun sc l h => hx sc l h

theorem get : Keeps I (MonadState.get : TurnE ν β E (Scope β E)) :=
  fun _ _ h => h

theorem forIn {xs : List α} {init : γ} {body : α → γ → TurnE ν β E (ForInStep γ)}
    (h : ∀ a b, Keeps I (body a b)) : Keeps I (forIn xs init body) := by
  induction xs generalizing init with
  | nil => exact pure init
  | cons a xs ih =>
    rw [List.forIn_cons]
    refine bind (h a init) fun step => ?_
    cases step with
    | done b => exact pure b
    | yield b => exact ih

end Keeps

end TurnE

/-! ## A macrostep keeps what recording keeps -/

section Machine

variable {C σ : Type} {I : Scope β E → Prop}
  (hsend : ∀ target (event : E) delay, Turn.Keeps I (Scope.sendAfter target event delay : Turn ν β E Unit))
  (hstop : ∀ target, Turn.Keeps I (Scope.stop target : Turn ν β E Unit))
  {spawn : Spawner ν β E σ} (hspawn : ∀ name spec, TurnE.Keeps I (spawn name spec))
include hsend hstop hspawn

theorem Action.execute_keeps (context : C) (event : Option E) :
    ∀ a : Action C E σ, TurnE.Keeps I (a.execute spawn context event)
  | .assign _ => .pure _
  | .send target payload delay => by
    dsimp only [Action.execute]
    split
    · exact (TurnE.Keeps.lift (hsend _ _ _)).bind fun _ => .pure _
    · exact .pure _
  | .spawn name factory _ => (hspawn name _).bind fun _ => .pure _
  | .stop target => (TurnE.Keeps.lift (hstop target)).bind fun _ => .pure _
  | .effect _ =>
    (TurnE.Keeps.forIn fun _ _ => (TurnE.Keeps.lift (.journal _)).bind fun _ => .pure _).bind
      fun _ => .pure _

namespace MachineActor

omit hsend hstop hspawn in
theorem resolve_keeps (rt : MachineActor C E σ) (trigger : Trigger) (event : Option E) :
    TurnE.Keeps I (rt.resolve trigger event : TurnE ν β E (Option Plan)) := by
  unfold resolve
  refine TurnE.Keeps.get.bind fun _ => ?_
  refine (TurnE.Keeps.forIn fun _ _ => (TurnE.Keeps.lift (.emit _)).bind fun _ => .pure _).bind fun _ => ?_
  split
  · exact .pure _
  · exact .throw _

theorem execute_keeps (rt : MachineActor C E σ) (plan : Plan) (event : Option E) :
    TurnE.Keeps I (rt.execute spawn plan event) := by
  unfold execute
  refine (TurnE.Keeps.forIn fun id _ => ?_).bind fun _ => .pure _
  split
  · exact (Action.execute_keeps hsend hstop hspawn _ event _).bind fun _ => .pure _
  · exact (TurnE.Keeps.pure ()).bind fun _ => .pure _

theorem take_keeps (rt : MachineActor C E σ) (records : List Record) (plan : Plan) (event : Option E) :
    TurnE.Keeps I (rt.take spawn records plan event) :=
  (execute_keeps hsend hstop hspawn rt plan event).bind fun _ => .pure _

theorem settle_keeps (limit : Nat) (event : Option E) :
    ∀ remaining (rt : MachineActor C E σ) records, TurnE.Keeps I (settle spawn limit event remaining rt records)
  | remaining, rt, records => by
    unfold settle
    split
    · exact .pure _
    · refine (resolve_keeps rt .always event).bind fun o => ?_
      cases o with
      | none => exact .pure _
      | some plan =>
        cases remaining with
        | zero => exact .throw _
        | succ r =>
          exact (take_keeps hsend hstop hspawn rt records plan event).bind fun p =>
            settle_keeps limit event r p.1 p.2

theorem settleAll_keeps (event : Option E) (rt : MachineActor C E σ) (records : List Record) :
    TurnE.Keeps I (settleAll spawn event rt records) :=
  TurnE.Keeps.get.bind fun _ => settle_keeps hsend hstop hspawn _ event _ rt records

omit hsend hstop hspawn in
/-- A macrostep keeps what its step keeps: a failure hands the scope on as the
step left it, a success only reports the transitions. -/
theorem transact_keeps (rt : MachineActor C E σ)
    {step : MachineActor C E σ → TurnE ν β E (MachineActor C E σ × List Record)}
    (hstep : TurnE.Keeps I (step rt)) : Turn.Keeps I (rt.transact step) := by
  unfold transact
  refine Turn.Keeps.bind hstep ?_
  rintro (e | ⟨next, records⟩)
  · exact .pure _
  · refine Turn.Keeps.get.bind fun _ => ?_
    refine (Turn.Keeps.forIn fun _ _ => (Turn.Keeps.emit _).bind fun _ => .pure _).bind fun _ => ?_
    exact .pure _

theorem start_keeps (rt : MachineActor C E σ) : Turn.Keeps I (rt.start spawn) := by
  unfold start
  refine Turn.Keeps.get.bind fun _ => ?_
  split
  · exact .pure _
  · exact .pure _
  · refine (transact_keeps _ ?_).bind fun p => ?_
    · exact (execute_keeps hsend hstop hspawn _ _ none).bind fun rt' =>
        settleAll_keeps hsend hstop hspawn none rt' []
    · obtain ⟨_, outcome⟩ := p
      cases outcome <;> exact .pure _

theorem receive_keeps [Event E] (rt : MachineActor C E σ) (event : E) :
    Turn.Keeps I (rt.receive spawn event) := by
  unfold receive
  refine Turn.Keeps.get.bind fun _ => ?_
  split
  · exact .pure _
  · refine transact_keeps _ ((resolve_keeps _ _ _).bind fun o => ?_)
    cases o with
    | some plan =>
      exact (take_keeps hsend hstop hspawn _ [] plan _).bind fun p =>
        settleAll_keeps hsend hstop hspawn _ p.1 p.2
    | none => exact (TurnE.Keeps.lift (.emit _)).bind fun _ => .pure _

end MachineActor

end Machine

/-! ## What scripted actors record -/

namespace Script

section Echo

variable {I : Scope Cell Signal → Prop}
  (hsend : ∀ target (event : Signal) delay, Turn.Keeps I (Scope.sendAfter target event delay : Turn View Cell Signal Unit))
include hsend

theorem Echo.start_keeps (e : Echo) : Turn.Keeps I (e.start : Turn View Cell Signal _) := by
  unfold Echo.start
  exact Turn.Keeps.get.bind fun _ => (hsend _ _ none).bind fun _ => .pure _

theorem Echo.receive_keeps (hstop : ∀ target, Turn.Keeps I (Scope.stop target : Turn View Cell Signal Unit))
    {spawnEcho : String → TurnE View Cell Signal ActorRef} (hspawn : ∀ name, TurnE.Keeps I (spawnEcho name))
    (e : Echo) (event : Signal) : Turn.Keeps I (e.receive spawnEcho event) := by
  unfold Echo.receive
  refine Turn.Keeps.get.bind fun s => ?_
  split
  · refine Turn.Keeps.bind (hspawn _) fun r => ?_
    cases r <;> exact .pure _
  -- the three stops, being done, a send to a child and a delayed send to the parent
  · exact (hstop _).bind fun _ => .pure _
  · exact (hstop _).bind fun _ => .pure _
  · exact (hstop _).bind fun _ => .pure _
  · exact .pure _
  · exact (hsend _ _ none).bind fun _ => .pure _
  · exact (hsend _ _ _).bind fun _ => .pure _
  · -- any other event is echoed to the parent, if there is one
    dsimp only
    split
    · exact (hsend _ _ none).bind fun _ => .pure _
    · exact .pure _

end Echo

theorem Cell.liftExcept_keeps {I : Scope Cell Signal → Prop} {α : Type} (r : Except RuntimeError α) :
    TurnE.Keeps I (Cell.start.liftExcept r) := by
  cases r with
  | ok a => exact .pure a
  | error e => exact .throw e

/-- A property of scopes counting `live` children that recording a send or a
stop keeps, and a spawn keeps when the child's start keeps it. -/
structure Recording (lib : Library) (I : List String → Scope Cell Signal → Prop) : Prop where
  send : ∀ live target (event : Signal) delay,
    Turn.Keeps (I live) (Scope.sendAfter target event delay : Turn View Cell Signal Unit)
  stop : ∀ live target, Turn.Keeps (I live) (Scope.stop target : Turn View Cell Signal Unit)
  spawn : ∀ depth, (∀ c, Turn.Keeps (I []) (Cell.start lib depth c)) →
    ∀ live name cell, TurnE.Keeps (I live) (Scope.spawn (Cell.start lib depth) name cell)

namespace Recording

variable {lib : Library} {I : List String → Scope Cell Signal → Prop} (h : Recording lib I)
include h

/-- A scripted actor's start keeps the property: the children it spawns start
in scopes of their own, one level less deep. -/
theorem start : ∀ depth c live, Turn.Keeps (I live) (Cell.start lib depth c)
  | 0, _, _ => by
    rw [Cell.start]
    exact Turn.Keeps.get.bind fun _ => .pure _
  | depth + 1, .machine rt, live => by
    rw [Cell.start]
    refine Turn.Keeps.bind ?_ fun _ => .pure _
    refine MachineActor.start_keeps (h.send live) (h.stop live) (fun name spec => ?_) rt
    exact Cell.liftExcept_keeps _ |>.bind fun cell => h.spawn depth (fun c => start depth c []) live name cell
  | _ + 1, .echo e, live => by
    rw [Cell.start]
    exact (Echo.start_keeps (h.send live) e).bind fun _ => .pure _

theorem spawner (live : List String) (name : String) (spec : ChildSpec) :
    TurnE.Keeps (I live) (Cell.spawner lib name spec) :=
  Cell.liftExcept_keeps _ |>.bind fun cell => h.spawn _ (fun c => h.start _ c []) live name cell

theorem receive (live : List String) : ∀ c event, Turn.Keeps (I live) (Cell.receive lib c event)
  | .machine rt, event => by
    rw [Cell.receive]
    exact (MachineActor.receive_keeps (h.send live) (h.stop live) (h.spawner live) rt event).bind
      fun _ => .pure _
  | .echo e, event => by
    rw [Cell.receive]
    exact (Echo.receive_keeps (h.send live) (h.stop live)
      (fun name => h.spawn _ (fun c => h.start _ c []) live name _) e event).bind fun _ => .pure _

end Recording

end Script

/-! ## The records a commit asks for -/

namespace System

variable {ν : Type} (b : Behaviour ν β E)

theorem started_append {cs ds : List (Command β E)} : Started b (cs ++ ds) ↔ Started b cs ∧ Started b ds := by
  simp only [Started, Command.spawnsAll_append, List.mem_append, or_imp, forall_and]

theorem started_nil : Started b ([] : List (Command β E)) :=
  fun _ hp => absurd hp List.not_mem_nil

theorem started_push {cmds : Array (Command β E)} {c : Command β E} (h : Started b cmds.toList)
    (hc : Started b [c]) : Started b (cmds.push c).toList := by
  rw [Array.toList_push, started_append]
  exact ⟨h, hc⟩

end System

namespace Script

theorem recording_tracks (lib : Library) : Recording lib Scope.Tracks where
  send _ t e d sc l h := Scope.sendAfter_tracks t e d sc l h
  stop _ t sc l h := Scope.stop_tracks t sc l h
  spawn _ hstart _ name cell sc l h := Scope.spawn_tracks _ (fun c sc l h => hstart c sc l h) name cell sc l h

/-- Every spawn a scope records is of an instance that runs. -/
theorem recording_started (lib : Library) :
    Recording lib fun _ sc => System.Started (nursery lib).behaviour sc.commands.toList where
  send _ t e d sc l h :=
    System.started_push _ h fun _ hp => by simp [Command.spawnsAll, Command.spawns] at hp
  stop _ t sc l h :=
    System.started_push _ h fun _ hp => by simp [Command.spawnsAll, Command.spawns] at hp
  spawn depth hstart _ name cell sc l h := by
    rcases Scope.spawn_state (Cell.start lib depth) name cell sc l with hs | ⟨actor, l', -, -, hok, hs⟩
    · erw [hs]
      exact h
    · erw [hs]
      -- the spawned instance runs, and so do those its own start spawned
      refine System.started_push _ h fun p hp => ?_
      rw [Command.spawnsAll_cons, Command.spawns_spawn, List.mem_append, List.mem_cons] at hp
      rcases hp with (rfl | hp) | hp
      · exact Cell.start_runs lib depth cell _ l' hok
      · exact hstart cell _ l' (System.started_nil _) p hp
      · exact absurd hp List.not_mem_nil

/-- What a scripted actor records while it handles a message is recorded from
the names of its live children in the registry. -/
theorem recorded_tracks (lib : Library) (s : System Cell Signal) (cell : Cell) (actor : ActorRef)
    (event : Signal) (l : Ledger View) :
    Command.Recorded ((s.registry.children actor.id).map (·.name))
      (System.recorded (nursery lib).behaviour s cell actor event l) :=
  ((recording_tracks lib).receive _ cell event (s.scopeFor actor) l (Scope.tracks_scopeFor s actor)).1

/-- Every instance spawned by what a scripted actor records while it handles a
message runs. -/
theorem recorded_started (lib : Library) (s : System Cell Signal) (cell : Cell) (actor : ActorRef)
    (event : Signal) (l : Ledger View) :
    System.Started (nursery lib).behaviour (System.recorded (nursery lib).behaviour s cell actor event l) :=
  (recording_started lib).receive [] cell event (s.scopeFor actor) l (System.started_nil _)

/-- What the root of a scripted interpreter records as it starts or handles a
message is recorded from its live children and spawns only instances that run.
-/
theorem root_records (lib : Library) (s : System Cell Signal) (rt : MachineActor Context Signal ChildSpec)
    (event : Signal) (l : Ledger View) :
    let started := (((rt.start (Cell.spawner lib)).run (s.scopeFor s.root)).run l).1.2.commands.toList
    let received := (((rt.receive (Cell.spawner lib) event).run (s.scopeFor s.root)).run l).1.2.commands.toList
    Command.Recorded ((s.registry.children s.root.id).map (·.name)) started ∧
      System.Started (nursery lib).behaviour started ∧
      Command.Recorded ((s.registry.children s.root.id).map (·.name)) received ∧
      System.Started (nursery lib).behaviour received := by
  have ht := recording_tracks lib
  have hs := recording_started lib
  have htracks := Scope.tracks_scopeFor s s.root
  exact ⟨(MachineActor.start_keeps (ht.send _) (ht.stop _) (ht.spawner _) rt _ l htracks).1,
    MachineActor.start_keeps (hs.send []) (hs.stop []) (hs.spawner []) rt _ l (System.started_nil _),
    (MachineActor.receive_keeps (ht.send _) (ht.stop _) (ht.spawner _) rt event _ l htracks).1,
    MachineActor.receive_keeps (hs.send []) (hs.stop []) (hs.spawner []) rt event _ l (System.started_nil _)⟩

/-- A delivery to a scripted actor keeps a system reachable when the actor's
spawns get fresh ids: that they run is what the actor records. -/
theorem reachable_deliver (lib : Library) {root : ActorRef} {s : System Cell Signal}
    (h : System.Reachable (nursery lib).behaviour root s) (id : ActorId) (event : Signal) (l : Ledger View)
    (hfresh : ∀ cell actor, s.cell? id = some cell → s.registry.actor? id = some actor →
      System.Fresh s (System.recorded (nursery lib).behaviour s cell actor event l)) :
    System.Reachable (nursery lib).behaviour root (((System.deliver (nursery lib).behaviour id event).run s).run l).1.2 :=
  .deliver id event l h fun cell actor hc ha => ⟨hfresh cell actor hc ha, recorded_started lib s cell actor event l⟩

end Script

end Statechart
