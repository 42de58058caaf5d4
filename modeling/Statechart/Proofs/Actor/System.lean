import Statechart.Proofs.Actor.Spec
import Statechart.Proofs.Actor.Registry
import Statechart.Actor.System
/-!
# What the actor system keeps

Every operation of the system is built from a few primitive changes: a send
that is queued or put on a timer, a stop, a registration with the new
actor's instance, and the stop of a subtree. The state each of them leaves
is written out once (`stopActor_state`, `shutdown_state`, ...). An invariant
of the system that each of them keeps is then kept by committing any list of
commands, however deeply spawns nest (`commit_keeps`), and by delivering a
message (`deliver_keeps`).

The first such invariant is `Sound`: the system keeps its root and files
every registry entry under its own id. Shutting down then leaves the root
with no live child, no timer and an empty mailbox (`shutdown_quiets`).
-/
namespace Statechart

namespace System

variable {ν β E : Type}

/-! ## The state each primitive change leaves -/

/-- The system once the actors `removed` are stopped: their instances and
the timers they scheduled are gone. -/
def without (s : System β E) (removed : List ActorRef) : System β E :=
  { s with
    cells := s.cells.filter fun c => Registry.outside removed c.1
    timers := { s.timers with timers := s.timers.timers.filter fun t => Registry.outside removed t.2.origin } }

@[simp] theorem without_root (s : System β E) (removed : List ActorRef) :
    (s.without removed).root = s.root := rfl

@[simp] theorem without_registry (s : System β E) (removed : List ActorRef) :
    (s.without removed).registry = s.registry := rfl

@[simp] theorem without_mailbox (s : System β E) (removed : List ActorRef) :
    (s.without removed).mailbox = s.mailbox := rfl

@[simp] theorem without_rootStopRequested (s : System β E) (removed : List ActorRef) :
    (s.without removed).rootStopRequested = s.rootStopRequested := rfl

theorem outside_cons (a : ActorRef) (rest : List ActorRef) (i : ActorId) :
    Registry.outside (a :: rest) i = (Registry.outside rest i && i != a.id) := by
  have hcomm : (a.id == i) = (i == a.id) := by
    rw [Bool.eq_iff_iff, beq_iff_eq, beq_iff_eq]
    exact ⟨Eq.symm, Eq.symm⟩
  simp only [Registry.outside, List.any_cons, Bool.not_or, bne, hcomm, Bool.and_comm]

theorem emit_state [Event E] (d : Diagnostic) (s : System β E) (l : Ledger ν) :
    (((emit d : Sys ν β E Unit).run s).run l).1.2 = s := rfl

theorem emit_keeps [Event E] (Q : System β E → Prop) (d : Diagnostic) :
    Spec Q (emit d : Sys ν β E Unit) fun _ => Q :=
  Spec.of_state (emit_state d) fun _ _ h => h

theorem dropSend_state [Event E] (sender : ActorId) (destination : Destination) (event : E)
    (s : System β E) (l : Ledger ν) :
    (((dropSend sender destination event : Sys ν β E Unit).run s).run l).1.2 = s := rfl

theorem dropSend_keeps [Event E] (Q : System β E → Prop) (sender : ActorId) (destination : Destination)
    (event : E) : Spec Q (dropSend sender destination event : Sys ν β E Unit) fun _ => Q :=
  Spec.of_state (dropSend_state sender destination event) fun _ _ h => h

theorem enqueue_state (sender : ActorId) (recipient : Address) (event : E) (s : System β E)
    (l : Ledger ν) : (((enqueue sender recipient event : Sys ν β E Unit).run s).run l).1.2 =
      { s with mailbox := s.mailbox ++ [⟨sender, recipient, event⟩] } := rfl

theorem release_state (actor : ActorRef) (s : System β E) (l : Ledger ν) :
    (((release actor : Sys ν β E Unit).run s).run l).1.2 =
      { s.dropCell actor.id with timers := s.timers.cancelFrom actor.id } := rfl

theorem releaseAll_state (removed : List ActorRef) (s : System β E) (l : Ledger ν) :
    (((forIn removed PUnit.unit fun (actor : ActorRef) _ => do
        (release actor : Sys ν β E Unit); pure (ForInStep.yield PUnit.unit)).run s).run l).1.2 =
      s.without removed := by
  induction removed generalizing s l with
  | nil =>
    have hc : s.cells.filter (fun c => Registry.outside [] c.1) = s.cells :=
      List.filter_eq_self.2 fun _ _ => rfl
    have ht : s.timers.timers.filter (fun t => Registry.outside [] t.2.origin) = s.timers.timers :=
      List.filter_eq_self.2 fun _ _ => rfl
    simp only [without, hc, ht]
    rfl
  | cons a rest ih =>
    rw [List.forIn_cons, run_bind, run_bind]
    erw [ih]
    simp only [run_pure, without, release_state, dropCell, TimerQueue.cancelFrom, List.filter_filter,
      outside_cons]

/-- Stopping an actor unregisters its subtree, then stops each actor of it. -/
theorem stopActor_state (id : ActorId) (s : System β E) (l : Ledger ν) :
    (((stopActor id : Sys ν β E Unit).run s).run l).1.2 =
      ({ s with registry := (s.registry.removeSubtree id).1 } : System β E).without
        (s.registry.removeSubtree id).2 := by
  unfold stopActor
  rw [run_bind]
  erw [run_bind, run_bind, releaseAll_state]
  rfl

/-- Firing moves the earliest timer, when it is due, to the end of the
mailbox; with none due it changes nothing. -/
theorem fireDue_run (s : System β E) (l : Ledger ν) :
    ((fireDue : Sys ν β E Bool).run s).run l =
      match s.timers.popDue s.clock.now with
      | some (t, timers) =>
        ((true, { s with timers, mailbox := s.mailbox ++ [⟨t.origin, t.recipient, t.event⟩] }), l)
      | none => ((false, s), l) := by
  unfold fireDue
  rw [run_bind, run_get]
  cases s.timers.popDue s.clock.now <;> rfl

/-- Shutting down unregisters and stops every descendant of the root, and
forgets every timer, queued message and request to stop the root. -/
theorem shutdown_state [Event E] (s : System β E) (l : Ledger ν) :
    (((shutdown : Sys ν β E Unit).run s).run l).1.2 =
      { (({ s with registry := (s.registry.removeDescendants s.root.id).1 } : System β E).without
          (s.registry.removeDescendants s.root.id).2) with
        timers := { s.timers with timers := [] }, mailbox := [], rootStopRequested := false } := by
  unfold shutdown
  rw [run_bind]
  erw [run_bind, run_bind, releaseAll_state, run_bind, run_bind, run_bind]
  rfl

/-- A committed send either is dropped, or waits on a timer that its sender
scheduled, or is queued; nothing else changes. -/
theorem commitSend_state [Event E] (origin : ActorId) (target : Target) (event : E)
    (delay : Option Duration) (s : System β E) (l : Ledger ν) :
    let s' := (((commitSend origin target event delay : Sys ν β E Unit).run s).run l).1.2
    s' = s ∨ (∃ recipient due, s' = { s with timers := s.timers.schedule due ⟨origin, recipient, event⟩ }) ∨
      ∃ recipient, s' = { s with mailbox := s.mailbox ++ [⟨origin, recipient, event⟩] } := by
  unfold commitSend
  rw [run_bind, run_get]
  split
  · exact .inl (dropSend_state _ _ _ s l)
  · next recipient _ =>
    split
    · split
      · next due _ => exact .inr (.inl ⟨recipient, due, rfl⟩)
      · exact .inl (dropSend_state _ _ _ s l)
    · exact .inr (.inr ⟨recipient, enqueue_state _ _ _ s l⟩)

/-- A committed stop either asks for the root to stop, or stops a live actor
other than the root, or does nothing. -/
theorem commitStop_state [Event E] (origin : ActorId) (target : Target) (s : System β E)
    (l : Ledger ν) :
    let s' := (((commitStop origin target : Sys ν β E Unit).run s).run l).1.2
    s' = { s with rootStopRequested := true } ∨
      (∃ id, id ≠ s.root.id ∧ s' = (((stopActor id : Sys ν β E Unit).run s).run l).1.2) ∨ s' = s := by
  unfold commitStop
  rw [run_bind, run_get]
  split
  · split
    · exact .inl rfl
    · next id _ hroot => exact .inr (.inl ⟨id, by simpa using hroot, rfl⟩)
  · exact .inr (.inr rfl)

/-! ## Invariants of committing and delivering -/

/-- `P` is kept by each primitive change a commit makes: a send, a stop, the
registration of a child with its instance, and the stop of a subtree. -/
structure Kept [Event E] (P : System β E → Prop) : Prop where
  send : ∀ origin target event delay,
    Spec P (commitSend origin target event delay : Sys ν β E Unit) fun _ => P
  stop : ∀ origin target, Spec P (commitStop origin target : Sys ν β E Unit) fun _ => P
  spawn : ∀ s origin actor registry cell, P s → s.registry.register origin actor = .ok registry →
    P (({ s with registry } : System β E).putCell actor.id cell)
  stopActor : ∀ id, Spec P (stopActor id : Sys ν β E Unit) fun _ => P

section Keeps

variable [Event E] (b : Behaviour ν β E) {P : System β E → Prop}

mutual

/-- What sends, stops, registrations and subtree stops keep, committing any
list of commands keeps, spawns nested however deep. -/
theorem commit_keeps (h : Kept (ν := ν) P) : ∀ origin cmds, Spec P (commit b origin cmds) fun _ => P
  | _, [] => Spec.pure fun _ h => h
  | origin, c :: cs => by
    rw [commit]
    exact Spec.bind (commitOne_keeps h origin c) fun _ =>
      Spec.bind (commit_keeps h origin cs) fun _ => Spec.pure fun _ h => h

theorem commitOne_keeps (h : Kept (ν := ν) P) : ∀ origin c, Spec P (commitOne b origin c) fun _ => P
  | origin, .send target event delay => by
    rw [commitOne]
    exact Spec.bind (h.send origin target event delay) fun _ => Spec.pure fun _ h => h
  | origin, .stop target => by
    rw [commitOne]
    exact Spec.bind (h.stop origin target) fun _ => Spec.pure fun _ h => h
  | origin, .spawn actor cell commands => by
    rw [commitOne]
    refine Spec.bind Spec.get fun s => ?_
    split
    · exact Spec.pure fun _ h => h.2
    · next registry hreg =>
      -- the child joins the registry and its instance is stored, then what
      -- its start produced is committed, and a child already done is stopped
      have body : Spec (fun s' => s' = { s with registry } ∧ P s)
          (modify (fun s => s.putCell actor.id cell) >>= fun _ => commit b actor.id commands >>=
            fun committed => if b.isDone cell then stopActor actor.id >>= fun _ => pure committed
              else pure committed) fun _ => P := by
        refine Spec.bind (R := fun _ => P)
          (Spec.modify fun _ hs => hs.1 ▸ h.spawn s origin actor registry cell hs.2 hreg) fun _ => ?_
        refine Spec.bind (commit_keeps h actor.id commands) fun _ => ?_
        split
        · exact Spec.bind (h.stopActor actor.id) fun _ => Spec.pure fun _ h => h
        · exact Spec.pure fun _ h => h
      refine Spec.bind (R := fun _ s' => s' = { s with registry } ∧ P s)
        (Spec.set fun _ hs => ⟨rfl, hs.1 ▸ hs.2⟩) fun _ => ?_
      dsimp only
      split
      · exact Spec.bind (emit_keeps _ _) fun _ => body
      · exact body

end

theorem deliver_keeps (h : Kept (ν := ν) P)
    (hput : ∀ s id cell, P s → (s.registry.actor? id).isSome → P (s.putCell id cell)) (id : ActorId)
    (event : E) : Spec P (deliver b id event) fun _ => P := by
  unfold deliver
  refine Spec.bind Spec.get fun s => ?_
  split
  · next cell actor _ hactor =>
    refine Spec.bind (R := fun x s' => s' = s ∧ P s) (Spec.liftM fun _ _ hs => ⟨hs.1.symm, hs.1 ▸ hs.2⟩)
      fun x => ?_
    obtain ⟨⟨cell', outcome⟩, scope⟩ := x
    refine Spec.bind (R := fun _ => P) (Spec.modify fun _ hs => hs.1 ▸ hput s id cell' hs.2 (by simp [hactor]))
      fun _ => ?_
    split
    · exact Spec.pure fun _ h => h
    · refine Spec.bind (commit_keeps b h id _) fun _ => ?_
      split
      · exact Spec.bind (h.stopActor id) fun _ => Spec.pure fun _ h => h
      · exact Spec.pure fun _ h => h
  · exact Spec.pure fun _ h => h.2

end Keeps

/-! ## The system keeps its root and its keys -/

/-- The system keeps its root, and its registry files every entry under its own id. -/
structure Sound (r : ActorRef) (s : System β E) : Prop where
  root : s.root = r
  keyed : s.registry.Keyed

theorem sound_new (root : ActorRef) (clock : Clock) (hook : Bool) (options : Options) :
    Sound root (System.new root clock hook options : System β E) :=
  ⟨rfl, Registry.keyed_ofRoot root⟩

section Sound

variable {r : ActorRef}

theorem stopActor_sound (id : ActorId) : Spec (Sound r) (stopActor id : Sys ν β E Unit) fun _ => Sound r :=
  Spec.of_state (stopActor_state id) fun _ _ h => ⟨h.root, h.keyed.removeSubtree id⟩

theorem enqueue_sound (sender : ActorId) (recipient : Address) (event : E) :
    Spec (Sound r) (enqueue sender recipient event : Sys ν β E Unit) fun _ => Sound r :=
  Spec.of_state (enqueue_state sender recipient event) fun _ _ h => ⟨h.root, h.keyed⟩

theorem fireDue_sound : Spec (Sound r) (fireDue : Sys ν β E Bool) fun _ => Sound r := by
  unfold fireDue
  refine Spec.bind Spec.get fun s => ?_
  split
  · refine Spec.bind (R := fun _ => Sound r) (Spec.set fun _ h => ⟨h.1 ▸ h.2.root, h.1 ▸ h.2.keyed⟩)
      fun _ => ?_
    exact Spec.bind (enqueue_sound _ _ _) fun _ => Spec.pure fun _ h => h
  · exact Spec.pure fun _ h => h.2

variable [Event E]

theorem kept_sound : Kept (ν := ν) (Sound r : System β E → Prop) where
  send origin target event delay s l h := by
    rcases commitSend_state origin target event delay s l with hs | ⟨_, _, hs⟩ | ⟨_, hs⟩ <;>
      rw [hs] <;> exact ⟨h.root, h.keyed⟩
  stop origin target s l h := by
    rcases commitStop_state origin target s l with hs | ⟨id, -, hs⟩ | hs
    · rw [hs]
      exact ⟨h.root, h.keyed⟩
    · rw [hs]
      exact stopActor_sound id s l h
    · rw [hs]
      exact h
  spawn _ _ _ _ _ h hreg := ⟨h.root, h.keyed.register hreg⟩
  stopActor := stopActor_sound

theorem commit_sound (b : Behaviour ν β E) (origin : ActorId) (cmds : List (Command β E)) :
    Spec (Sound r) (commit b origin cmds) fun _ => Sound r :=
  commit_keeps b kept_sound origin cmds

theorem deliver_sound (b : Behaviour ν β E) (id : ActorId) (event : E) :
    Spec (Sound r) (deliver b id event) fun _ => Sound r :=
  deliver_keeps b kept_sound (fun _ _ _ h _ => ⟨h.root, h.keyed⟩) id event

/-- Shutting down leaves the root with no live child, no timer, an empty
mailbox and no request to stop it. -/
theorem shutdown_quiets : Spec (Sound r) (shutdown : Sys ν β E Unit) fun _ s =>
    Sound r s ∧ s.registry.children r.id = [] ∧ s.timers.timers = [] ∧ s.mailbox = [] ∧
      s.rootStopRequested = false :=
  Spec.of_state shutdown_state fun _ s h =>
    ⟨⟨h.root, h.keyed.removeDescendants s.root.id⟩, h.root ▸ h.keyed.children_removeDescendants s.root.id,
      rfl, rfl, rfl⟩

end Sound

end System

end Statechart
