import Statechart.Proofs.Actor.Lifecycle
/-!
# Invariants of the root across calls

A call changes its root in only three ways: a start, the receipt of an event by
a running root, each a macrostep in the root's scope, and the stop of the root
when the tree shuts down. Everything else is work on the system, which never
changes its options (`System.kept_options`). An invariant that survives these
(`Keeps`) holds after every call (`Keeps.perform`) and of every interpreter
calls lead to (`Keeps.reachable`); the root, for one, stays an actor of its
machine (`Reachable.root_pristine`).
-/
namespace Statechart

namespace System

variable {ν β E : Type}

theorem enqueue_options (sender : ActorId) (recipient : Address) (event : E) (o : Options) :
    Spec (fun s => s.options = o) (enqueue sender recipient event : Sys ν β E Unit)
      fun _ s => s.options = o :=
  Spec.of_state (enqueue_state sender recipient event) fun _ _ h => h

theorem fireDue_options (o : Options) :
    Spec (fun s => s.options = o) (fireDue : Sys ν β E Bool) fun _ s => s.options = o := by
  intro s l h
  rw [fireDue_run]
  split <;> exact h

variable [Event E]

/-- No primitive change of a commit touches the options. -/
theorem kept_options (o : Options) : Kept (ν := ν) (fun s : System β E => s.options = o) where
  send origin target event delay s l h := by
    rcases commitSend_state origin target event delay s l with hs | ⟨_, _, hs⟩ | ⟨_, hs⟩ <;>
      rw [hs] <;> exact h
  stop origin target s l h := by
    rcases commitStop_state origin target s l with hs | ⟨id, -, hs⟩ | hs <;> rw [hs]
    · exact h
    · rw [stopActor_state]
      exact h
    · exact h
  spawn _ _ _ _ _ h _ := h
  stopActor id s l h := by
    rw [stopActor_state]
    exact h

theorem commit_options (b : Behaviour ν β E) (origin : ActorId) (cmds : List (Command β E))
    (o : Options) : Spec (fun s => s.options = o) (commit b origin cmds) fun _ s => s.options = o :=
  commit_keeps b (kept_options o) origin cmds

theorem deliver_options (b : Behaviour ν β E) (id : ActorId) (event : E) (o : Options) :
    Spec (fun s => s.options = o) (deliver b id event) fun _ s => s.options = o :=
  deliver_keeps b (kept_options o) (fun _ _ _ h _ => h) id event

theorem shutdown_options (o : Options) :
    Spec (fun s => s.options = o) (shutdown : Sys ν β E Unit) fun _ s => s.options = o :=
  Spec.of_state shutdown_state fun _ _ h => h

end System

namespace Interpreter

variable {C E σ β : Type} [Event E]

/-- What an invariant of interpreters has to survive to hold across calls: work
on the system that keeps its options, observers, and starts, receipts and stops
of the root. -/
structure Keeps (n : Nursery C E σ β) (J : Interpreter C E σ β → Prop) : Prop where
  system : ∀ i (s : System β E), J i → s.options = i.system.options → J { i with system := s }
  observers : ∀ i observers next, J i → J { i with observers, nextSubscription := next }
  rootStart : ∀ i l, J i →
    J { i with root := (((i.root.start n.spawn).run (i.system.scopeFor i.system.root)).run l).1.1.1 }
  rootReceive : ∀ i event l, J i → i.root.status = .running →
    J { i with root := (((i.root.receive n.spawn event).run (i.system.scopeFor i.system.root)).run l).1.1.1 }
  rootStop : ∀ i, J i → J { i with root := i.root.stop }

namespace Keeps

variable {n : Nursery C E σ β} {J : Interpreter C E σ β → Prop} (hJ : Keeps n J)
include hJ

theorem sys {α : Type} {x : Sys (Snapshot C) β E α}
    (hx : ∀ o, Spec (fun s => s.options = o) x fun _ s => s.options = o) :
    Spec J (Interpreter.sys x) fun _ => J := fun i l hi =>
  hJ.system i _ hi (hx i.system.options i.system l rfl)

theorem shutdown : Spec J (Interpreter.shutdown : Run C E σ β Unit) fun _ => J :=
  Spec.bind (hJ.sys System.shutdown_options) fun _ => Spec.modify fun i hi => hJ.rootStop i hi

theorem finishRootStep : Spec J (Interpreter.finishRootStep : Run C E σ β Unit) fun _ => J := by
  unfold Interpreter.finishRootStep
  refine Spec.bind Spec.get fun _ => ?_
  split
  · exact Spec.bind (Spec.pre hJ.shutdown fun _ h => h.2) fun _ => notify_keeps J
  · exact Spec.pre (notify_keeps J) fun _ h => h.2

theorem commitRoot (cmds : List (Command β E)) : Spec J (Interpreter.commitRoot n cmds) fun _ => J := by
  unfold Interpreter.commitRoot
  refine Spec.bind Spec.get fun _ => ?_
  refine Spec.bind (Spec.pre (hJ.sys fun o => System.commit_options _ _ _ o) fun _ h => h.2) fun _ => ?_
  exact Spec.bind hJ.finishRootStep fun _ => Spec.pure fun _ h => h

theorem onRoot_start : Spec J (onRoot fun rt => rt.start n.spawn) fun _ => J := by
  intro i l hi
  rw [onRoot_run]
  exact hJ.rootStart i l hi

theorem onRoot_receive (event : E) :
    Spec (fun i => J i ∧ i.root.status = .running) (onRoot fun rt => rt.receive n.spawn event)
      fun _ => J := by
  intro i l hi
  rw [onRoot_run]
  exact hJ.rootReceive i event l hi.1 hi.2

theorem drain (fuel : Nat) : Spec J (Interpreter.drain n fuel) fun _ => J := by
  induction fuel with
  | zero =>
    rw [Interpreter.drain]
    refine Spec.bind Spec.get fun _ => ?_
    split <;> exact Spec.pure fun _ h => h.2
  | succ fuel ih =>
    rw [Interpreter.drain]
    refine Spec.bind Spec.get fun i => ?_
    split
    · exact Spec.pure fun _ h => h.2
    · refine Spec.bind (R := fun _ s => J s ∧ s.root = i.root) (Spec.set fun s h => ?_) fun _ => ?_
      · obtain ⟨rfl, h⟩ := h
        exact ⟨hJ.system _ _ h rfl, rfl⟩
      split
      · split
        · -- the message is for the root, which takes it only while it runs
          split
          · exact Spec.pre ih fun _ h => h.1
          · next hs =>
            refine Spec.bind (Spec.pre (hJ.onRoot_receive _) fun s h => ⟨h.1, ?_⟩) fun res => ?_
            · rw [h.2]
              simpa using hs
            split
            · exact Spec.pure fun _ h => h
            · refine Spec.bind (hJ.commitRoot _) fun _ => ?_
              split
              · exact Spec.pure fun _ h => h
              · exact ih
        · -- the message is for a child; the root may have been asked to stop
          refine Spec.bind (Spec.pre (hJ.sys fun o => System.deliver_options _ _ _ o) fun _ h => h.1)
            fun _ => ?_
          refine Spec.bind (R := fun _ => J)
            (Spec.of_state takeRootStop_state fun _ _ h => hJ.system _ _ h rfl) fun _ => ?_
          dsimp only
          split
          · refine Spec.bind hJ.shutdown fun _ => Spec.bind (notify_keeps _) fun _ => ?_
            split
            · exact Spec.pure fun _ h => h
            · exact ih
          · split
            · exact Spec.pure fun _ h => h
            · exact ih
      · exact Spec.bind (Spec.pre (hJ.sys fun _ => System.dropSend_keeps _ _ _ _) fun _ h => h.1)
          fun _ => ih

theorem start : Spec J (Interpreter.start n) fun _ => J := by
  unfold Interpreter.start
  refine Spec.bind hJ.onRoot_start fun res => ?_
  split
  · exact Spec.pure fun _ h => h
  · refine Spec.bind (hJ.commitRoot _) fun _ => ?_
    split
    · exact Spec.pure fun _ h => h
    · exact hJ.drain _

theorem send (event : E) : Spec J (Interpreter.send n event) fun _ => J := by
  unfold Interpreter.send
  refine Spec.bind Spec.get fun _ => ?_
  split
  · exact Spec.pure fun _ h => h.2
  · split
    · exact Spec.pure fun _ h => h.2
    · refine Spec.bind (Spec.pre (hJ.sys fun o => System.enqueue_options _ _ _ o) fun _ h => h.2)
        fun _ => hJ.drain _

theorem stop : Spec J (Interpreter.stop : Run C E σ β _) fun _ => J := by
  unfold Interpreter.stop
  refine Spec.bind Spec.get fun _ => ?_
  split
  · exact Spec.pure fun _ h => h.2
  · exact Spec.pure fun _ h => h.2
  · exact Spec.bind (Spec.pre hJ.shutdown fun _ h => h.2) fun _ => Spec.pure fun _ h => h

theorem processTimers_go (fuel fired : Nat) :
    Spec J (Interpreter.processTimers.go n fuel fired) fun _ => J := by
  induction fuel generalizing fired with
  | zero =>
    rw [Interpreter.processTimers.go]
    exact Spec.pure fun _ h => h
  | succ fuel ih =>
    rw [Interpreter.processTimers.go]
    refine Spec.bind Spec.get fun _ => ?_
    split
    · exact Spec.pure fun _ h => h.2
    · refine Spec.bind (Spec.pre (hJ.sys System.fireDue_options) fun _ h => h.2) fun _ => ?_
      split
      · exact Spec.pure fun _ h => h
      · refine Spec.bind (hJ.drain _) fun _ => ?_
        split
        · exact Spec.pure fun _ h => h
        · exact ih _

theorem processTimers : Spec J (Interpreter.processTimers n) fun _ => J :=
  Spec.bind Spec.get fun _ => Spec.pre (hJ.processTimers_go _ _) fun _ h => h.2

theorem runTimers_go (fuel : Nat) : Spec J (Interpreter.runTimers.go n fuel) fun _ => J := by
  induction fuel with
  | zero =>
    rw [Interpreter.runTimers.go]
    refine Spec.bind Spec.get fun _ => ?_
    split <;> exact Spec.pure fun _ h => h.2
  | succ fuel ih =>
    rw [Interpreter.runTimers.go]
    refine Spec.bind Spec.get fun _ => ?_
    split
    · exact Spec.pure fun _ h => h.2
    · split
      · exact Spec.pure fun _ h => h.2
      · -- sleeping only moves the clock
        refine Spec.bind (R := fun _ => J) (Spec.set fun _ h => ?_) fun _ => ?_
        · obtain ⟨rfl, h⟩ := h
          exact hJ.system _ _ h rfl
        refine Spec.bind hJ.processTimers fun _ => ?_
        split
        · exact Spec.pure fun _ h => h
        · exact ih

/-- Every public call keeps the invariant, whatever its outcome. -/
theorem perform : ∀ c : Call E, Spec J (c.perform n) fun _ => J
  | .start => Spec.bind hJ.start fun _ => Spec.pure fun _ h => h
  | .send event => Spec.bind (hJ.send event) fun _ => Spec.pure fun _ h => h
  | .stop => Spec.bind hJ.stop fun _ => Spec.pure fun _ h => h
  | .processTimers => Spec.bind hJ.processTimers fun _ => Spec.pure fun _ h => h
  | .runTimers => Spec.bind (hJ.runTimers_go _) fun _ => Spec.pure fun _ h => h
  | .subscribe => by
    unfold Call.perform Interpreter.subscribe
    refine Spec.bind (Spec.bind Spec.get fun _ => Spec.bind (Spec.set fun _ ⟨hi, h⟩ => ?_) fun _ =>
      Spec.pure fun _ h => h) fun _ => Spec.pure fun _ h => h
    subst hi
    exact hJ.observers _ _ _ h
  | .unsubscribe id => by
    unfold Call.perform Interpreter.unsubscribe
    refine Spec.bind (Spec.bind Spec.get fun _ => Spec.bind (Spec.set fun _ ⟨hi, h⟩ => ?_) fun _ =>
      Spec.pure fun _ h => h) fun _ => Spec.pure fun _ h => h
    subst hi
    exact hJ.observers _ _ _ h
  | .advance d => Spec.modify fun _ h => hJ.system _ _ h rfl

/-- An invariant that holds of fresh interpreters and survives the changes a
call makes holds of every interpreter that public calls lead to. -/
theorem reachable
    (hnew : ∀ m context clock hook options l, J ((Interpreter.new m context clock hook options).run l).1)
    {i : Interpreter C E σ β} (h : Reachable n i) : J i := by
  induction h with
  | new m context clock hook options l => exact hnew m context clock hook options l
  | call c l _ ih => exact hJ.perform c _ l ih

end Keeps

/-- The root stays an actor of its machine: calls only start it, hand it
messages and stop it. -/
theorem keeps_root_reachable (n : Nursery C E σ β) : Keeps n fun i => ∃ m, MachineActor.Reachable m i.root where
  system _ _ h _ := h
  observers _ _ _ h := h
  rootStart _ l h := h.imp fun _ hm => .start n.spawn _ l hm
  rootReceive _ event l h _ := h.imp fun _ hm => .receive n.spawn event _ l hm
  rootStop _ h := h.imp fun _ hm => .stop hm

/-- The root of every interpreter that public calls lead to is an actor of its
machine, so it has recorded nothing while it has not started. -/
theorem Reachable.root_pristine {n : Nursery C E σ β} {i : Interpreter C E σ β} (h : Reachable n i) :
    i.root.Pristine := by
  obtain ⟨m, hm⟩ := (keeps_root_reachable n).reachable (fun m context clock hook options l => ⟨m, by
    rw [new_run]
    exact .new context⟩) h
  exact hm.pristine

end Interpreter

end Statechart
