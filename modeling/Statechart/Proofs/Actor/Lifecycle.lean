import Mathlib
import Statechart.Proofs.Actor.Interpreter
import Statechart.Proofs.Actor.Rollback
import Statechart.Script.World
/-!
# The life of an interpreter

Between two calls an interpreter is `Orderly`: a root that is done has stopped,
and a root that does not run has no live child, no pending timer and no queued
message. Every call keeps this, failing or not, and moves the root's status
only forward (`interpreter_lifecycle`). Inside a call the interpreter passes
through `Active` (after a successful macrostep of the root, which may be done)
and `Stepped` (just after a macrostep).

A message is queued only while the root runs, so the drain's branch for a
message to a root that is not running is never taken (`drain_of_not_running`).
-/
namespace Statechart

/-- How far along its life an actor is. -/
def ActorStatus.stage : ActorStatus → Nat
  | .notStarted => 0
  | .running => 1
  | .stopped => 2

theorem ActorStatus.stage_le_two (s : ActorStatus) : s.stage ≤ 2 := by
  cases s <;> decide

namespace Interpreter

variable {C E σ β : Type}

/-- What holds of an interpreter between two calls. -/
structure Orderly (i : Interpreter C E σ β) : Prop where
  keyed : i.system.registry.Keyed
  done : i.root.done = true → i.root.status = .stopped
  quiet : i.root.status ≠ .running → i.children = [] ∧ i.pendingTimers = 0 ∧ i.system.mailbox = []

/-- An orderly interpreter of root `r` whose root has come at least to stage `k`. -/
structure Steady (r : ActorRef) (k : Nat) (i : Interpreter C E σ β) : Prop where
  orderly : i.Orderly
  root : i.system.root = r
  stage : k ≤ i.root.status.stage

/-- A running root over a sound system; it may have become done. -/
structure Active (r : ActorRef) (k : Nat) (i : Interpreter C E σ β) : Prop where
  sound : System.Sound r i.system
  running : i.root.status = .running
  stage : k ≤ 1

theorem new_run (m : Machine C E σ) (context : C) (clock : Clock) (hook : Bool) (options : Options)
    (l : Ledger (Snapshot C)) :
    ((new m context clock hook options : Journal _ (Interpreter C E σ β)).run l).1 =
      { root := .new m context, system := .new ((Journal.fresh m.id).run l).1 clock hook options } :=
  rfl

theorem orderly_new (m : Machine C E σ) (context : C) (clock : Clock) (hook : Bool) (options : Options)
    (l : Ledger (Snapshot C)) :
    ((new m context clock hook options : Journal _ (Interpreter C E σ β)).run l).1.Orderly := by
  rw [new_run]
  exact ⟨Registry.keyed_ofRoot _, nofun, fun _ => ⟨Registry.children_ofRoot _, rfl, rfl⟩⟩

/-- A message is queued only for a running root. -/
theorem Orderly.running_of_mailbox {i : Interpreter C E σ β} (h : i.Orderly) {envelope : Envelope E}
    {rest : List (Envelope E)} (hm : i.system.mailbox = envelope :: rest) : i.root.status = .running := by
  by_contra hs
  have hempty := (h.quiet hs).2.2
  simp [hm] at hempty

/-- Draining an orderly interpreter whose root does not run finds the mailbox
empty and changes nothing. -/
theorem drain_of_not_running [Event E] (n : Nursery C E σ β) (fuel : Nat) {i : Interpreter C E σ β} (h : i.Orderly)
    (hs : i.root.status ≠ .running) (l : Ledger (Snapshot C)) :
    ((drain n fuel).run i).run l = ((.ok (), i), l) := by
  have hm : i.system.mailbox = [] := (h.quiet hs).2.2
  cases fuel with
  | zero =>
    rw [drain, run_bind, run_get]
    simp only [hm, List.isEmpty_nil, if_true]
    rfl
  | succ fuel =>
    rw [drain, run_bind, run_get]
    simp only [hm]
    rfl

section Steady

variable {r : ActorRef} {k : Nat} {i : Interpreter C E σ β}

/-- A running root with a sound system is steady once it is not done. -/
theorem Active.steady (h : Active r k i) (hd : i.root.done = false) : Steady r k i where
  orderly := ⟨h.sound.keyed, by simp [hd], fun hs => absurd h.running hs⟩
  root := h.sound.root
  stage := by simpa [h.running, ActorStatus.stage] using h.stage

namespace Steady

theorem sound (h : Steady r k i) : System.Sound r i.system := ⟨h.root, h.orderly.keyed⟩

theorem active (h : Steady r k i) (hs : i.root.status = .running) : Active r k i where
  sound := h.sound
  running := hs
  stage := by simpa [hs, ActorStatus.stage] using h.stage

/-- A steady interpreter may be shut down. -/
theorem ready (h : Steady r k i) : System.Sound r i.system ∧ k ≤ 2 :=
  ⟨h.sound, h.stage.trans (ActorStatus.stage_le_two _)⟩

theorem of_eq {i' : Interpreter C E σ β} (h : Steady r k i) (hdone : i'.root.done = i.root.done)
    (hstatus : i'.root.status = i.root.status) (hsys : i'.system = i.system) : Steady r k i' := by
  obtain ⟨⟨hk, hd, hq⟩, hr, hst⟩ := h
  refine ⟨⟨?_, ?_, ?_⟩, ?_, ?_⟩ <;> simp only [children, pendingTimers, hdone, hstatus, hsys] <;>
    assumption

theorem withClock (h : Steady r k i) (c : Clock) :
    Steady r k { i with system := { i.system with clock := c } } :=
  ⟨⟨h.orderly.keyed, h.orderly.done, h.orderly.quiet⟩, h.root, h.stage⟩

/-- While the root runs, any sound system keeps the interpreter steady. -/
theorem withSystem (h : Steady r k i) (hs : i.root.status = .running) {s : System β E}
    (hsound : System.Sound r s) : Steady r k { i with system := s } := by
  refine Active.steady ⟨hsound, hs, (h.active hs).stage⟩ ?_
  cases hd : i.root.done
  · rfl
  · simp [h.orderly.done hd] at hs

end Steady

end Steady

/-! ## Each call keeps the interpreter steady -/

section Specs

variable {r : ActorRef} {k : Nat}

/-- What a macrostep of the root leaves: steady after a failure, a running
root with commands to commit after a success. -/
def Stepped (r : ActorRef) (k : Nat) (res : Except RuntimeError (List (Command β E)))
    (i : Interpreter C E σ β) : Prop :=
  (∀ e, res = .error e → Steady r k i) ∧ (∀ cmds, res = .ok cmds → Active r k i)

/-- Starting the root: refused or failed, it is as it was but for its change
flag and history; entered, it runs. -/
theorem start_stepped (n : Nursery C E σ β) {i : Interpreter C E σ β} (h : Steady r k i) :
    Turn.Returns (i.root.start n.spawn) fun p => ∀ res : Except RuntimeError (List (Command β E)),
      res.map (fun _ => ()) = p.2 → Stepped r k res { i with root := p.1 } := by
  refine (MachineActor.start_returns n.spawn i.root).mono fun p ⟨herr, hok⟩ res hres => ⟨?_, ?_⟩
  · rintro e rfl
    rcases herr e hres.symm with ⟨-, hp⟩ | ⟨-, limit, hp⟩ <;> rw [hp] <;> exact h.of_eq rfl rfl rfl
  · rintro cmds rfl
    obtain ⟨hs, limit, next, -, hp⟩ := hok hres.symm
    refine ⟨h.sound, by rw [hp], ?_⟩
    have hk := h.stage
    simp only [hs, ActorStatus.stage, Nat.le_zero] at hk
    omega

theorem subscribe_steady : Spec (Steady r k) (subscribe : Run C E σ β Nat) fun _ => Steady r k := by
  unfold subscribe
  refine Spec.bind Spec.get fun _ => Spec.bind (Spec.set fun _ ⟨hi, h⟩ => ?_) fun _ => Spec.pure fun _ h => h
  subst hi
  exact h.of_eq rfl rfl rfl

theorem unsubscribe_steady (id : Nat) :
    Spec (Steady r k) (unsubscribe id : Run C E σ β Bool) fun _ => Steady r k := by
  unfold unsubscribe
  refine Spec.bind Spec.get fun _ => Spec.bind (Spec.set fun _ ⟨hi, h⟩ => ?_) fun _ => Spec.pure fun _ h => h
  subst hi
  exact h.of_eq rfl rfl rfl

theorem advance_steady (d : Duration) :
    Spec (Steady r k) (advance d : Run C E σ β Unit) fun _ => Steady r k :=
  Spec.modify fun _ h => h.withClock _

variable [Event E]

theorem shutdown_steady :
    Spec (fun i => System.Sound r i.system ∧ k ≤ 2) (shutdown : Run C E σ β Unit) fun _ => Steady r k := by
  unfold shutdown
  refine Spec.bind (R := fun _ i => Steady r k { i with root := i.root.stop })
    (sys_spec System.shutdown_quiets (fun _ h => h.1) fun i _ s hi hs => ?_) fun _ => Spec.modify fun _ h => h
  obtain ⟨hsound, hkids, htimers, hmail, -⟩ := hs
  refine ⟨⟨hsound.keyed, fun _ => rfl, fun _ => ⟨?_, ?_, hmail⟩⟩, hsound.root, hi.2⟩
  · simp only [children, hsound.root, hkids]
  · simp [pendingTimers, TimerQueue.size, htimers]

/-- After a macrostep of the root the tree is shut down exactly when the root
is done or was asked to stop; a root that goes on running is not done. -/
theorem finishRootStep_steady : Spec (Active r k) (finishRootStep : Run C E σ β Unit) fun _ => Steady r k := by
  unfold finishRootStep
  refine Spec.bind Spec.get fun i => ?_
  dsimp only
  split
  · refine Spec.bind (Spec.pre shutdown_steady fun _ h => ⟨h.2.sound, ?_⟩) fun _ => notify_keeps _
    have hk := h.2.stage
    omega
  · next hc =>
    refine Spec.pre (notify_keeps _) fun s ⟨hi, ha⟩ => ha.steady ?_
    subst hi
    simp only [Bool.or_eq_true, not_or, Bool.not_eq_true] at hc
    exact hc.1

theorem commitRoot_steady (n : Nursery C E σ β) (cmds : List (Command β E)) :
    Spec (Active r k) (commitRoot n cmds) fun _ => Steady r k := by
  unfold commitRoot
  refine Spec.bind Spec.get fun _ => ?_
  refine Spec.bind (R := fun _ => Active r k) (sys_spec (System.commit_sound _ _ _) (fun _ h => h.2.sound)
    fun _ _ _ h hs => ⟨hs, h.2.running, h.2.stage⟩) fun _ => ?_
  exact Spec.bind finishRootStep_steady fun _ => Spec.pure fun _ h => h

/-- A macrostep of a running root: on failure the root is as it was but for
its change flag, on success it still runs. -/
theorem receive_stepped (n : Nursery C E σ β) (event : E) {i : Interpreter C E σ β}
    (h : Steady r k i) (hs : i.root.status = .running) :
    Turn.Returns (i.root.receive n.spawn event) fun p => ∀ res : Except RuntimeError (List (Command β E)),
      res.map (fun _ => ()) = p.2 → Stepped r k res { i with root := p.1 } := by
  refine (MachineActor.receive_returns n.spawn i.root event).mono fun p ⟨herr, hok⟩ res hres => ⟨?_, ?_⟩
  · rintro e rfl
    rcases herr e hres.symm with ⟨hn, -⟩ | ⟨-, hp⟩
    · exact absurd hs hn
    · rw [hp]
      exact h.of_eq rfl rfl rfl
  · rintro cmds rfl
    obtain ⟨-, next, hn, hp⟩ := hok hres.symm
    refine ⟨h.sound, ?_, (h.active hs).stage⟩
    rw [hp]
    exact hn.status_eq.trans hs

/-- Draining keeps the interpreter steady, so every message taken finds the root running. -/
theorem drain_steady (n : Nursery C E σ β) (fuel : Nat) :
    Spec (Steady r k) (drain n fuel) fun _ => Steady r k := by
  induction fuel with
  | zero =>
    rw [drain]
    refine Spec.bind Spec.get fun _ => ?_
    split <;> exact Spec.pure fun _ h => h.2
  | succ fuel ih =>
    rw [drain]
    refine Spec.bind Spec.get fun i => ?_
    split
    · exact Spec.pure fun _ h => h.2
    · next envelope rest hm =>
      refine Spec.bind (R := fun _ s => Steady r k s ∧ s.root.status = .running)
        (Spec.set fun s h => ?_) fun _ => ?_
      · obtain ⟨rfl, h⟩ := h
        have hs := h.orderly.running_of_mailbox hm
        exact ⟨h.withSystem hs ⟨h.root, h.orderly.keyed⟩, hs⟩
      split
      · split
        · -- the message is for the root
          split
          · exact Spec.pre (ih) fun _ h => h.1
          · refine Spec.bind (onRoot_spec fun s h => receive_stepped n envelope.event h.1 h.2) fun res => ?_
            split
            · exact Spec.pure fun _ h => h.1 _ rfl
            · next cmds =>
              refine Spec.bind (Spec.pre (commitRoot_steady n cmds) fun _ h => h.2 _ rfl) fun _ => ?_
              split
              · exact Spec.pure fun _ h => h
              · exact ih
        · -- the message is for a child; the root may have been asked to stop
          refine Spec.bind (R := fun _ s => Steady r k s ∧ s.root.status = .running)
            (sys_spec (System.deliver_sound _ _ _) (fun _ h => h.1.sound)
              fun _ _ _ h hs => ⟨h.1.withSystem h.2 hs, h.2⟩) fun delivered => ?_
          refine Spec.bind (R := fun _ => Steady r k)
            (Spec.of_state takeRootStop_state fun _ _ h => h.1.withSystem h.2 ⟨h.1.root, h.1.orderly.keyed⟩)
            fun _ => ?_
          dsimp only
          split
          · refine Spec.bind (Spec.pre shutdown_steady fun _ h => h.ready) fun _ =>
              Spec.bind (notify_keeps _) fun _ => ?_
            split
            · exact Spec.pure fun _ h => h
            · exact ih
          · split
            · exact Spec.pure fun _ h => h
            · exact ih
      · refine Spec.bind (R := fun _ => Steady r k)
          (sys_spec (System.dropSend_keeps _ _ _ _) (fun _ h => h.1.sound)
            fun _ _ _ h hs => h.1.withSystem h.2 hs) fun _ => ih

theorem start_steady (n : Nursery C E σ β) : Spec (Steady r k) (start n) fun _ => Steady r k := by
  unfold start
  refine Spec.bind (onRoot_spec fun _ h => start_stepped n h) fun res => ?_
  split
  · exact Spec.pure fun _ h => h.1 _ rfl
  · next cmds =>
    refine Spec.bind (Spec.pre (commitRoot_steady n cmds) fun _ h => h.2 _ rfl) fun _ => ?_
    split
    · exact Spec.pure fun _ h => h
    · exact drain_steady n _

theorem send_steady (n : Nursery C E σ β) (event : E) :
    Spec (Steady r k) (send n event) fun _ => Steady r k := by
  unfold send
  refine Spec.bind Spec.get fun i => ?_
  split
  · exact Spec.pure fun _ h => h.2
  · split
    · exact Spec.pure fun _ h => h.2
    · next hs =>
      refine Spec.bind (R := fun _ => Steady r k)
        (sys_spec (System.enqueue_sound _ _ _) (fun _ h => h.2.sound) fun _ _ _ h hsys => ?_)
        fun _ => drain_steady n _
      obtain ⟨rfl, h⟩ := h
      exact h.withSystem (by simpa using hs) hsys

theorem stop_steady : Spec (Steady r k) (stop : Run C E σ β _) fun _ => Steady r k := by
  unfold stop
  refine Spec.bind Spec.get fun _ => ?_
  split
  · exact Spec.pure fun _ h => h.2
  · exact Spec.pure fun _ h => h.2
  · exact Spec.bind (Spec.pre shutdown_steady fun _ h => h.2.ready) fun _ => Spec.pure fun _ h => h

theorem processTimers_go_steady (n : Nursery C E σ β) (fuel fired : Nat) :
    Spec (Steady r k) (processTimers.go n fuel fired) fun _ => Steady r k := by
  induction fuel generalizing fired with
  | zero =>
    rw [processTimers.go]
    exact Spec.pure fun _ h => h
  | succ fuel ih =>
    rw [processTimers.go]
    refine Spec.bind Spec.get fun i => ?_
    split
    · exact Spec.pure fun _ h => h.2
    · next hs =>
      refine Spec.bind (R := fun _ => Steady r k)
        (sys_spec System.fireDue_sound (fun _ h => h.2.sound) fun _ _ _ h hsys => ?_) fun _ => ?_
      · obtain ⟨rfl, h⟩ := h
        exact h.withSystem (by simpa using hs) hsys
      split
      · exact Spec.pure fun _ h => h
      · refine Spec.bind (drain_steady n _) fun _ => ?_
        split
        · exact Spec.pure fun _ h => h
        · exact ih _

theorem processTimers_steady (n : Nursery C E σ β) :
    Spec (Steady r k) (processTimers n) fun _ => Steady r k :=
  Spec.bind Spec.get fun _ => Spec.pre (processTimers_go_steady n _ _) fun _ h => h.2

theorem runTimers_go_steady (n : Nursery C E σ β) (fuel : Nat) :
    Spec (Steady r k) (runTimers.go n fuel) fun _ => Steady r k := by
  induction fuel with
  | zero =>
    rw [runTimers.go]
    refine Spec.bind Spec.get fun _ => ?_
    split <;> exact Spec.pure fun _ h => h.2
  | succ fuel ih =>
    rw [runTimers.go]
    refine Spec.bind Spec.get fun i => ?_
    split
    · exact Spec.pure fun _ h => h.2
    · split
      · exact Spec.pure fun _ h => h.2
      · -- sleeping only moves the clock
        refine Spec.bind (R := fun _ => Steady r k) (Spec.set fun _ h => ?_) fun _ => ?_
        · obtain ⟨rfl, h⟩ := h
          exact h.withClock _
        refine Spec.bind (processTimers_steady n) fun _ => ?_
        split
        · exact Spec.pure fun _ h => h
        · exact ih

theorem runTimers_steady (n : Nursery C E σ β) :
    Spec (Steady r k) (runTimers n) fun _ => Steady r k :=
  runTimers_go_steady n _

end Specs

/-! ## Every run of public calls -/

/-- A public call of an interpreter, with its arguments. -/
inductive Call (E : Type) where
  | start
  | send (event : E)
  | stop
  | processTimers
  | runTimers
  | subscribe
  | unsubscribe (id : Nat)
  | advance (d : Duration)

variable [Event E]

def Call.perform (n : Nursery C E σ β) : Call E → Run C E σ β Unit
  | .start => do let _ ← Interpreter.start n
  | .send event => do let _ ← Interpreter.send n event
  | .stop => do let _ ← Interpreter.stop
  | .processTimers => do let _ ← Interpreter.processTimers n
  | .runTimers => do let _ ← Interpreter.runTimers n
  | .subscribe => do let _ ← Interpreter.subscribe
  | .unsubscribe id => do let _ ← Interpreter.unsubscribe id
  | .advance d => Interpreter.advance d

theorem Call.perform_steady {r : ActorRef} {k : Nat} (n : Nursery C E σ β) :
    ∀ c : Call E, Spec (Steady r k) (c.perform n) fun _ => Steady r k
  | .start => Spec.bind (start_steady n) fun _ => Spec.pure fun _ h => h
  | .send event => Spec.bind (send_steady n event) fun _ => Spec.pure fun _ h => h
  | .stop => Spec.bind stop_steady fun _ => Spec.pure fun _ h => h
  | .processTimers => Spec.bind (processTimers_steady n) fun _ => Spec.pure fun _ h => h
  | .runTimers => Spec.bind (runTimers_steady n) fun _ => Spec.pure fun _ h => h
  | .subscribe => Spec.bind subscribe_steady fun _ => Spec.pure fun _ h => h
  | .unsubscribe id => Spec.bind (unsubscribe_steady id) fun _ => Spec.pure fun _ h => h
  | .advance d => advance_steady d

/-- One call keeps an interpreter orderly and moves its root only forward. -/
theorem Orderly.perform {i : Interpreter C E σ β} (h : i.Orderly) (n : Nursery C E σ β) (c : Call E)
    (l : Ledger (Snapshot C)) :
    (((c.perform n).run i).run l).1.2.Orderly ∧
      i.root.status.stage ≤ (((c.perform n).run i).run l).1.2.root.status.stage :=
  let h' := c.perform_steady n i l ⟨h, rfl, le_rfl⟩
  ⟨h'.orderly, h'.stage⟩

/-- Interpreters that public calls lead to from a fresh one. -/
inductive Reachable (n : Nursery C E σ β) : Interpreter C E σ β → Prop
  | new (m : Machine C E σ) (context : C) (clock : Clock) (hook : Bool) (options : Options)
      (l : Ledger (Snapshot C)) : Reachable n ((Interpreter.new m context clock hook options).run l).1
  | call {i : Interpreter C E σ β} (c : Call E) (l : Ledger (Snapshot C)) :
      Reachable n i → Reachable n (((c.perform n).run i).run l).1.2

/-- The interpreter after the calls, in order, each with a fresh journal. -/
def afterCalls (n : Nursery C E σ β) (i : Interpreter C E σ β) (calls : List (Call E)) :
    Interpreter C E σ β :=
  calls.foldl (fun i c => (((c.perform n).run i).run {}).1.2) i

theorem Reachable.afterCalls {n : Nursery C E σ β} {i : Interpreter C E σ β} (h : Reachable n i) :
    ∀ calls, Reachable n (Interpreter.afterCalls n i calls)
  | [] => h
  | c :: calls => Reachable.afterCalls (.call c {} h) calls

theorem Reachable.orderly {n : Nursery C E σ β} {i : Interpreter C E σ β} (h : Reachable n i) :
    i.Orderly := by
  induction h with
  | new m context clock hook options l => exact orderly_new m context clock hook options l
  | call c l _ ih => exact (ih.perform n c l).1

/-- What holds of an interpreter between two calls. -/
structure Lifecycle (n : Nursery C E σ β) (i : Interpreter C E σ β) : Prop where
  /-- Whatever the next call and its outcome, the root's status only moves
  forward: not started, running, stopped. -/
  forward : ∀ c l, i.root.status.stage ≤ (((Call.perform n c).run i).run l).1.2.root.status.stage
  stopped_of_done : i.root.done = true → i.root.status = .stopped
  /-- A root that does not run has no live child, no pending timer and no message. -/
  quiet : i.root.status ≠ .running → i.children = [] ∧ i.pendingTimers = 0 ∧ i.system.mailbox = []
  /-- Refused calls change nothing, the journal included. -/
  refuses_restart : i.root.status = .running → ∀ l,
    ((start n).run i).run l = ((.error (.alreadyStarted i.system.root.name), i), l)
  refuses_when_stopped : i.root.status = .stopped → ∀ l,
    ((start n).run i).run l = ((.error i.notRunning, i), l) ∧
    (∀ event, ((send n event).run i).run l =
      ((if Event.eventType event = "" then .error .reservedEventType else .error i.notRunning, i), l)) ∧
    (stop.run i).run l = ((.ok (), i), l)
  refuses_before_start : i.root.status = .notStarted → ∀ l,
    (stop.run i).run l = ((.error i.notRunning, i), l) ∧
    ∀ event, Event.eventType event ≠ "" → ((send n event).run i).run l = ((.error i.notRunning, i), l)

theorem interpreter_lifecycle (n : Nursery C E σ β) {i : Interpreter C E σ β} (h : Reachable n i) :
    Lifecycle n i where
  forward c l := (h.orderly.perform n c l).2
  stopped_of_done := h.orderly.done
  quiet := h.orderly.quiet
  refuses_restart hs l := start_of_running n i hs l
  refuses_when_stopped hs l :=
    ⟨start_of_stopped n i hs l, fun event => send_of_not_running n i (by simp [hs]) event l,
      stop_of_stopped i hs l⟩
  refuses_before_start hs l := ⟨stop_of_notStarted i hs l, fun event he => by
    rw [send_of_not_running n i (by simp [hs]) event l, if_neg he]⟩

end Interpreter

/-- A machine that goes round three states on `NEXT`; in `a` it also takes a
targetless `STAY` and a `FAIL` whose guard fails. -/
def MachineBuilder.cycle : MachineBuilder Script.Context Script.Signal Script.ChildSpec :=
  { config :=
      { root :=
          { id := some "m"
            initial := some "a"
            states :=
              [("a", { on := [("NEXT", [{ target := some "b" }]), ("STAY", [{ actions := ["note"] }]),
                              ("FAIL", [{ target := some "c", guard := some "boom" }])] }),
               ("b", { on := [("NEXT", [{ target := some "c" }])] }),
               ("c", { on := [("NEXT", [{ target := some "a" }])] })] } }
    context := {}
    guards := [("boom", fun _ _ => .error "bad")]
    actions := [("note", .effect fun _ _ => ["noted"])] }

/-- A session of `cycle` with room for two records, after the first `k` of: a
start, three `NEXT`, a `STAY` and a refused `FAIL`. -/
def cycleSession (m : Script.ScriptMachine) (k : Nat) : Script.Session :=
  Interpreter.afterCalls (Script.nursery [])
    ((Interpreter.new m {} (.manual 0) false { historyLimit := 2 }).run {}).1
    ([.start, .send ⟨"NEXT", []⟩, .send ⟨"NEXT", []⟩, .send ⟨"NEXT", []⟩, .send ⟨"STAY", []⟩,
      .send ⟨"FAIL", []⟩].take k)

theorem cycleSession_reachable (m : Script.ScriptMachine) (k : Nat) :
    Interpreter.Reachable (Script.nursery []) (cycleSession m k) :=
  (Interpreter.Reachable.new m {} (.manual 0) false { historyLimit := 2 } {}).afterCalls _

/-- The cycle session still runs after all its calls, and keeps the rules of
an interpreter's life. -/
theorem cycle_session_lifecycle :
    ∃ m, MachineBuilder.cycle.build = .ok m ∧ (cycleSession m 6).root.status = .running ∧
      Interpreter.Reachable (Script.nursery []) (cycleSession m 6) ∧
      Interpreter.Lifecycle (Script.nursery []) (cycleSession m 6) := by
  have hrun : MachineBuilder.cycle.build.map (fun m => (cycleSession m 6).root.status) = .ok .running := by
    cbv
  cases hb : MachineBuilder.cycle.build with
  | ok m =>
    rw [hb] at hrun
    have h := cycleSession_reachable m 6
    exact ⟨m, rfl, Except.ok.inj hrun, h, Interpreter.interpreter_lifecycle _ h⟩
  | error e =>
    rw [hb] at hrun
    cases hrun

end Statechart
