import Mathlib
import Statechart.Proofs.Actor.TimerRounds
import Statechart.Proofs.Actor.RegistryTree
import Statechart.Script.World
/-!
# Timers do not outlive their origin

Stopping an actor drops the timers of every actor it removes, and a shutdown
drops them all (`stopping_cancels_timers`). Measured from any moment `s₀`, a
timer pending then with a registered origin keeps a registered origin while it
stays pending (`OriginsSince`); every change a call makes keeps this
(`durable_origins`), so it holds across calls (`pending_timers_keep_origins`).

Commands are committed in order, though, and a send does not ask whether its
sender is live: an actor that stops itself and then sends with a delay leaves a
timer whose origin is gone (`stop_then_delayed_send_leaves_timer`).
-/
namespace Statechart

namespace TimerQueue

variable {E : Type}

theorem Ordered.not_mem_schedule {q₀ q : TimerQueue E} (h₀ : q₀.Ordered) (hseq : q₀.sequence ≤ q.sequence)
    (due : Instant) (t : Timer E) : ((due, q.sequence + 1), t) ∉ q₀.timers := fun hx => by
  have hle : q.sequence + 1 ≤ q₀.sequence := h₀.numbered _ hx
  omega

end TimerQueue

namespace System

variable {ν β E : Type}

/-- Stopping an actor drops exactly the pending timers of the actors it
removes; shutting down drops them all. -/
theorem stopping_cancels_timers [Event E] (s : System β E) (id : ActorId) (l : Ledger ν) :
    (∀ t, t ∈ (((stopActor id : Sys ν β E Unit).run s).run l).1.2.timers.timers ↔
      t ∈ s.timers.timers ∧ ∀ a ∈ (s.registry.removeSubtree id).2, a.id ≠ t.2.origin) ∧
    (((shutdown : Sys ν β E Unit).run s).run l).1.2.timers.timers = [] := by
  refine ⟨fun t => ?_, ?_⟩
  · rw [stopActor_state]
    simp only [without, List.mem_filter, Registry.outside_iff]
  · rw [shutdown_state]

/-! ## Origins since a moment -/

/-- Since `s₀`, the queue has numbered no fewer timers, and every timer
pending both then, from a registered actor, and now is from an actor that is
still registered. -/
structure OriginsSince (s₀ s : System β E) : Prop where
  sequence : s₀.timers.sequence ≤ s.timers.sequence
  origins : ∀ x ∈ s.timers.timers, x ∈ s₀.timers.timers → s₀.registry.contains x.2.origin = true →
    s.registry.contains x.2.origin = true

namespace OriginsSince

variable {s₀ s s' : System β E}

theorem refl (s : System β E) : OriginsSince s s :=
  ⟨le_rfl, fun _ _ _ h => h⟩

/-- Work that keeps the numbering and only drops timers, keeping their origins registered. -/
theorem drop (h : OriginsSince s₀ s) (hseq : s.timers.sequence = s'.timers.sequence)
    (ht : ∀ x ∈ s'.timers.timers, x ∈ s.timers.timers ∧
      (s.registry.contains x.2.origin = true → s'.registry.contains x.2.origin = true)) :
    OriginsSince s₀ s' where
  sequence := hseq ▸ h.sequence
  origins x hx hx₀ hc := (ht x hx).2 (h.origins x (ht x hx).1 hx₀ hc)

theorem schedule (h₀ : s₀.timers.Ordered) (h : OriginsSince s₀ s) (due : Instant) (t : Timer E) :
    OriginsSince s₀ { s with timers := s.timers.schedule due t } where
  sequence := Nat.le_succ_of_le h.sequence
  origins x hx hx₀ hc := by
    rcases (TimerQueue.mem_insert _ t x s.timers.timers).1 hx with rfl | hx
    · exact absurd hx₀ (h₀.not_mem_schedule h.sequence due t)
    · exact h.origins x hx hx₀ hc

end OriginsSince

theorem stopActor_origins (id : ActorId) (s : System β E) (l : Ledger ν) {s₀ : System β E}
    (h : OriginsSince s₀ s) : OriginsSince s₀ (((stopActor id : Sys ν β E Unit).run s).run l).1.2 := by
  rw [stopActor_state]
  refine h.drop rfl fun x hx => ?_
  obtain ⟨hx, hout⟩ := List.mem_filter.1 hx
  refine ⟨hx, fun hc => ?_⟩
  simp only [without_registry, Registry.contains_removeSubtree, hout, hc, Bool.and_self]

variable [Event E]

/-- Every change a call makes to the system, the clock's included, keeps the
origins since any moment whose queue is ordered. -/
theorem durable_origins (s₀ : System β E) (h₀ : s₀.timers.Ordered) : Durable ν (OriginsSince s₀) where
  kept :=
    { send := fun origin target event delay s l h => by
        rcases commitSend_state origin target event delay s l with hs | ⟨_, due, hs⟩ | ⟨_, hs⟩ <;>
          rw [hs]
        · exact h
        · exact h.schedule h₀ due _
        · exact ⟨h.sequence, h.origins⟩
      stop := fun origin target s l h => by
        rcases commitStop_state origin target s l with hs | ⟨id, -, hs⟩ | hs <;> rw [hs]
        · exact ⟨h.sequence, h.origins⟩
        · exact stopActor_origins id s l h
        · exact h
      spawn := fun _ _ _ registry _ h hreg => h.drop rfl fun _ hx => ⟨hx, fun hc => by
        show registry.contains _ = true
        rw [Registry.contains_register hreg, hc, Bool.true_or]⟩
      stopActor := fun id s l h => stopActor_origins id s l h }
  putCell _ _ _ h := ⟨h.sequence, h.origins⟩
  shutdown s l h := by
    rw [shutdown_state]
    exact h.drop rfl fun _ hx => absurd hx List.not_mem_nil
  fireDue s l h := by
    rw [fireDue_run]
    split
    · next hp =>
      obtain ⟨k, rest, hq, -, rfl⟩ := TimerQueue.popDue_eq_some hp
      exact h.drop rfl fun x hx => ⟨hq ▸ List.mem_cons_of_mem _ hx, fun hc => hc⟩
    · exact h
  mailbox _ _ h := ⟨h.sequence, h.origins⟩
  rootStop _ h := ⟨h.sequence, h.origins⟩

end System

namespace Interpreter

variable {C E σ β : Type} [Event E]

/-- Between call boundaries, a timer pending with a registered origin keeps a
registered origin while it stays pending; no timer is pending once the root
stops. -/
theorem pending_timers_keep_origins (n : Nursery C E σ β) {i j : Interpreter C E σ β}
    (hi : Reachable n i) (hj : Later n i j) :
    (j.root.status ≠ .running → j.system.timers.timers = []) ∧
    ∀ x ∈ j.system.timers.timers, x ∈ i.system.timers.timers →
      i.system.registry.contains x.2.origin = true → j.system.registry.contains x.2.origin = true := by
  refine ⟨fun hrun => List.eq_nil_of_length_eq_zero ((hi.later hj).orderly.quiet hrun).2.1, ?_⟩
  -- measured from `i`, whose queue is ordered, through every later call
  exact (hj.durable (System.durable_origins i.system hi.timers_ordered)
    (fun _ _ h => ⟨h.sequence, h.origins⟩) (System.OriginsSince.refl i.system)).origins

end Interpreter

/-- Processing the due timers of `timedSession` leaves `Z` pending from the
root, which is still registered. -/
theorem timedSession_keeps_timer_origins :
    ∃ m, timedMachine.build = .ok m ∧
      let i := timedSession m
      let j := (((Interpreter.Call.processTimers.perform (Script.nursery [])).run i).run {}).1.2
      Interpreter.Reachable (Script.nursery []) i ∧ Interpreter.Later (Script.nursery []) i j ∧
      j.root.status = .running ∧
      (∃ x ∈ j.system.timers.timers, x ∈ i.system.timers.timers ∧
        i.system.registry.contains x.2.origin = true) ∧
      (j.root.status ≠ .running → j.system.timers.timers = []) ∧
      ∀ x ∈ j.system.timers.timers, x ∈ i.system.timers.timers →
        i.system.registry.contains x.2.origin = true → j.system.registry.contains x.2.origin = true := by
  have hrun : timedMachine.build.map (fun m =>
      let i := timedSession m
      let j := (((Interpreter.Call.processTimers.perform (Script.nursery [])).run i).run {}).1.2
      (j.root.status, j.system.timers.timers.getLast?,
        i.system.timers.timers.getLast?.map fun x => i.system.registry.contains x.2.origin)) =
      timedMachine.build.map (fun m => (.running, (timedSession m).system.timers.timers.getLast?, some true)) := by
    cbv
  have hok : timedMachine.build.isOk = true := by cbv
  cases hb : timedMachine.build with
  | ok m =>
    rw [hb] at hrun
    simp only [Except.map, Except.ok.injEq, Prod.mk.injEq] at hrun
    obtain ⟨hstatus, hlast, horigin⟩ := hrun
    -- `Z` is the last timer both before and after the round
    obtain ⟨x, hx, hcontains⟩ := Option.map_eq_some_iff.1 horigin
    have hreach : Interpreter.Reachable (Script.nursery []) (timedSession m) :=
      .call (.advance ⟨5⟩) {} (.call .start {} (.new m {} (.manual 0) false {} {}))
    have hlater := Interpreter.Later.call (n := Script.nursery []) .processTimers {} (.refl (i := timedSession m))
    exact ⟨m, rfl, hreach, hlater, hstatus,
      ⟨x, List.mem_of_getLast? (hlast.trans hx), List.mem_of_getLast? hx, hcontains⟩,
      Interpreter.pending_timers_keep_origins _ hreach hlater⟩
  | error e =>
    rw [hb] at hok
    cases hok

/-- A child that stops itself and then sends to itself after a delay: the
send is still put on a timer, whose origin is no longer registered. -/
theorem stop_then_delayed_send_leaves_timer :
    let s : System Script.Cell Script.Signal :=
      { System.new ⟨0, "m"⟩ (.manual 0) false {} with
        registry := { entries := [(0, { actor := ⟨0, "m"⟩, parent := none, children := [("c", 1)] }),
                                  (1, { actor := ⟨1, "c"⟩, parent := some 0 })] } }
    let s' := (((System.commit (Script.nursery []).behaviour 1
      [.stop .itself, .send .itself ⟨"T", []⟩ (some (Duration.ofMillis 500))]).run s).run {}).1.2
    s'.registry.contains 1 = false ∧ s'.timers.timers.map (·.2.origin) = [1] := by
  decide

end Statechart
