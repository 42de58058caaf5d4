import Statechart.Proofs.Actor.Lifecycle
/-!
# Timers in key order

Pending timers wait in a list ordered by key: the due instant, then the number
the timer was given when scheduled. Scheduling inserts in order and everything
else only removes, so every interpreter calls lead to has an `Ordered` queue
(`Reachable.timers_ordered`). Within one call the clock stands still and a
delayed send is due strictly after now, so every pending timer was pending
before or is due later (`System.TimersSince`). Both are invariants that every
change a call makes keeps (`System.Durable`), so they hold across drains and
whole calls (`drain_durable`, `Reachable.durable`, `Later.durable`).
-/
namespace Statechart

namespace TimerQueue

variable {E : Type}

/-! ## Keys -/

theorem before_irrefl (k : Instant × Nat) : before k k = false := by
  simp [before]

theorem before_trans {a b c : Instant × Nat} (hab : before a b = true) (hbc : before b c = true) :
    before a c = true := by
  simp only [before, Bool.or_eq_true, decide_eq_true_eq, Bool.and_eq_true, beq_iff_eq] at *
  omega

theorem before_or_before {a b : Instant × Nat} (h : a.2 ≠ b.2) :
    before a b = true ∨ before b a = true := by
  simp only [before, Bool.or_eq_true, decide_eq_true_eq, Bool.and_eq_true, beq_iff_eq]
  omega

theorem nanos_le_of_before {a b : Instant × Nat} (h : before a b = true) : a.1.nanos ≤ b.1.nanos := by
  simp only [before, Bool.or_eq_true, decide_eq_true_eq, Bool.and_eq_true, beq_iff_eq] at h
  omega

/-! ## Ordered queues -/

/-- Keys strictly increase along the queue, and none is numbered past the
sequence. -/
structure Ordered (q : TimerQueue E) : Prop where
  sorted : q.timers.Pairwise fun a b => before a.1 b.1 = true
  numbered : ∀ x ∈ q.timers, x.1.2 ≤ q.sequence

theorem mem_insert (k : Instant × Nat) (t : Timer E) (y : (Instant × Nat) × Timer E)
    (xs : List ((Instant × Nat) × Timer E)) : y ∈ insert k t xs ↔ y = (k, t) ∨ y ∈ xs := by
  induction xs with
  | nil => simp [insert]
  | cons x rest ih =>
    obtain ⟨k', t'⟩ := x
    unfold insert
    split
    · simp
    · rw [List.mem_cons, ih, List.mem_cons]
      tauto

theorem pairwise_insert {k : Instant × Nat} (t : Timer E) {xs : List ((Instant × Nat) × Timer E)}
    (hs : xs.Pairwise fun a b => before a.1 b.1 = true)
    (hk : ∀ y ∈ xs, before k y.1 = true ∨ before y.1 k = true) :
    (insert k t xs).Pairwise fun a b => before a.1 b.1 = true := by
  induction xs with
  | nil => exact List.pairwise_singleton _ _
  | cons x rest ih =>
    obtain ⟨k', t'⟩ := x
    rw [List.pairwise_cons] at hs
    unfold insert
    split
    · next hlt =>
      refine List.Pairwise.cons (fun y hy => ?_) (List.Pairwise.cons hs.1 hs.2)
      rcases List.mem_cons.1 hy with rfl | hy
      · exact hlt
      · exact before_trans hlt (hs.1 y hy)
    · next hnlt =>
      -- the new key goes after `k'`, which then comes before it
      have hk' : before k' k = true := (hk _ List.mem_cons_self).resolve_left (by simpa using hnlt)
      refine List.Pairwise.cons (fun y hy => ?_) (ih hs.2 fun y hy => hk y (List.mem_cons_of_mem _ hy))
      rcases (mem_insert k t y rest).1 hy with rfl | hy
      · exact hk'
      · exact hs.1 y hy

/-- A timer scheduled on an ordered queue gets a key past every other. -/
theorem Ordered.schedule {q : TimerQueue E} (h : q.Ordered) (due : Instant) (t : Timer E) :
    (q.schedule due t).Ordered where
  sorted := pairwise_insert t h.sorted fun y hy => before_or_before (by
    have := h.numbered y hy
    dsimp only
    omega)
  numbered x hx := by
    rcases (mem_insert _ t x q.timers).1 hx with rfl | hx
    · exact le_rfl
    · exact Nat.le_succ_of_le (h.numbered x hx)

theorem Ordered.filter {q : TimerQueue E} (h : q.Ordered) (p : (Instant × Nat) × Timer E → Bool) :
    ({ q with timers := q.timers.filter p } : TimerQueue E).Ordered :=
  ⟨h.sorted.filter p, fun x hx => h.numbered x (List.mem_of_mem_filter hx)⟩

theorem ordered_clear (q : TimerQueue E) : ({ q with timers := [] } : TimerQueue E).Ordered :=
  ⟨.nil, fun _ hx => absurd hx List.not_mem_nil⟩

theorem Ordered.nodup {q : TimerQueue E} (h : q.Ordered) : q.timers.Nodup :=
  h.sorted.imp fun {a _} hab heq => by
    subst heq
    rw [before_irrefl] at hab
    exact Bool.false_ne_true hab

/-- The first timer of an ordered queue has the least key. -/
theorem Ordered.least {q : TimerQueue E} (h : q.Ordered) {x : (Instant × Nat) × Timer E}
    {rest : List ((Instant × Nat) × Timer E)} (hq : q.timers = x :: rest) :
    ∀ y ∈ rest, before x.1 y.1 = true := by
  have hs := h.sorted
  rw [hq, List.pairwise_cons] at hs
  exact hs.1

theorem popDue_eq_some {q q' : TimerQueue E} {now : Instant} {t : Timer E}
    (h : q.popDue now = some (t, q')) :
    ∃ k rest, q.timers = (k, t) :: rest ∧ k.1.nanos ≤ now.nanos ∧ q' = { q with timers := rest } := by
  unfold popDue at h
  split at h
  · next due seq t' rest hq =>
    split at h
    · next hdue =>
      cases h
      exact ⟨(due, seq), rest, hq, hdue, rfl⟩
    · cases h
  · cases h

theorem Ordered.of_cons {q : TimerQueue E} (h : q.Ordered) {x : (Instant × Nat) × Timer E}
    {rest : List ((Instant × Nat) × Timer E)} (hq : q.timers = x :: rest) :
    ({ q with timers := rest } : TimerQueue E).Ordered := by
  have hs := h.sorted
  rw [hq, List.pairwise_cons] at hs
  exact ⟨hs.2, fun y hy => h.numbered y (hq ▸ List.mem_cons_of_mem _ hy)⟩

theorem Ordered.popDue {q q' : TimerQueue E} (h : q.Ordered) {now : Instant} {t : Timer E}
    (hp : q.popDue now = some (t, q')) : q'.Ordered := by
  obtain ⟨k, rest, hq, -, rfl⟩ := popDue_eq_some hp
  exact h.of_cons hq

/-- With nothing to fire from an ordered queue, no pending timer is due. -/
theorem Ordered.not_due_of_popDue {q : TimerQueue E} (h : q.Ordered) {now : Instant}
    (hp : q.popDue now = none) : ∀ x ∈ q.timers, now.nanos < x.1.1.nanos := by
  unfold TimerQueue.popDue at hp
  split at hp
  · next due seq t rest hq =>
    split at hp
    · cases hp
    · next hlate =>
      intro x hx
      rw [hq] at hx
      rcases List.mem_cons.1 hx with rfl | hx
      · exact Nat.lt_of_not_le hlate
      · exact Nat.lt_of_lt_of_le (Nat.lt_of_not_le hlate) (nanos_le_of_before (h.least hq x hx))
  · next hq =>
    intro x hx
    rw [hq] at hx
    exact absurd hx List.not_mem_nil

end TimerQueue

theorem Clock.now_lt_of_due {c : Clock} {d : Duration} {due : Instant} (h : c.due? d = some due)
    (hd : d.isZero = false) : c.now.nanos < due.nanos := by
  unfold Clock.due? at h
  split at h
  · cases h
    simp only [Duration.isZero, beq_eq_false_iff_ne, ne_eq] at hd
    show c.now.nanos < c.now.nanos + d.nanos
    omega
  · cases h

namespace System

variable {ν β E : Type}

/-! ## Invariants across calls -/

/-- An invariant of systems kept by every change a call makes to the system, the
clock's apart: each primitive change of a commit, storing an instance, a
shutdown, firing a timer and changes of the mailbox. -/
structure Durable [Event E] (ν : Type) (P : System β E → Prop) : Prop where
  kept : Kept (ν := ν) P
  putCell : ∀ s id cell, P s → P (s.putCell id cell)
  shutdown : Spec P (shutdown : Sys ν β E Unit) fun _ => P
  fireDue : Spec P (fireDue : Sys ν β E Bool) fun _ => P
  mailbox : ∀ s mailbox, P s → P { s with mailbox }
  rootStop : ∀ s, P s → P { s with rootStopRequested := false }

/-! ## Timers since a moment -/

/-- Since `s₀`, the clock has not moved and every pending timer was pending
in `s₀` or is due after `s₀`'s reading of the clock. -/
structure TimersSince (s₀ s : System β E) : Prop where
  clock : s.clock = s₀.clock
  timers : ∀ x ∈ s.timers.timers, x ∈ s₀.timers.timers ∨ s₀.clock.now.nanos < x.1.1.nanos

namespace TimersSince

theorem refl (s : System β E) : TimersSince s s :=
  ⟨rfl, fun _ hx => .inl hx⟩

theorem trans {s₀ s₁ s₂ : System β E} (h₁ : TimersSince s₀ s₁) (h₂ : TimersSince s₁ s₂) :
    TimersSince s₀ s₂ where
  clock := h₂.clock.trans h₁.clock
  timers x hx := by
    rcases h₂.timers x hx with hx | hlate
    · exact h₁.timers x hx
    · rw [h₁.clock] at hlate
      exact .inr hlate

theorem of_subset {s s' : System β E} (hc : s'.clock = s.clock)
    (ht : ∀ x ∈ s'.timers.timers, x ∈ s.timers.timers) : TimersSince s s' :=
  ⟨hc, fun x hx => .inl (ht x hx)⟩

/-- A timer due strictly after now is a timer later than every moment of the call. -/
theorem schedule (s : System β E) {due : Instant} (hdue : s.clock.now.nanos < due.nanos) (t : Timer E) :
    TimersSince s { s with timers := s.timers.schedule due t } where
  clock := rfl
  timers x hx := by
    rcases (TimerQueue.mem_insert _ t x s.timers.timers).1 hx with rfl | hx
    · exact .inr hdue
    · exact .inl hx

end TimersSince

theorem stopActor_since (id : ActorId) (s : System β E) (l : Ledger ν) :
    TimersSince s (((stopActor id : Sys ν β E Unit).run s).run l).1.2 := by
  rw [stopActor_state]
  exact .of_subset rfl fun _ hx => List.mem_of_mem_filter hx

theorem fireDue_since (s : System β E) (l : Ledger ν) :
    TimersSince s (((fireDue : Sys ν β E Bool).run s).run l).1.2 := by
  rw [fireDue_run]
  split
  · next t q hp =>
    obtain ⟨k, rest, hq, -, rfl⟩ := TimerQueue.popDue_eq_some hp
    exact .of_subset rfl fun x hx => hq ▸ List.mem_cons_of_mem _ hx
  · exact .refl s

variable [Event E]

theorem shutdown_since (s : System β E) (l : Ledger ν) :
    TimersSince s (((shutdown : Sys ν β E Unit).run s).run l).1.2 := by
  rw [shutdown_state]
  exact .of_subset rfl fun _ hx => absurd hx List.not_mem_nil

/-- A send puts no timer due now: a zero delay is queued at once, and any
other is due strictly after now. -/
theorem commitSend_since (origin : ActorId) (target : Target) (event : E) (delay : Option Duration)
    (s : System β E) (l : Ledger ν) :
    TimersSince s (((commitSend origin target event delay : Sys ν β E Unit).run s).run l).1.2 := by
  unfold commitSend
  rw [run_bind, run_get]
  split
  · rw [dropSend_state]
    exact .refl s
  · split
    · next d hd =>
      split
      · next due hdue =>
        have hz : d.isZero = false := by simpa using (Option.filter_eq_some_iff.1 hd).2
        exact TimersSince.schedule s (Clock.now_lt_of_due hdue hz) _
      · rw [dropSend_state]
        exact .refl s
    · rw [enqueue_state]
      exact .of_subset rfl fun _ hx => hx

/-- The timers since `s₀` stay so through every change a call makes, the
clock's apart. -/
theorem durable_since (s₀ : System β E) : Durable ν (TimersSince s₀) where
  kept :=
    { send := fun origin target event delay s l h => h.trans (commitSend_since origin target event delay s l)
      stop := fun origin target s l h => by
        rcases commitStop_state origin target s l with hs | ⟨id, -, hs⟩ | hs <;> rw [hs]
        · exact ⟨h.clock, h.timers⟩
        · exact h.trans (stopActor_since id s l)
        · exact h
      spawn := fun _ _ _ _ _ h _ => ⟨h.clock, h.timers⟩
      stopActor := fun id s l h => h.trans (stopActor_since id s l) }
  putCell _ _ _ h := ⟨h.clock, h.timers⟩
  shutdown s l h := h.trans (shutdown_since s l)
  fireDue s l h := h.trans (fireDue_since s l)
  mailbox _ _ h := ⟨h.clock, h.timers⟩
  rootStop _ h := ⟨h.clock, h.timers⟩

/-- Every change a call makes to the system, the clock's included, keeps its
queue ordered. -/
theorem durable_ordered : Durable ν fun s : System β E => s.timers.Ordered where
  kept :=
    { send := fun origin target event delay s l h => by
        rcases commitSend_state origin target event delay s l with hs | ⟨_, due, hs⟩ | ⟨_, hs⟩ <;>
          rw [hs]
        · exact h
        · exact h.schedule due _
        · exact h
      stop := fun origin target s l h => by
        rcases commitStop_state origin target s l with hs | ⟨id, -, hs⟩ | hs <;> rw [hs]
        · exact h
        · rw [stopActor_state]
          exact h.filter _
        · exact h
      spawn := fun _ _ _ _ _ h _ => h
      stopActor := fun id s l h => by
        rw [stopActor_state]
        exact h.filter _ }
  putCell _ _ _ h := h
  shutdown s l _ := by
    rw [shutdown_state]
    exact TimerQueue.ordered_clear _
  fireDue s l h := by
    rw [fireDue_run]
    split
    · next hp => exact h.popDue hp
    · exact h
  mailbox _ _ h := h
  rootStop _ h := h

end System

namespace Interpreter

variable {C E σ β : Type} [Event E]

/-- Interpreters that public calls lead to from `i`. -/
inductive Later (n : Nursery C E σ β) (i : Interpreter C E σ β) : Interpreter C E σ β → Prop
  | refl : Later n i i
  | call {j : Interpreter C E σ β} (c : Call E) (l : Ledger (Snapshot C)) :
      Later n i j → Later n i (((c.perform n).run j).run l).1.2

theorem Reachable.later {n : Nursery C E σ β} {i j : Interpreter C E σ β} (hi : Reachable n i)
    (h : Later n i j) : Reachable n j := by
  induction h with
  | refl => exact hi
  | call c l _ ih => exact .call c l ih

/-! ## Durable invariants across calls -/

section Durable

variable {P : System β E → Prop} (hP : System.Durable (Snapshot C) P)
include hP

theorem shutdown_durable :
    Spec (fun i => P i.system) (shutdown : Run C E σ β Unit) fun _ i => P i.system :=
  Spec.bind (sys_spec hP.shutdown (fun _ h => h) fun _ _ _ _ h => h) fun _ => Spec.modify fun _ h => h

theorem finishRootStep_durable :
    Spec (fun i => P i.system) (finishRootStep : Run C E σ β Unit) fun _ i => P i.system := by
  unfold finishRootStep
  refine Spec.bind Spec.get fun _ => ?_
  split
  · exact Spec.bind (Spec.pre (shutdown_durable hP) fun _ h => h.2) fun _ => notify_keeps _
  · exact Spec.pre (notify_keeps _) fun _ h => h.2

theorem commitRoot_durable (n : Nursery C E σ β) (cmds : List (Command β E)) :
    Spec (fun i => P i.system) (commitRoot n cmds) fun _ i => P i.system := by
  unfold commitRoot
  refine Spec.bind Spec.get fun _ => ?_
  refine Spec.bind (R := fun _ i => P i.system) (sys_spec (System.commit_keeps _ hP.kept _ _)
    (fun _ h => h.2) fun _ _ _ _ h => h) fun _ => ?_
  exact Spec.bind (finishRootStep_durable hP) fun _ => Spec.pure fun _ h => h

omit hP [Event E] in
theorem onRoot_system
    (step : MachineActor C E σ → Turn (Snapshot C) β E (MachineActor C E σ × Except RuntimeError Unit))
    (Q : System β E → Prop) : Spec (fun i => Q i.system) (onRoot step) fun _ i => Q i.system := by
  intro i l h
  rw [onRoot_run]
  exact h

theorem drain_durable (n : Nursery C E σ β) (fuel : Nat) :
    Spec (fun i => P i.system) (drain n fuel) fun _ i => P i.system := by
  induction fuel with
  | zero =>
    rw [drain]
    refine Spec.bind Spec.get fun _ => ?_
    split <;> exact Spec.pure fun _ h => h.2
  | succ fuel ih =>
    rw [drain]
    refine Spec.bind Spec.get fun _ => ?_
    split
    · exact Spec.pure fun _ h => h.2
    · next envelope rest _ =>
      refine Spec.bind (R := fun _ i => P i.system) (Spec.set fun _ h => ?_) fun _ => ?_
      · obtain ⟨rfl, h⟩ := h
        exact hP.mailbox _ rest h
      split
      · split
        · -- the message is for the root
          split
          · exact ih
          · refine Spec.bind (onRoot_system _ P) fun _ => ?_
            split
            · exact Spec.pure fun _ h => h
            · refine Spec.bind (commitRoot_durable hP n _) fun _ => ?_
              split
              · exact Spec.pure fun _ h => h
              · exact ih
        · -- the message is for a child; the root may have been asked to stop
          refine Spec.bind (R := fun _ i => P i.system) (sys_spec (System.deliver_keeps _ hP.kept
            (fun s id cell h _ => hP.putCell s id cell h) _ _) (fun _ h => h) fun _ _ _ _ h => h)
            fun _ => ?_
          refine Spec.bind (R := fun _ i => P i.system)
            (Spec.of_state takeRootStop_state fun _ _ h => hP.rootStop _ h) fun _ => ?_
          dsimp only
          split
          · refine Spec.bind (shutdown_durable hP) fun _ => Spec.bind (notify_keeps _) fun _ => ?_
            split
            · exact Spec.pure fun _ h => h
            · exact ih
          · split
            · exact Spec.pure fun _ h => h
            · exact ih
      · exact Spec.bind (R := fun _ i => P i.system)
          (sys_spec (System.dropSend_keeps _ _ _ _) (fun _ h => h) fun _ _ _ _ h => h) fun _ => ih

theorem start_durable (n : Nursery C E σ β) :
    Spec (fun i => P i.system) (start n) fun _ i => P i.system := by
  unfold start
  refine Spec.bind (onRoot_system _ P) fun _ => ?_
  split
  · exact Spec.pure fun _ h => h
  · refine Spec.bind (commitRoot_durable hP n _) fun _ => ?_
    split
    · exact Spec.pure fun _ h => h
    · exact drain_durable hP n _

theorem send_durable (n : Nursery C E σ β) (event : E) :
    Spec (fun i => P i.system) (send n event) fun _ i => P i.system := by
  unfold send
  refine Spec.bind Spec.get fun _ => ?_
  split
  · exact Spec.pure fun _ h => h.2
  · split
    · exact Spec.pure fun _ h => h.2
    · refine Spec.bind (R := fun _ i => P i.system) (sys_spec (Spec.of_state (System.enqueue_state _ _ _)
        fun _ s h => hP.mailbox s _ h) (fun _ h => h.2) fun _ _ _ _ h => h) fun _ => ?_
      exact drain_durable hP n _

theorem stop_durable : Spec (fun i => P i.system) (stop : Run C E σ β _) fun _ i => P i.system := by
  unfold stop
  refine Spec.bind Spec.get fun _ => ?_
  split
  · exact Spec.pure fun _ h => h.2
  · exact Spec.pure fun _ h => h.2
  · exact Spec.bind (Spec.pre (shutdown_durable hP) fun _ h => h.2) fun _ => Spec.pure fun _ h => h

theorem processTimers_go_durable (n : Nursery C E σ β) (fuel fired : Nat) :
    Spec (fun i => P i.system) (processTimers.go n fuel fired) fun _ i => P i.system := by
  induction fuel generalizing fired with
  | zero =>
    rw [processTimers.go]
    exact Spec.pure fun _ h => h
  | succ fuel ih =>
    rw [processTimers.go]
    refine Spec.bind Spec.get fun _ => ?_
    split
    · exact Spec.pure fun _ h => h.2
    · refine Spec.bind (R := fun _ i => P i.system) (sys_spec hP.fireDue (fun _ h => h.2)
        fun _ _ _ _ h => h) fun _ => ?_
      split
      · exact Spec.pure fun _ h => h
      · refine Spec.bind (drain_durable hP n _) fun _ => ?_
        split
        · exact Spec.pure fun _ h => h
        · exact ih _

theorem processTimers_durable (n : Nursery C E σ β) :
    Spec (fun i => P i.system) (processTimers n) fun _ i => P i.system :=
  Spec.bind Spec.get fun _ => Spec.pre (processTimers_go_durable hP n _ _) fun _ h => h.2

variable (hclock : ∀ s c, P s → P { s with clock := c })
include hclock

theorem runTimers_go_durable (n : Nursery C E σ β) (fuel : Nat) :
    Spec (fun i => P i.system) (runTimers.go n fuel) fun _ i => P i.system := by
  induction fuel with
  | zero =>
    rw [runTimers.go]
    refine Spec.bind Spec.get fun _ => ?_
    split <;> exact Spec.pure fun _ h => h.2
  | succ fuel ih =>
    rw [runTimers.go]
    refine Spec.bind Spec.get fun _ => ?_
    split
    · exact Spec.pure fun _ h => h.2
    · split
      · exact Spec.pure fun _ h => h.2
      · refine Spec.bind (R := fun _ i => P i.system) (Spec.set fun _ h => ?_) fun _ => ?_
        · obtain ⟨rfl, h⟩ := h
          exact hclock _ _ h
        refine Spec.bind (processTimers_durable hP n) fun _ => ?_
        split
        · exact Spec.pure fun _ h => h
        · exact ih

theorem Call.perform_durable (n : Nursery C E σ β) :
    ∀ c : Call E, Spec (fun i => P i.system) (c.perform n) fun _ i => P i.system
  | .start => Spec.bind (start_durable hP n) fun _ => Spec.pure fun _ h => h
  | .send event => Spec.bind (send_durable hP n event) fun _ => Spec.pure fun _ h => h
  | .stop => Spec.bind (stop_durable hP) fun _ => Spec.pure fun _ h => h
  | .processTimers => Spec.bind (processTimers_durable hP n) fun _ => Spec.pure fun _ h => h
  | .runTimers => Spec.bind (runTimers_go_durable hP hclock n _) fun _ => Spec.pure fun _ h => h
  | .subscribe => by
    unfold Call.perform Interpreter.subscribe
    exact Spec.bind (Spec.bind Spec.get fun _ => Spec.bind (Spec.set fun _ h => h.1 ▸ h.2) fun _ =>
      Spec.pure fun _ h => h) fun _ => Spec.pure fun _ h => h
  | .unsubscribe id => by
    unfold Call.perform Interpreter.unsubscribe
    exact Spec.bind (Spec.bind Spec.get fun _ => Spec.bind (Spec.set fun _ h => h.1 ▸ h.2) fun _ =>
      Spec.pure fun _ h => h) fun _ => Spec.pure fun _ h => h
  | .advance _ => Spec.modify fun _ h => hclock _ _ h

/-- A durable invariant of fresh systems that the clock's moves keep too holds
of every interpreter calls lead to. -/
theorem Reachable.durable
    (hnew : ∀ root clock hook options, P (System.new root clock hook options))
    {n : Nursery C E σ β} {i : Interpreter C E σ β} (h : Reachable n i) : P i.system := by
  induction h with
  | new m context clock hook options l =>
    rw [new_run]
    exact hnew _ clock hook options
  | call c l _ ih => exact Call.perform_durable hP hclock n c _ l ih

/-- Such an invariant, holding of an interpreter, holds at every later call
boundary. -/
theorem Later.durable {n : Nursery C E σ β} {i j : Interpreter C E σ β} (h : Later n i j)
    (hi : P i.system) : P j.system := by
  induction h with
  | refl => exact hi
  | call c l _ ih => exact Call.perform_durable hP hclock n c _ l ih

end Durable

/-- Every interpreter that public calls lead to keeps its timers in key order. -/
theorem Reachable.timers_ordered {n : Nursery C E σ β} {i : Interpreter C E σ β} (h : Reachable n i) :
    i.system.timers.Ordered :=
  Reachable.durable System.durable_ordered (fun _ _ h => h)
    (fun _ _ _ _ => ⟨.nil, fun _ hx => absurd hx List.not_mem_nil⟩) h

end Interpreter

end Statechart
