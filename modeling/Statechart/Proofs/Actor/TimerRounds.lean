import Mathlib
import Statechart.Proofs.Actor.TimerOrder
/-!
# Firing due timers

Processing timers fires them one round at a time while the root runs: each
round takes the least pending timer out of the queue if it is due, queues its
message last and drains the mailbox (`TimerRounds`, `processTimers_rounds`).

The clock stands still through the call and a timer scheduled meanwhile is due
strictly later (`System.TimersSince`), so the timers that fire were pending and
due when the call began, fire in key order, and are at most those due at the
start (`processTimers_fires_due_timers`). The loop's fuel, one more than the
pending timers, is never what stops it.
-/
namespace Statechart

namespace TimerQueue

variable {E : Type}

/-- The pending timers due at `now`. -/
def dueAt (q : TimerQueue E) (now : Instant) : List ((Instant × Nat) × Timer E) :=
  q.timers.filter fun x => x.1.1.nanos ≤ now.nanos

theorem mem_dueAt {q : TimerQueue E} {now : Instant} {x : (Instant × Nat) × Timer E} :
    x ∈ q.dueAt now ↔ x ∈ q.timers ∧ x.1.1.nanos ≤ now.nanos := by
  simp [dueAt]

end TimerQueue

namespace System

variable {β E : Type}

/-- A timer due now that is pending was pending at every earlier moment of
the call, and due then too. -/
theorem TimersSince.mem_of_due {s s' : System β E} (h : TimersSince s s')
    {x : (Instant × Nat) × Timer E} (hx : x ∈ s'.timers.timers) (hd : x.1.1.nanos ≤ s'.clock.now.nanos) :
    x ∈ s.timers.timers ∧ x.1.1.nanos ≤ s.clock.now.nanos := by
  rw [h.clock] at hd
  exact ⟨(h.timers x hx).resolve_right (Nat.not_lt_of_le hd), hd⟩

theorem TimersSince.length_dueAt_le {s s' : System β E} (h : TimersSince s s')
    (hn : s'.timers.timers.Nodup) :
    (s'.timers.dueAt s'.clock.now).length ≤ (s.timers.dueAt s.clock.now).length := by
  refine (List.subperm_of_subset (hn.filter _) fun x (hx : x ∈ s'.timers.dueAt s'.clock.now) => ?_).length_le
  rw [TimerQueue.mem_dueAt] at hx ⊢
  exact h.mem_of_due hx.1 hx.2

end System

namespace Interpreter

variable {C E σ β : Type}

/-! ## Rounds -/

/-- The interpreter once timer `x` has left the queue, `rest` staying
pending, and its message is queued last. -/
def fire (i : Interpreter C E σ β) (x : (Instant × Nat) × Timer E)
    (rest : List ((Instant × Nat) × Timer E)) : Interpreter C E σ β :=
  { i with
    system :=
      { i.system with
        timers := { i.system.timers with timers := rest }
        mailbox := i.system.mailbox ++ [⟨x.2.origin, x.2.recipient, x.2.event⟩] } }

/-- With the root running, `x` is the next timer to fire: the pending timer
with the least key, due at the clock's reading; `rest` stays pending. -/
structure FiresNext (i : Interpreter C E σ β) (x : (Instant × Nat) × Timer E)
    (rest : List ((Instant × Nat) × Timer E)) : Prop where
  running : i.root.status = .running
  pending : i.system.timers.timers.Perm (x :: rest)
  least : ∀ y ∈ rest, TimerQueue.before x.1 y.1 = true
  due : x.1.1.nanos ≤ i.system.clock.now.nanos

/-- Where firing timers stops: the root does not run, or no pending timer is due. -/
def TimersIdle (i : Interpreter C E σ β) : Prop :=
  i.root.status ≠ .running ∨ ∀ x ∈ i.system.timers.timers, i.system.clock.now.nanos < x.1.1.nanos

theorem FiresNext.mem {i : Interpreter C E σ β} {x : (Instant × Nat) × Timer E}
    {rest : List ((Instant × Nat) × Timer E)} (h : i.FiresNext x rest) : x ∈ i.system.timers.timers :=
  h.pending.mem_iff.2 List.mem_cons_self

theorem FiresNext.since {i : Interpreter C E σ β} {x : (Instant × Nat) × Timer E}
    {rest : List ((Instant × Nat) × Timer E)} (h : i.FiresNext x rest) :
    System.TimersSince i.system (i.fire x rest).system :=
  .of_subset rfl fun _ hy => h.pending.mem_iff.2 (List.mem_cons_of_mem _ hy)

theorem length_dueAt_fire {i : Interpreter C E σ β} {x : (Instant × Nat) × Timer E}
    {rest : List ((Instant × Nat) × Timer E)} (hq : i.system.timers.timers = x :: rest)
    (hdue : x.1.1.nanos ≤ i.system.clock.now.nanos) :
    ((i.fire x rest).system.timers.dueAt (i.fire x rest).system.clock.now).length + 1 =
      (i.system.timers.dueAt i.system.clock.now).length := by
  simp only [TimerQueue.dueAt, fire, hq, List.filter_cons, decide_eq_true hdue, if_true, List.length_cons]
  rfl

variable [Event E]

/-- Rounds of firing timers from `i` to `i'`, each listed with the interpreter
it starts from and the timer it fires; they end where firing stops, or at the
first drain that fails. -/
inductive TimerRounds (n : Nursery C E σ β) : Interpreter C E σ β → Ledger (Snapshot C) →
    List (Interpreter C E σ β × ((Instant × Nat) × Timer E)) → Except RuntimeError Unit →
    Interpreter C E σ β → Ledger (Snapshot C) → Prop
  | idle {i l} : i.TimersIdle → TimerRounds n i l [] (.ok ()) i l
  | step {i l x rest j l₁ rounds outcome i' l'} : i.FiresNext x rest →
      ((drain n deliveryBound).run (i.fire x rest)).run l = ((.ok (), j), l₁) →
      TimerRounds n j l₁ rounds outcome i' l' → TimerRounds n i l ((i, x) :: rounds) outcome i' l'
  | fail {i l x rest e j l'} : i.FiresNext x rest →
      ((drain n deliveryBound).run (i.fire x rest)).run l = ((.error e, j), l') →
      TimerRounds n i l [(i, x)] (.error e) j l'

theorem drain_since (n : Nursery C E σ β) {fuel : Nat} {i j : Interpreter C E σ β}
    {l l' : Ledger (Snapshot C)} {res : Except RuntimeError Unit}
    (h : ((drain n fuel).run i).run l = ((res, j), l')) : System.TimersSince i.system j.system := by
  have hs := drain_durable (System.durable_since i.system) n fuel i l (.refl _)
  rw [h] at hs
  exact hs

theorem FiresNext.round_since {n : Nursery C E σ β} {i j : Interpreter C E σ β}
    {x : (Instant × Nat) × Timer E} {rest : List ((Instant × Nat) × Timer E)} (hx : i.FiresNext x rest)
    {fuel : Nat} {l l' : Ledger (Snapshot C)} {res : Except RuntimeError Unit}
    (hd : ((drain n fuel).run (i.fire x rest)).run l = ((res, j), l')) :
    System.TimersSince i.system j.system :=
  hx.since.trans (drain_since n hd)

namespace TimerRounds

variable {n : Nursery C E σ β} {i i' : Interpreter C E σ β} {l l' : Ledger (Snapshot C)}
  {rounds : List (Interpreter C E σ β × ((Instant × Nat) × Timer E))} {outcome : Except RuntimeError Unit}

/-- The rounds move no clock and leave pending only timers that were pending
at the start or are due later. -/
theorem since (h : TimerRounds n i l rounds outcome i' l') : System.TimersSince i.system i'.system := by
  induction h with
  | idle => exact .refl _
  | step hx hd _ ih => exact (hx.round_since hd).trans ih
  | fail hx hd => exact hx.round_since hd

/-- Every timer that fires was pending and due at the start. -/
theorem pending (h : TimerRounds n i l rounds outcome i' l') :
    ∀ p ∈ rounds, p.2 ∈ i.system.timers.timers ∧ p.2.1.1.nanos ≤ i.system.clock.now.nanos := by
  induction h with
  | idle => exact fun _ hp => absurd hp List.not_mem_nil
  | step hx hd _ ih =>
    intro p hp
    rcases List.mem_cons.1 hp with rfl | hp
    · exact ⟨hx.mem, hx.due⟩
    · exact (hx.round_since hd).mem_of_due (ih p hp).1 (ih p hp).2
  | fail hx _ =>
    intro p hp
    rw [List.mem_singleton] at hp
    subst hp
    exact ⟨hx.mem, hx.due⟩

/-- A timer that fires is still pending at the start of every round before
its own: a timer cancelled in a round never fires later. -/
theorem pending_until_fired (h : TimerRounds n i l rounds outcome i' l') :
    rounds.Pairwise fun a b => b.2 ∈ a.1.system.timers.timers := by
  induction h with
  | idle => exact .nil
  | step hx hd hr ih =>
    exact .cons (fun b hb => ((hx.round_since hd).mem_of_due (hr.pending b hb).1 (hr.pending b hb).2).1) ih
  | fail => exact List.pairwise_singleton _ _

/-- Timers fire in key order: each before the timers of later rounds. -/
theorem keys_increase (h : TimerRounds n i l rounds outcome i' l') :
    rounds.Pairwise fun a b => TimerQueue.before a.2.1 b.2.1 = true := by
  induction h with
  | idle => exact .nil
  | step hx hd hr ih =>
    -- a later timer was pending once the round's own had left the queue
    refine .cons (fun b hb => hx.least b.2 ?_) ih
    exact ((drain_since n hd).mem_of_due (hr.pending b hb).1 (hr.pending b hb).2).1
  | fail => exact List.pairwise_singleton _ _

theorem length_le_dueAt (h : TimerRounds n i l rounds outcome i' l') :
    rounds.length ≤ (i.system.timers.dueAt i.system.clock.now).length := by
  have hnodup : (rounds.map (·.2)).Nodup := by
    rw [List.Nodup, List.pairwise_map]
    refine h.keys_increase.imp fun {a b} hab heq => ?_
    rw [heq, TimerQueue.before_irrefl] at hab
    exact Bool.false_ne_true hab
  have hsub : rounds.map (·.2) ⊆ i.system.timers.dueAt i.system.clock.now := by
    intro x hx
    obtain ⟨p, hp, rfl⟩ := List.mem_map.1 hx
    exact TimerQueue.mem_dueAt.2 (h.pending p hp)
  rw [← List.length_map (f := (·.2))]
  exact (List.subperm_of_subset hnodup hsub).length_le

end TimerRounds

/-! ## The loop runs the rounds -/

omit [Event E] in
theorem sys_fireDue_of_due {i : Interpreter C E σ β} {k : Instant × Nat} {t : Timer E}
    {rest : List ((Instant × Nat) × Timer E)} (hq : i.system.timers.timers = (k, t) :: rest)
    (hdue : k.1.nanos ≤ i.system.clock.now.nanos) (l : Ledger (Snapshot C)) :
    ((sys System.fireDue : Run C E σ β Bool).run i).run l = ((true, i.fire (k, t) rest), l) := by
  have hp : i.system.timers.popDue i.system.clock.now = some (t, { i.system.timers with timers := rest }) := by
    obtain ⟨due, seq⟩ := k
    unfold TimerQueue.popDue
    rw [hq]
    exact if_pos hdue
  change ((((System.fireDue.run i.system).run l).1.1,
    { i with system := ((System.fireDue.run i.system).run l).1.2 }), ((System.fireDue.run i.system).run l).2) = _
  rw [System.fireDue_run, hp]
  rfl

omit [Event E] in
theorem sys_fireDue_of_none {i : Interpreter C E σ β}
    (hp : i.system.timers.popDue i.system.clock.now = none) (l : Ledger (Snapshot C)) :
    ((sys System.fireDue : Run C E σ β Bool).run i).run l = ((false, i), l) := by
  change ((((System.fireDue.run i.system).run l).1.1,
    { i with system := ((System.fireDue.run i.system).run l).1.2 }), ((System.fireDue.run i.system).run l).2) = _
  rw [System.fireDue_run, hp]

theorem round_ordered (n : Nursery C E σ β) {i j : Interpreter C E σ β} {x : (Instant × Nat) × Timer E}
    {rest : List ((Instant × Nat) × Timer E)} (hord : i.system.timers.Ordered)
    (hq : i.system.timers.timers = x :: rest) (hdue : x.1.1.nanos ≤ i.system.clock.now.nanos)
    {fuel : Nat} {l l' : Ledger (Snapshot C)} {res : Except RuntimeError Unit}
    (hd : ((drain n fuel).run (i.fire x rest)).run l = ((res, j), l')) :
    j.system.timers.Ordered ∧
      (j.system.timers.dueAt j.system.clock.now).length < (i.system.timers.dueAt i.system.clock.now).length := by
  have hord₁ : (i.fire x rest).system.timers.Ordered := hord.of_cons hq
  have hordj := drain_durable System.durable_ordered n fuel _ l hord₁
  rw [hd] at hordj
  have hle := (drain_since n hd).length_dueAt_le hordj.nodup
  have hcount := length_dueAt_fire hq hdue
  exact ⟨hordj, by omega⟩

/-- With fewer timers due than fuel, the loop runs rounds of firing timers. -/
theorem processTimers_go_rounds (n : Nursery C E σ β) :
    ∀ (fuel fired : Nat) (i : Interpreter C E σ β) (l : Ledger (Snapshot C)),
      i.system.timers.Ordered → (i.system.timers.dueAt i.system.clock.now).length < fuel →
      ∀ (res : Except RuntimeError Nat) (i' : Interpreter C E σ β) (l' : Ledger (Snapshot C)),
      ((processTimers.go n fuel fired).run i).run l = ((res, i'), l') →
      ∃ rounds outcome, TimerRounds n i l rounds outcome i' l' ∧
        res = outcome.map fun _ => fired + rounds.length
  | 0, _, _, _, _, hfuel, _, _, _, _ => absurd hfuel (Nat.not_lt_zero _)
  | fuel + 1, fired, i, l, hord, hfuel, res, i', l', hr => by
    rw [processTimers.go, run_bind, run_get] at hr
    dsimp only at hr
    split at hr
    · next hs =>
      -- the root does not run
      cases hr
      exact ⟨[], .ok (), .idle (.inl (by simpa using hs)), rfl⟩
    · next hs =>
      have hrun : i.root.status = .running := by simpa using hs
      rw [run_bind] at hr
      cases hp : i.system.timers.popDue i.system.clock.now with
      | none =>
        rw [sys_fireDue_of_none hp] at hr
        cases hr
        exact ⟨[], .ok (), .idle (.inr (hord.not_due_of_popDue hp)), rfl⟩
      | some p =>
        obtain ⟨t, q⟩ := p
        obtain ⟨k, rest, hq, hdue, rfl⟩ := TimerQueue.popDue_eq_some hp
        have hnext : i.FiresNext (k, t) rest := ⟨hrun, hq ▸ List.Perm.refl _, hord.least hq, hdue⟩
        rw [sys_fireDue_of_due hq hdue] at hr
        dsimp only at hr
        rw [if_neg (by decide), run_bind] at hr
        rcases hd : ((drain n deliveryBound).run (i.fire (k, t) rest)).run l with ⟨⟨r, j⟩, l₁⟩
        rw [hd] at hr
        cases r with
        | error e =>
          cases hr
          exact ⟨[(i, (k, t))], .error e, .fail hnext hd, rfl⟩
        | ok u =>
          -- the round leaves fewer timers due than the fuel left
          obtain ⟨hordj, hlt⟩ := round_ordered n hord hq hdue hd
          obtain ⟨rounds, outcome, hrounds, hres⟩ :=
            processTimers_go_rounds n fuel (fired + 1) j l₁ hordj (by omega) res i' l' hr
          refine ⟨(i, (k, t)) :: rounds, outcome, .step hnext hd hrounds, ?_⟩
          rw [hres, List.length_cons, Nat.add_comm rounds.length 1, Nat.add_assoc]

/-- Processing timers on an ordered queue runs rounds of firing timers, and
returns their number, or the error of the drain that failed. -/
theorem processTimers_rounds (n : Nursery C E σ β) {i : Interpreter C E σ β}
    (hord : i.system.timers.Ordered) {l : Ledger (Snapshot C)} {res : Except RuntimeError Nat}
    {i' : Interpreter C E σ β} {l' : Ledger (Snapshot C)}
    (hr : ((processTimers n).run i).run l = ((res, i'), l')) :
    ∃ rounds outcome, TimerRounds n i l rounds outcome i' l' ∧ res = outcome.map fun _ => rounds.length := by
  rw [processTimers, run_bind, run_get] at hr
  have hdue : (i.system.timers.dueAt i.system.clock.now).length < i.system.timers.size + 1 :=
    Nat.lt_succ_of_le (List.length_filter_le _ _)
  obtain ⟨rounds, outcome, hrounds, hres⟩ := processTimers_go_rounds n _ 0 i l hord hdue res i' l' hr
  exact ⟨rounds, outcome, hrounds, by rw [hres, Nat.zero_add]⟩

/-- Processing timers fires due timers in key order while the root runs; each
was pending and due when the call began and stayed pending until its round. -/
theorem processTimers_fires_due_timers (n : Nursery C E σ β) {i : Interpreter C E σ β}
    (hi : Reachable n i) {l : Ledger (Snapshot C)} {res : Except RuntimeError Nat}
    {i' : Interpreter C E σ β} {l' : Ledger (Snapshot C)}
    (hr : ((processTimers n).run i).run l = ((res, i'), l')) :
    ∃ rounds outcome, TimerRounds n i l rounds outcome i' l' ∧
      res = outcome.map (fun _ => rounds.length) ∧
      (∀ p ∈ rounds, p.2 ∈ i.system.timers.timers ∧ p.2.1.1.nanos ≤ i.system.clock.now.nanos) ∧
      rounds.Pairwise (fun a b => b.2 ∈ a.1.system.timers.timers) ∧
      rounds.Pairwise (fun a b => TimerQueue.before a.2.1 b.2.1 = true) ∧
      System.TimersSince i.system i'.system ∧
      rounds.length ≤ (i.system.timers.dueAt i.system.clock.now).length := by
  obtain ⟨rounds, outcome, h, hres⟩ := processTimers_rounds n hi.timers_ordered hr
  exact ⟨rounds, outcome, h, hres, h.pending, h.pending_until_fired, h.keys_increase, h.since,
    h.length_le_dueAt⟩

end Interpreter

/-- A machine that, on entering its only state, schedules `X` and `Y` five
nanoseconds ahead and `Z` nine, and on `X` schedules `W` one nanosecond ahead. -/
def timedMachine : MachineBuilder Script.Context Script.Signal Script.ChildSpec :=
  { config := { root := { id := some "m", initial := some "a",
                          states := [("a", { entry := ["x", "y", "z"],
                                             on := [("X", [{ actions := ["w"] }])] })] } },
    context := {},
    actions := [("x", .send .itself (fun _ _ => some ⟨"X", []⟩) (some ⟨5⟩)),
                ("y", .send .itself (fun _ _ => some ⟨"Y", []⟩) (some ⟨5⟩)),
                ("z", .send .itself (fun _ _ => some ⟨"Z", []⟩) (some ⟨9⟩)),
                ("w", .send .itself (fun _ _ => some ⟨"W", []⟩) (some ⟨1⟩))] }

/-- A session of a machine on a manual clock, started and then moved five
nanoseconds on. -/
def timedSession (m : Script.ScriptMachine) : Script.Session :=
  ((((Interpreter.Call.advance ⟨5⟩).perform (Script.nursery [])).run
    ((((Interpreter.Call.start.perform (Script.nursery [])).run
      ((Interpreter.new m {} (.manual 0) false {}).run {}).1).run {}).1.2)).run {}).1.2

/-- Five nanoseconds after `timedMachine` starts, processing timers fires `X`
and `Y` in key order and leaves `W` and `Z` pending. -/
theorem timedSession_fires_due_timers :
    ∃ m, timedMachine.build = .ok m ∧
      let i := timedSession m
      let r := ((Interpreter.processTimers (Script.nursery [])).run i).run {}
      Interpreter.Reachable (Script.nursery []) i ∧
      i.system.timers.timers.map (·.1.2) = [1, 2, 3] ∧ r.1.1 = .ok 2 ∧
      r.1.2.system.timers.timers.map (·.1.2) = [4, 3] ∧
      ∃ rounds, Interpreter.TimerRounds (Script.nursery []) i {} rounds (.ok ()) r.1.2 r.2 ∧
        rounds.length = 2 ∧
        (∀ p ∈ rounds, p.2 ∈ i.system.timers.timers ∧ p.2.1.1.nanos ≤ i.system.clock.now.nanos) ∧
        rounds.Pairwise (fun a b => TimerQueue.before a.2.1 b.2.1 = true) := by
  have hrun : timedMachine.build.map (fun m =>
      let r := ((Interpreter.processTimers (Script.nursery [])).run (timedSession m)).run {}
      ((timedSession m).system.timers.timers.map (·.1.2), r.1.1, r.1.2.system.timers.timers.map (·.1.2))) =
      .ok ([1, 2, 3], .ok 2, [4, 3]) := by
    cbv
  cases hb : timedMachine.build with
  | ok m =>
    rw [hb] at hrun
    simp only [Except.map, Except.ok.injEq, Prod.mk.injEq] at hrun
    obtain ⟨hstart, hres, hleft⟩ := hrun
    have hreach : Interpreter.Reachable (Script.nursery []) (timedSession m) :=
      .call (.advance ⟨5⟩) {} (.call .start {} (.new m {} (.manual 0) false {} {}))
    refine ⟨m, rfl, hreach, hstart, ?_⟩
    generalize hr : ((Interpreter.processTimers (Script.nursery [])).run (timedSession m)).run {} = r
      at hres hleft ⊢
    obtain ⟨⟨res, i'⟩, l'⟩ := r
    dsimp only at hres hleft ⊢
    obtain ⟨rounds, outcome, hrounds, hcount, hpending, -, hkeys, -, -⟩ :=
      Interpreter.processTimers_fires_due_timers (Script.nursery []) hreach hr
    rw [hres] at hcount
    cases outcome with
    | ok u =>
      simp only [Except.map, Except.ok.injEq] at hcount
      exact ⟨hres, hleft, rounds, hrounds, hcount.symm, hpending, hkeys⟩
    | error e => cases hcount
  | error e =>
    rw [hb] at hrun
    cases hrun

end Statechart
