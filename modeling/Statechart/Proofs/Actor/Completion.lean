import Mathlib
import Statechart.Proofs.Actor.Lifecycle
import Statechart.Script.World
/-!
# What a successful call leaves in the mailbox

`start` and `send` end by draining the mailbox, and a drain succeeds only on an
empty mailbox, so a successful one leaves no message queued, even one an
earlier failing call left (`successful_call_mailbox`). Processing timers drains
only after a timer fires; one that fires none changes nothing
(`processTimers_of_none_due`), and `runTimers` drains or moves only the clock.
-/
namespace Statechart

namespace Interpreter

variable {C E σ β : Type}

theorem sys_fireDue_false (i₀ : Interpreter C E σ β) :
    Spec (· = i₀) (sys System.fireDue) fun fired i => fired = false → i = i₀ := by
  intro i l hi
  subst hi
  have hrun := System.fireDue_run (ν := Snapshot C) i.system l
  -- `sys` puts the system back into the interpreter it came from
  change (((System.fireDue.run i.system).run l).1.1 = false →
    { i with system := ((System.fireDue.run i.system).run l).1.2 } = i)
  rw [hrun]
  split
  · nofun
  · intro
    rfl

variable [Event E]

/-- Draining succeeds only on an empty mailbox: every other way out of the
loop is a failure or a further round. -/
theorem drain_ok (n : Nursery C E σ β) (fuel : Nat) :
    Spec (fun _ => True) (drain n fuel) fun res i => res = .ok () → i.system.mailbox = [] := by
  induction fuel with
  | zero =>
    rw [drain]
    refine Spec.bind Spec.get fun i => ?_
    split
    · next h => exact Spec.pure fun _ hs _ => hs.1 ▸ List.isEmpty_iff.1 h
    · exact Spec.pure fun _ _ => by simp
  | succ fuel ih =>
    rw [drain]
    refine Spec.bind Spec.get fun i => ?_
    split
    · next hm => exact Spec.pure fun _ hs _ => hs.1 ▸ hm
    · refine Spec.bind Spec.trivial fun _ => ?_
      split
      · split
        · split
          · exact ih
          · refine Spec.bind Spec.trivial fun _ => ?_
            split
            · exact Spec.pure fun _ _ => by simp
            · refine Spec.bind Spec.trivial fun _ => ?_
              split
              · exact Spec.pure fun _ _ => by simp
              · exact ih
        · refine Spec.bind Spec.trivial fun _ => Spec.bind Spec.trivial fun _ => ?_
          dsimp only
          split
          · refine Spec.bind Spec.trivial fun _ => Spec.bind Spec.trivial fun _ => ?_
            split
            · exact Spec.pure fun _ _ => by simp
            · exact ih
          · split
            · exact Spec.pure fun _ _ => by simp
            · exact ih
      · exact Spec.bind Spec.trivial fun _ => ih

theorem start_ok (n : Nursery C E σ β) :
    Spec (fun _ => True) (start n) fun res i => res = .ok () → i.system.mailbox = [] := by
  unfold start
  refine Spec.bind Spec.trivial fun _ => ?_
  split
  · exact Spec.pure fun _ _ => by simp
  · refine Spec.bind Spec.trivial fun _ => ?_
    split
    · exact Spec.pure fun _ _ => by simp
    · exact drain_ok n _

theorem send_ok (n : Nursery C E σ β) (event : E) :
    Spec (fun _ => True) (send n event) fun res i => res = .ok () → i.system.mailbox = [] := by
  unfold send
  refine Spec.bind Spec.get fun _ => ?_
  split
  · exact Spec.pure fun _ _ => by simp
  · split
    · exact Spec.pure fun _ _ => by simp
    · exact Spec.bind Spec.trivial fun _ => drain_ok n _

/-- Firing timers: a run that fired none changed nothing; one that fired some
drained the mailbox after the last. -/
theorem processTimers_go_ok (n : Nursery C E σ β) (fuel fired : Nat) (i₀ : Interpreter C E σ β) :
    Spec (· = i₀) (processTimers.go n fuel fired) fun res i => ∀ k, res = .ok k →
      (k = fired ∧ i = i₀) ∨ (fired < k ∧ i.system.mailbox = []) := by
  induction fuel generalizing fired i₀ with
  | zero =>
    rw [processTimers.go]
    exact Spec.pure fun _ hs k hk => .inl ⟨(Except.ok.inj hk).symm, hs⟩
  | succ fuel ih =>
    rw [processTimers.go]
    refine Spec.bind Spec.get fun _ => ?_
    split
    · exact Spec.pure fun _ hs k hk => .inl ⟨(Except.ok.inj hk).symm, hs.2⟩
    · refine Spec.bind (Spec.pre (sys_fireDue_false i₀) fun _ h => h.2) fun fired' => ?_
      split
      · next hf =>
        exact Spec.pure fun _ hs k hk => Or.inl ⟨(Except.ok.inj hk).symm, hs (by simpa using hf)⟩
      · refine Spec.bind (Spec.pre (drain_ok n _) fun _ _ => trivial) fun res => ?_
        split
        · exact Spec.pure fun _ _ => by simp
        · -- a timer fired and the drain emptied the mailbox; later rounds only add to the count
          intro s l hs
          have hempty := hs rfl
          intro k hk
          rcases ih (fired + 1) s s l rfl k hk with ⟨hk', hi⟩ | ⟨hk', hm⟩
          · rw [hi]
            exact .inr ⟨by omega, hempty⟩
          · exact .inr ⟨by omega, hm⟩

theorem processTimers_ok (n : Nursery C E σ β) (i₀ : Interpreter C E σ β) :
    Spec (· = i₀) (processTimers n) fun res i => ∀ k, res = .ok k →
      (k = 0 ∧ i = i₀) ∨ (0 < k ∧ i.system.mailbox = []) :=
  Spec.bind Spec.get fun _ => Spec.pre (processTimers_go_ok n _ 0 i₀) fun _ h => h.2

/-- Sleeping for timers: a run either drained the mailbox after a timer
fired, or moved nothing but the clock. -/
theorem runTimers_go_ok (n : Nursery C E σ β) (fuel : Nat) (i₀ : Interpreter C E σ β) :
    Spec (· = i₀) (runTimers.go n fuel) fun res i => res = .ok () →
      i.system.mailbox = [] ∨ ∃ c, i = { i₀ with system := { i₀.system with clock := c } } := by
  induction fuel generalizing i₀ with
  | zero =>
    rw [runTimers.go]
    refine Spec.bind Spec.get fun _ => ?_
    split
    · exact Spec.pure fun _ _ => by simp
    · exact Spec.pure fun _ hs _ => .inr ⟨i₀.system.clock, hs.2⟩
  | succ fuel ih =>
    rw [runTimers.go]
    refine Spec.bind Spec.get fun _ => ?_
    split
    · exact Spec.pure fun _ hs _ => .inr ⟨i₀.system.clock, hs.2⟩
    · split
      · exact Spec.pure fun _ hs _ => .inr ⟨i₀.system.clock, hs.2⟩
      · next due _ =>
        -- the sleep moves the clock, then the timers are processed
        refine Spec.bind (R := fun _ i => ∃ c, i = { i₀ with system := { i₀.system with clock := c } })
          (Spec.set fun _ hs => by obtain ⟨rfl, rfl⟩ := hs; exact ⟨_, rfl⟩) fun _ => ?_
        refine Spec.bind (R := fun res i => ∀ k, res = .ok k → i.system.mailbox = [] ∨
            ∃ c, i = { i₀ with system := { i₀.system with clock := c } }) ?_ fun res => ?_
        · intro s l hs k hk
          obtain ⟨c, hc⟩ := hs
          rcases processTimers_ok n s s l rfl k hk with ⟨-, hs⟩ | ⟨-, hm⟩
          · exact .inr ⟨c, hs.trans hc⟩
          · exact .inl hm
        split
        · exact Spec.pure fun _ _ => by simp
        · next k =>
          intro s l hs hres
          rcases ih s s l rfl hres with hm | ⟨c', hc'⟩
          · exact .inl hm
          · rcases hs k rfl with hm | ⟨c, hc⟩
            · rw [hc']
              exact .inl hm
            · exact .inr ⟨c', by rw [hc', hc]⟩

theorem runTimers_ok (n : Nursery C E σ β) (i₀ : Interpreter C E σ β) :
    Spec (· = i₀) (runTimers n) fun res i => res = .ok () →
      i.system.mailbox = [] ∨ ∃ c, i = { i₀ with system := { i₀.system with clock := c } } :=
  runTimers_go_ok n _ i₀

/-- With no timer due, processing timers fires none and changes nothing,
whatever is queued. -/
theorem processTimers_of_none_due (n : Nursery C E σ β) (i : Interpreter C E σ β)
    (h : i.system.timers.popDue i.system.clock.now = none) (l : Ledger (Snapshot C)) :
    ((processTimers n).run i).run l = ((.ok 0, i), l) := by
  unfold processTimers
  rw [run_bind, run_get]
  dsimp only
  rw [processTimers.go, run_bind, run_get]
  dsimp only
  split
  · rfl
  · rw [run_bind]
    have hsys : ((sys System.fireDue : Run C E σ β Bool).run i).run l = ((false, i), l) := by
      change ((((System.fireDue.run i.system).run l).1.1,
        { i with system := ((System.fireDue.run i.system).run l).1.2 }), ((System.fireDue.run i.system).run l).2) = _
      rw [System.fireDue_run, h]
    rw [hsys]
    rfl

/-- A successful `start` or `send` leaves the mailbox empty; a successful
`processTimers` or `runTimers` either does too or changes nothing but the clock.
-/
theorem successful_call_mailbox (n : Nursery C E σ β) (i : Interpreter C E σ β) (l : Ledger (Snapshot C)) :
    let started := ((start n).run i).run l
    let processed := ((processTimers n).run i).run l
    let slept := ((runTimers n).run i).run l
    (started.1.1 = .ok () → started.1.2.system.mailbox = []) ∧
    (∀ event, (((send n event).run i).run l).1.1 = .ok () →
      (((send n event).run i).run l).1.2.system.mailbox = []) ∧
    (∀ k, processed.1.1 = .ok k →
      (k = 0 ∧ processed.1.2 = i) ∨ (0 < k ∧ processed.1.2.system.mailbox = [])) ∧
    (slept.1.1 = .ok () → slept.1.2.system.mailbox = [] ∨
      ∃ c, slept.1.2 = { i with system := { i.system with clock := c } }) :=
  ⟨start_ok n i l trivial, fun event => send_ok n event i l trivial, processTimers_ok n i i l rfl,
    runTimers_ok n i i l rfl⟩

end Interpreter

/-- A machine whose `GO` sends itself `B` and then `C`; `B` is guarded by a
guard that fails, and `C` moves to `c`. -/
def MachineBuilder.relay : MachineBuilder Script.Context Script.Signal Script.ChildSpec :=
  { config :=
      { root :=
          { id := some "m"
            initial := some "a"
            states :=
              [("a", { on := [("GO", [{ actions := ["sendB", "sendC"] }]),
                              ("B", [{ target := some "b", guard := some "boom" }]),
                              ("C", [{ target := some "c" }])] }),
               ("b", {}), ("c", {})] } }
    context := {}
    guards := [("boom", fun _ _ => .error "bad")]
    actions := [("sendB", .send .itself (fun _ _ => some ⟨"B", []⟩) none),
                ("sendC", .send .itself (fun _ _ => some ⟨"C", []⟩) none)] }

/-- A session of a built `relay`, started and sent `GO`. -/
def relaySession (m : Script.ScriptMachine) : Script.Session :=
  Interpreter.afterCalls (Script.nursery []) ((Interpreter.new m {} (.manual 0) false {}).run {}).1
    [.start, .send ⟨"GO", []⟩]

/-- The send of `GO` fails on `B` and leaves `C` queued; a later send of an
unhandled event delivers `C`, and the root moves to `c`. -/
theorem queued_message_delivered_by_next_send :
    ∃ m, MachineBuilder.relay.build = .ok m ∧
      let r := ((Interpreter.send (Script.nursery []) ⟨"PING", []⟩).run (relaySession m)).run {}
      (relaySession m).system.mailbox.map (·.event.type) = ["C"] ∧ r.1.1 = .ok () ∧
      r.1.2.system.mailbox = [] ∧ r.1.2.root.value = ⟨["c"]⟩ := by
  have hrun : MachineBuilder.relay.build.map (fun m =>
      let r := ((Interpreter.send (Script.nursery []) ⟨"PING", []⟩).run (relaySession m)).run {}
      ((relaySession m).system.mailbox.map (·.event.type), r.1.1, r.1.2.root.value)) =
      .ok (["C"], .ok (), ⟨["c"]⟩) := by
    cbv
  cases hb : MachineBuilder.relay.build with
  | ok m =>
    rw [hb] at hrun
    simp only [Except.map, Except.ok.injEq, Prod.mk.injEq] at hrun
    obtain ⟨hqueued, hok, hvalue⟩ := hrun
    exact ⟨m, rfl, hqueued, hok,
      (Interpreter.successful_call_mailbox (Script.nursery []) (relaySession m) {}).2.1 _ hok, hvalue⟩
  | error e =>
    rw [hb] at hrun
    cases hrun


/-- A running root with a message still queued and no timer: processing
timers succeeds, fires nothing and leaves the message queued. -/
theorem processTimers_leaves_queued_message :
    let i : Script.Session :=
      { root := { MachineActor.new (⟨default, [], [], {}, []⟩ : Script.ScriptMachine) {} with status := .running }
        system := { System.new ⟨0, "m"⟩ (.manual 0) false {} with
          mailbox := [⟨0, .actor 0, ⟨"C", []⟩⟩] } }
    ((Interpreter.processTimers (Script.nursery [])).run i).run {} = ((.ok 0, i), {}) ∧
      i.system.mailbox ≠ [] :=
  ⟨Interpreter.processTimers_of_none_due _ _ rfl _, nofun⟩

end Statechart
