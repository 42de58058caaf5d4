import Mathlib
import Statechart.Proofs.Actor.Macrostep
import Statechart.Actor.Interpreter
import Statechart.Script.Basic
/-!
# A failed macrostep is undone

When an actor's macrostep fails, the actor is handed back as it was and reports
no change, and none of the commands it recorded reaches the system. A call
refused for the actor's status changes nothing at all
(`failed_macrostep_changes_nothing`).

History needs an invariant: starting sets the history's limit before the
macrostep runs, which would drop records from an actor that had some, but an
actor that has not started has none (`Pristine`, `Reachable.pristine`).
-/
namespace Statechart

namespace MachineActor

variable {ν β C E σ : Type}

/-- An actor that has not started has recorded no transition. -/
def Pristine (rt : MachineActor C E σ) : Prop :=
  rt.status = .notStarted → rt.history.records = []

/-- What a failed call leaves as it was: all the actor shows but the change flag. -/
structure RolledBack (before after : MachineActor C E σ) : Prop where
  context : after.context = before.context
  configuration : after.configuration = before.configuration
  done : after.done = before.done
  records : after.history.records = before.history.records
  status : after.status = before.status

theorem RolledBack.refl (rt : MachineActor C E σ) : RolledBack rt rt :=
  ⟨rfl, rfl, rfl, rfl, rfl⟩

theorem rolledBack_unchanged (rt : MachineActor C E σ) :
    RolledBack rt { rt with changed := false } :=
  ⟨rfl, rfl, rfl, rfl, rfl⟩

theorem Settles.status_eq {event : Option E} {rt rt' : MachineActor C E σ}
    (h : Settles event rt rt') : rt'.status = rt.status :=
  h.preserves (fun r => r.status = rt.status) (fun _ _ _ hr _ => hr) rfl

theorem Handles.status_eq [Event E] {event : E} {rt next : MachineActor C E σ}
    (h : Handles event rt next) : next.status = rt.status := by
  rcases h with ⟨plan, context, _, hs⟩ | ⟨_, rfl⟩
  · exact hs.status_eq
  · rfl

/-! ## Not started means nothing recorded -/

theorem pristine_new (m : Machine C E σ) (context : C) : (MachineActor.new m context).Pristine :=
  fun _ => rfl

theorem pristine_stop (rt : MachineActor C E σ) : rt.stop.Pristine :=
  nofun

theorem Pristine.start (spawn : Spawner ν β E σ) {rt : MachineActor C E σ} (h : rt.Pristine) :
    Turn.Returns (rt.start spawn) fun p => p.1.Pristine := by
  refine (start_returns spawn rt).mono fun ⟨rt', outcome⟩ ⟨herr, hok⟩ => ?_
  cases outcome with
  | error e =>
    rcases herr e rfl with ⟨_, rfl⟩ | ⟨hs, limit, rfl⟩
    · exact h
    · intro _
      simp [History.setLimit, h hs]
  | ok u =>
    obtain ⟨_, _, _, _, hrt⟩ := hok rfl
    dsimp only at hrt
    intro hs
    rw [hrt] at hs
    cases hs

theorem Pristine.receive [Event E] (spawn : Spawner ν β E σ) {rt : MachineActor C E σ}
    (h : rt.Pristine) (event : E) :
    Turn.Returns (rt.receive spawn event) fun p => p.1.Pristine := by
  refine (receive_returns spawn rt event).mono fun ⟨rt', outcome⟩ ⟨herr, hok⟩ => ?_
  cases outcome with
  | error e =>
    rcases herr e rfl with ⟨_, rfl⟩ | ⟨_, rfl⟩ <;> exact h
  | ok u =>
    obtain ⟨hs, next, hn, hrt⟩ := hok rfl
    dsimp only at hrt
    intro hs'
    have : rt'.status = .running := by rw [hrt]; exact hn.status_eq.trans hs
    rw [this] at hs'
    cases hs'

/-- Every actor of a machine that has not started has recorded no transition. -/
theorem Reachable.pristine [Event E] {m : Machine C E σ} {rt : MachineActor C E σ} (h : Reachable m rt) :
    rt.Pristine := by
  induction h with
  | new context => exact pristine_new m context
  | start spawn sc l _ ih => exact ih.start spawn sc l
  | receive spawn event sc l _ ih => exact ih.receive spawn event sc l
  | stop _ _ => exact pristine_stop _

/-! ## The actor is handed back -/

/-- A failed receive: the macrostep of a running actor is undone and reports
no change; a refused one changes nothing. -/
theorem receive_error_rolls_back [Event E] (spawn : Spawner ν β E σ) (rt : MachineActor C E σ)
    (event : E) :
    Turn.Returns (rt.receive spawn event) fun p => ∀ e, p.2 = .error e →
      RolledBack rt p.1 ∧ (rt.status = .running → p.1.changed = false) ∧
        (rt.status ≠ .running → p.1 = rt) := by
  refine (receive_returns spawn rt event).mono fun ⟨rt', outcome⟩ ⟨herr, _⟩ e he => ?_
  rcases herr e he with ⟨hs, rfl⟩ | ⟨hs, rfl⟩
  · exact ⟨.refl _, fun h => absurd h hs, fun _ => rfl⟩
  · exact ⟨rolledBack_unchanged rt, fun _ => rfl, fun h => absurd hs h⟩

/-- A failed start is undone and reports no change; a refused one changes nothing. -/
theorem start_error_rolls_back (spawn : Spawner ν β E σ) {rt : MachineActor C E σ}
    (h : rt.Pristine) :
    Turn.Returns (rt.start spawn) fun p => ∀ e, p.2 = .error e →
      RolledBack rt p.1 ∧ (rt.status = .notStarted → p.1.changed = false) ∧
        (rt.status ≠ .notStarted → p.1 = rt) := by
  refine (start_returns spawn rt).mono fun ⟨rt', outcome⟩ ⟨herr, _⟩ e he => ?_
  rcases herr e he with ⟨hs, rfl⟩ | ⟨hs, limit, rfl⟩
  · exact ⟨.refl _, fun h => absurd h hs, fun _ => rfl⟩
  · refine ⟨⟨rfl, rfl, rfl, ?_, rfl⟩, fun _ => rfl, fun h => absurd hs h⟩
    simp [History.setLimit, h hs]

end MachineActor

/-! ## Nothing reaches the system -/

namespace System

variable {ν β E : Type} [Event E]

/-- Delivering to a child whose macrostep fails commits none of its commands:
the system only takes back the child's instance. -/
theorem deliver_of_receive_error (b : Behaviour ν β E) (s : System β E) (id : ActorId) (event : E)
    (l : Ledger ν) {cell : β} {actor : ActorRef} (hcell : s.cell? id = some cell)
    (hactor : s.registry.actor? id = some actor) {e : RuntimeError}
    (hfail : (((b.receive cell event).run (s.scopeFor actor)).run l).1.1.2 = .error e) :
    ((deliver b id event).run s).run l =
      ((.error e, s.putCell id (((b.receive cell event).run (s.scopeFor actor)).run l).1.1.1),
        (((b.receive cell event).run (s.scopeFor actor)).run l).2) := by
  rcases hq : ((b.receive cell event).run (s.scopeFor actor)).run l with
    ⟨⟨⟨cell', outcome⟩, sc'⟩, l'⟩
  rw [hq] at hfail
  dsimp only at hfail
  subst hfail
  simp only [StateT.run] at hq
  simp only [deliver, hcell, hactor, StateT.run, bind, StateT.bind, get, getThe, MonadStateOf.get,
    StateT.get, pure, StateT.pure, modify, modifyGet, MonadStateOf.modifyGet, StateT.modifyGet,
    liftM, monadLift, MonadLift.monadLift, MonadLiftT.monadLift, StateT.lift, hq]

end System

namespace Interpreter

variable {C E σ β : Type} [Event E]

theorem start_of_root_error (n : Nursery C E σ β) (i : Interpreter C E σ β)
    (l : Ledger (Snapshot C)) {e : RuntimeError}
    (hfail : (((i.root.start n.spawn).run (i.system.scopeFor i.system.root)).run l).1.1.2 =
      .error e) :
    ((start n).run i).run l =
      ((.error e,
          { i with root := (((i.root.start n.spawn).run (i.system.scopeFor i.system.root)).run l).1.1.1 }),
        (((i.root.start n.spawn).run (i.system.scopeFor i.system.root)).run l).2) := by
  rcases hq : ((i.root.start n.spawn).run (i.system.scopeFor i.system.root)).run l
    with ⟨⟨⟨rt', outcome⟩, sc'⟩, l'⟩
  rw [hq] at hfail
  dsimp only at hfail
  subst hfail
  simp only [StateT.run] at hq
  simp only [start, onRoot, StateT.run, bind, StateT.bind, get, getThe, MonadStateOf.get,
    StateT.get, pure, StateT.pure, set, StateT.set, MonadStateOf.set,
    liftM, monadLift, MonadLift.monadLift, MonadLiftT.monadLift, StateT.lift, hq, Except.map]

/-- A root macrostep that fails during a drain leaves the system as it was but
for the message it was handling. -/
theorem drain_of_root_error (n : Nursery C E σ β) (fuel : Nat) (i : Interpreter C E σ β)
    (l : Ledger (Snapshot C)) {envelope : Envelope E} {rest : List (Envelope E)}
    (hmail : i.system.mailbox = envelope :: rest)
    (hroot : i.system.resolve envelope.recipient = some i.system.root.id)
    (hrun : i.root.status = .running) {e : RuntimeError}
    (hfail : (((i.root.receive n.spawn envelope.event).run
      (i.system.scopeFor i.system.root)).run l).1.1.2 = .error e) :
    ((drain n (fuel + 1)).run i).run l =
      ((.error e,
          { i with
            root := (((i.root.receive n.spawn envelope.event).run
              (i.system.scopeFor i.system.root)).run l).1.1.1
            system := { i.system with mailbox := rest } }),
        (((i.root.receive n.spawn envelope.event).run (i.system.scopeFor i.system.root)).run l).2) := by
  rcases hq : ((i.root.receive n.spawn envelope.event).run (i.system.scopeFor i.system.root)).run l
    with ⟨⟨⟨rt', outcome⟩, sc'⟩, l'⟩
  rw [hq] at hfail
  dsimp only at hfail
  subst hfail
  simp only [StateT.run] at hq
  -- the scope handed to the root does not look at the mailbox
  have hscope : ({ i.system with mailbox := rest } : System β E).scopeFor i.system.root =
      i.system.scopeFor i.system.root := rfl
  simp only [drain, hmail, hscope, hroot, hrun, onRoot, StateT.run, bind, StateT.bind, get, getThe,
    MonadStateOf.get, StateT.get, pure, StateT.pure, set, StateT.set, MonadStateOf.set,
    liftM, monadLift, MonadLift.monadLift, MonadLiftT.monadLift, StateT.lift, hq,
    beq_self_eq_true, bne_self_eq_false, Bool.false_eq_true, ↓reduceIte, Except.map]

end Interpreter

/-! ## The whole statement -/

section

variable {ν β C E σ : Type} [Event E]

open MachineActor in
/-- A failed macrostep changes nothing of the actor but its change flag, and
commits none of its commands; a refused call changes nothing. -/
theorem failed_macrostep_changes_nothing (spawn : Spawner ν β E σ) (rt : MachineActor C E σ)
    (event : E) :
    (Turn.Returns (rt.receive spawn event) fun p => ∀ e, p.2 = .error e →
      RolledBack rt p.1 ∧ (rt.status = .running → p.1.changed = false) ∧
        (rt.status ≠ .running → p.1 = rt)) ∧
    (rt.Pristine → Turn.Returns (rt.start spawn) fun p => ∀ e, p.2 = .error e →
      RolledBack rt p.1 ∧ (rt.status = .notStarted → p.1.changed = false) ∧
        (rt.status ≠ .notStarted → p.1 = rt)) ∧
    (∀ (b : Behaviour ν β E) (s : System β E) (id : ActorId) (l : Ledger ν) (cell : β)
      (actor : ActorRef) (e : RuntimeError), s.cell? id = some cell →
      s.registry.actor? id = some actor →
      (((b.receive cell event).run (s.scopeFor actor)).run l).1.1.2 = .error e →
      (((System.deliver b id event).run s).run l).1 =
        (.error e, s.putCell id (((b.receive cell event).run (s.scopeFor actor)).run l).1.1.1)) ∧
    (∀ (n : Nursery C E σ β) (fuel : Nat) (i : Interpreter C E σ β) (l : Ledger (Snapshot C))
      (sender : ActorId) (recipient : Address) (rest : List (Envelope E)) (e : RuntimeError),
      i.system.mailbox = ⟨sender, recipient, event⟩ :: rest →
      i.system.resolve recipient = some i.system.root.id → i.root.status = .running →
      (((i.root.receive n.spawn event).run (i.system.scopeFor i.system.root)).run l).1.1.2 =
        .error e →
      ∃ root, RolledBack i.root root ∧ root.changed = false ∧
        (((Interpreter.drain n (fuel + 1)).run i).run l).1 =
          (.error e, { i with root, system := { i.system with mailbox := rest } })) ∧
    (∀ (n : Nursery C E σ β) (i : Interpreter C E σ β) (l : Ledger (Snapshot C))
      (e : RuntimeError), i.root.Pristine →
      (((i.root.start n.spawn).run (i.system.scopeFor i.system.root)).run l).1.1.2 = .error e →
      ∃ root, RolledBack i.root root ∧ (i.root.status = .notStarted → root.changed = false) ∧
        (((Interpreter.start n).run i).run l).1 = (.error e, { i with root })) := by
  refine ⟨receive_error_rolls_back spawn rt event, start_error_rolls_back spawn, ?_, ?_, ?_⟩
  · intro b s id l cell actor e hcell hactor hfail
    rw [System.deliver_of_receive_error b s id event l hcell hactor hfail]
  · intro n fuel i l sender recipient rest e hmail hroot hrun hfail
    have hback := receive_error_rolls_back n.spawn i.root event (i.system.scopeFor i.system.root) l
      e hfail
    refine ⟨_, hback.1, hback.2.1 hrun, ?_⟩
    rw [Interpreter.drain_of_root_error n fuel i l hmail hroot hrun hfail]
  · intro n i l e hfresh hfail
    have hback := start_error_rolls_back n.spawn hfresh (i.system.scopeFor i.system.root) l e hfail
    refine ⟨_, hback.1, hback.2.1, ?_⟩
    rw [Interpreter.start_of_root_error n i l hfail]

end

/-- A gate whose opening is guarded by a guard that fails. -/
def MachineBuilder.gate : MachineBuilder Unit Script.Signal Empty :=
  { config :=
      { root :=
          { id := some "gate"
            initial := some "shut"
            states :=
              [("shut", { on := [("OPEN", [{ target := some "open", guard := some "jammed" }])] }),
               ("open", {})] } }
    context := ()
    guards := [("jammed", fun _ _ => .error "stuck")] }

/-- A started gate asked to open fails on its guard and is handed back as it
was; a second start is refused. -/
theorem gate_failure_rolls_back :
    ∃ m, MachineBuilder.gate.build = .ok m ∧
      let sc : Scope Unit Script.Signal :=
        { actor := ⟨0, "gate"⟩, parent := none, children := [], hook := false, options := {} }
      let rt := ((((MachineActor.new m ()).start fun _ e => e.elim).run sc).run ({} : Ledger Unit)).1.1.1
      let p := (((rt.receive (fun _ e => e.elim) ⟨"OPEN", []⟩).run sc).run ({} : Ledger Unit)).1.1
      let q := (((rt.start fun _ e => e.elim).run sc).run ({} : Ledger Unit)).1.1
      rt.status = .running ∧ p.2 = .error (.guard "gate.shut" "jammed" "stuck") ∧
      MachineActor.RolledBack rt p.1 ∧ p.1.changed = false ∧ rt.Pristine ∧
      ∀ e, q.2 = .error e → MachineActor.RolledBack rt q.1 ∧ q.1 = rt := by
  have hrun : MachineBuilder.gate.build.map (fun m =>
      let sc : Scope Unit Script.Signal :=
        { actor := ⟨0, "gate"⟩, parent := none, children := [], hook := false, options := {} }
      let rt := ((((MachineActor.new m ()).start fun _ e => e.elim).run sc).run ({} : Ledger Unit)).1.1.1
      (rt.status, (((rt.receive (fun _ e => e.elim) ⟨"OPEN", []⟩).run sc).run ({} : Ledger Unit)).1.1.2)) =
      .ok (.running, .error (.guard "gate.shut" "jammed" "stuck")) := by
    cbv
  cases hb : MachineBuilder.gate.build with
  | ok m =>
    rw [hb] at hrun
    simp only [Except.map, Except.ok.injEq, Prod.mk.injEq] at hrun
    obtain ⟨hstatus, hfail⟩ := hrun
    let sc : Scope Unit Script.Signal :=
      { actor := ⟨0, "gate"⟩, parent := none, children := [], hook := false, options := {} }
    let rt := ((((MachineActor.new m ()).start fun _ e => e.elim).run sc).run ({} : Ledger Unit)).1.1.1
    -- the started gate is an actor of its machine, so it is pristine
    have hpristine : rt.Pristine := (MachineActor.Reachable.start _ sc {} (.new ())).pristine
    obtain ⟨hreceive, hstart, -⟩ := failed_macrostep_changes_nothing (fun _ e => e.elim) rt ⟨"OPEN", []⟩
    have hback := hreceive sc {} _ hfail
    refine ⟨m, rfl, hstatus, hfail, hback.1, hback.2.1 hstatus, hpristine, fun e he => ?_⟩
    have hq := hstart hpristine sc {} e he
    exact ⟨hq.1, hq.2.2 (by rw [hstatus]; decide)⟩
  | error e =>
    rw [hb] at hrun
    cases hrun

/-- A second start of a running actor is refused, and the actor keeps
reporting the change its first start made. -/
theorem restart_keeps_change :
    let rt : MachineActor Unit Script.Signal Empty :=
      { MachineActor.new ⟨default, [], [], (), []⟩ () with
        configuration := [0], status := .running, changed := true }
    let sc : Scope Unit Script.Signal :=
      { actor := ⟨0, "m"⟩, parent := none, children := [], hook := false, options := {} }
    let p := (((rt.start fun _ e => nomatch e).run sc).run ({} : Ledger Unit)).1.1
    p.2 = .error (.alreadyStarted "m") ∧ p.1.changed = true :=
  ⟨rfl, rfl⟩

end Statechart
