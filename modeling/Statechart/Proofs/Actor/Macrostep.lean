import Statechart.Proofs.Actor.Turn
import Statechart.Actor.MachineActor
/-!
# Macrosteps of a machine actor

What each part of a macrostep hands back, stated once so that facts about whole
macrosteps never unfold the actor's code again: taking a plan (`adopt`),
settling (`Settles`), and the rollback of a failed macrostep
(`transact_returns`). An invariant that survives `adopt` for the plans
resolution picks holds after every macrostep (`Settles.preserves`). The actors
of a machine are the fresh ones and whatever starts, receives and stops make of
them (`Reachable`).
-/
namespace Statechart

namespace MachineActor

variable {ν β C E σ : Type}

/-- The actor after it took `plan`, its actions having left `context`. -/
def adopt (rt : MachineActor C E σ) (plan : Plan) (context : C) : MachineActor C E σ :=
  { rt with context, configuration := plan.configuration, changed := true,
            done := rt.done || finishes rt.tree plan.configuration }

@[simp] theorem adopt_machine (rt : MachineActor C E σ) (plan : Plan) (context : C) :
    (rt.adopt plan context).machine = rt.machine := rfl

@[simp] theorem adopt_configuration (rt : MachineActor C E σ) (plan : Plan) (context : C) :
    (rt.adopt plan context).configuration = plan.configuration := rfl

@[simp] theorem adopt_status (rt : MachineActor C E σ) (plan : Plan) (context : C) :
    (rt.adopt plan context).status = rt.status := rfl

@[simp] theorem adopt_history (rt : MachineActor C E σ) (plan : Plan) (context : C) :
    (rt.adopt plan context).history = rt.history := rfl

/-- The plan resolution picks for a trigger on the actor's configuration. -/
def picks (rt : MachineActor C E σ) (event : Option E) (trigger : Trigger) :
    Except RuntimeError (Option Plan) :=
  (rt.tree.select (lookup rt.machine.guards) rt.configuration rt.context event trigger).2

/-- `rt` reaches `rt'` by eventless transitions, each the plan resolution picks. -/
inductive Settles (event : Option E) : MachineActor C E σ → MachineActor C E σ → Prop
  | refl (rt : MachineActor C E σ) : Settles event rt rt
  | step (rt : MachineActor C E σ) (plan : Plan) (context : C) (rt' : MachineActor C E σ) :
      rt.picks event .always = .ok (some plan) → Settles event (rt.adopt plan context) rt' →
      Settles event rt rt'

/-- What every eventless transition keeps, settling keeps. -/
theorem Settles.preserves {event : Option E} (I : MachineActor C E σ → Prop)
    (step : ∀ rt plan context, I rt → rt.picks event .always = .ok (some plan) →
      I (rt.adopt plan context))
    {rt rt' : MachineActor C E σ} (h : Settles event rt rt') (hi : I rt) : I rt' := by
  induction h with
  | refl => exact hi
  | step rt plan context rt' hp _ ih => exact ih (step rt plan context hi hp)

/-- The first transition of a macrostep and the eventless ones after it. -/
def Handles [Event E] (event : E) (rt next : MachineActor C E σ) : Prop :=
  (∃ plan context, rt.picks (some event) (Trigger.ofEvent event) = .ok (some plan) ∧
      Settles (some event) (rt.adopt plan context) next) ∨
    (rt.picks (some event) (Trigger.ofEvent event) = .ok none ∧ next = rt)

/-- Entering the initial configuration and the eventless transitions after it. -/
def Enters (rt next : MachineActor C E σ) : Prop :=
  ∃ context, Settles none (rt.adopt rt.tree.initialPlan context) next

/-! ## One lemma per operation -/

theorem resolve_returns (rt : MachineActor C E σ) (trigger : Trigger) (event : Option E) :
    TurnE.Returns (rt.resolve trigger event : TurnE ν β E (Option Plan)) fun o =>
      rt.picks event trigger = .ok o := by
  unfold resolve
  rcases h : rt.tree.select (lookup rt.machine.guards) rt.configuration rt.context event trigger
    with ⟨checks, result⟩
  refine (TurnE.Returns.trivial _).bind fun _ _ => ?_
  refine (TurnE.Returns.trivial _).bind fun _ _ => ?_
  cases result with
  | ok plan => exact .pure (by simp [picks, h])
  | error e => exact .throw

theorem execute_returns (spawn : Spawner ν β E σ) (rt : MachineActor C E σ) (plan : Plan)
    (event : Option E) :
    TurnE.Returns (rt.execute spawn plan event) fun rt' => rt' = rt.adopt plan rt'.context := by
  unfold execute
  refine (TurnE.Returns.trivial _).bind fun _ _ => ?_
  exact .pure rfl

theorem take_returns (spawn : Spawner ν β E σ) (rt : MachineActor C E σ) (records : List Record)
    (plan : Plan) (event : Option E) :
    TurnE.Returns (rt.take spawn records plan event) fun p =>
      p.1 = rt.adopt plan p.1.context ∧
      p.2 = if plan.isTargetless then records
        else
          records ++ [{ source := rt.value, target := plan.value, trigger := plan.trigger }] := by
  unfold take
  refine (execute_returns spawn rt plan event).bind fun rt' h => ?_
  exact .pure ⟨h, rfl⟩

theorem settle_returns (spawn : Spawner ν β E σ) (limit : Nat) (event : Option E)
    (remaining : Nat) (rt : MachineActor C E σ) (records : List Record) :
    TurnE.Returns (settle spawn limit event remaining rt records)
      fun p => Settles event rt p.1 := by
  -- the budget of transitions left is what the recursion consumes
  induction remaining generalizing rt records with
  | zero =>
    unfold settle
    split
    · exact .pure (.refl rt)
    · refine (resolve_returns rt .always event).bind fun o _ => ?_
      cases o with
      | none => exact .pure (.refl rt)
      | some plan => exact .throw
  | succ r ih =>
    unfold settle
    split
    · exact .pure (.refl rt)
    · refine (resolve_returns rt .always event).bind fun o ho => ?_
      cases o with
      | none => exact .pure (.refl rt)
      | some plan =>
        refine (take_returns spawn rt records plan event).bind fun ⟨rt', records'⟩ ⟨hrt, _⟩ => ?_
        dsimp only at hrt
        refine (ih rt' records').mono fun p hp => ?_
        rw [hrt] at hp
        exact .step rt plan _ _ ho hp

theorem settleAll_returns (spawn : Spawner ν β E σ) (event : Option E) (rt : MachineActor C E σ)
    (records : List Record) :
    TurnE.Returns (settleAll spawn event rt records) fun p => Settles event rt p.1 := by
  unfold settleAll
  exact (TurnE.Returns.trivial _).bind fun _ _ => settle_returns spawn _ event _ rt records

/-- A failed macrostep hands back the actor as it was, reporting no change; a
successful one hands back what its step produced, with its transitions in the
history. -/
theorem transact_returns (rt : MachineActor C E σ)
    (step : MachineActor C E σ → TurnE ν β E (MachineActor C E σ × List Record))
    (P : MachineActor C E σ × List Record → Prop) (hstep : TurnE.Returns (step rt) P) :
    Turn.Returns (rt.transact step) fun p =>
      (∀ e, p.2 = .error e → p.1 = { rt with changed := false }) ∧
      (p.2 = .ok () → ∃ next records, P (next, records) ∧
        p.1 = { next with history := p.1.history }) := by
  unfold transact
  refine Turn.Returns.bind hstep ?_
  rintro (e | ⟨next, records⟩) hr
  · exact .pure ⟨fun _ _ => rfl, nofun⟩
  · refine (Turn.Returns.trivial _).bind fun _ _ => ?_
    refine (Turn.Returns.trivial _).bind fun _ _ => ?_
    refine .pure ⟨fun _ => nofun, fun _ => ?_⟩
    exact ⟨next, records, hr _ rfl, rfl⟩

/-- Starting: a fresh actor enters its initial configuration and settles; any
other is refused as it is. -/
theorem start_returns (spawn : Spawner ν β E σ) (rt : MachineActor C E σ) :
    Turn.Returns (rt.start spawn) fun p =>
      (∀ e, p.2 = .error e → (rt.status ≠ .notStarted ∧ p.1 = rt) ∨
        (rt.status = .notStarted ∧
          ∃ limit, p.1 = { rt with history := rt.history.setLimit limit, changed := false })) ∧
      (p.2 = .ok () → rt.status = .notStarted ∧ ∃ limit next,
        Enters { rt with history := rt.history.setLimit limit } next ∧
        p.1 = { next with history := p.1.history, status := .running }) := by
  unfold start
  refine (Turn.Returns.trivial _).bind fun s _ => ?_
  split
  next hs => exact .pure ⟨fun _ _ => .inl ⟨by simp [hs], rfl⟩, nofun⟩
  next hs => exact .pure ⟨fun _ _ => .inl ⟨by simp [hs], rfl⟩, nofun⟩
  next hs =>
    let rt₁ := { rt with history := rt.history.setLimit s.options.historyLimit }
    refine Turn.Returns.bind (transact_returns rt₁ _ (fun p => Enters rt₁ p.1) ?_) ?_
    · refine (execute_returns spawn rt₁ _ none).bind fun rt' hrt => ?_
      refine (settleAll_returns spawn none rt' []).mono fun p hp => ?_
      exact ⟨rt'.context, hrt ▸ hp⟩
    rintro ⟨rt', outcome⟩ ⟨herr, hok⟩
    cases outcome with
    | ok u =>
      obtain ⟨next, _, hn, hrt'⟩ := hok rfl
      dsimp only at hrt'
      refine .pure ⟨nofun, fun _ => ⟨hs, _, next, hn, ?_⟩⟩
      dsimp only
      rw [hrt']
    | error e =>
      have hrt' := herr e rfl
      exact .pure ⟨fun _ _ => .inr ⟨hs, _, hrt'⟩, nofun⟩

/-- Receiving: a running actor handles the event and settles; any other is
refused as it is. -/
theorem receive_returns [Event E] (spawn : Spawner ν β E σ) (rt : MachineActor C E σ)
    (event : E) :
    Turn.Returns (rt.receive spawn event) fun p =>
      (∀ e, p.2 = .error e → (rt.status ≠ .running ∧ p.1 = rt) ∨
        (rt.status = .running ∧ p.1 = { rt with changed := false })) ∧
      (p.2 = .ok () → rt.status = .running ∧ ∃ next,
        Handles event { rt with changed := false } next ∧
        p.1 = { next with history := p.1.history }) := by
  unfold receive
  refine (Turn.Returns.trivial _).bind fun s _ => ?_
  by_cases hs : rt.status = .running
  · rw [if_neg (by simp [hs])]
    let rt₁ := { rt with changed := false }
    refine Turn.Returns.mono (transact_returns rt₁ _ (fun p => Handles event rt₁ p.1) ?_) ?_
    · refine (resolve_returns rt₁ _ _).bind fun o ho => ?_
      cases o with
      | some plan =>
        refine (take_returns spawn rt₁ [] plan _).bind fun ⟨rt', records⟩ ⟨hrt, _⟩ => ?_
        refine (settleAll_returns spawn _ rt' records).mono fun p hp => ?_
        exact .inl ⟨plan, rt'.context, ho, hrt ▸ hp⟩
      | none =>
        exact (TurnE.Returns.trivial _).bind fun _ _ => .pure (.inr ⟨ho, rfl⟩)
    rintro ⟨rt', outcome⟩ ⟨herr, hok⟩
    refine ⟨fun e he => .inr ⟨hs, herr e he⟩, fun ho => ?_⟩
    obtain ⟨next, _, hn, hrt'⟩ := hok ho
    exact ⟨hs, next, hn, hrt'⟩
  · rw [if_pos (by simpa using hs)]
    exact .pure ⟨fun _ _ => .inl ⟨hs, rfl⟩, nofun⟩

/-- The actors of `m`: fresh ones, and whatever starts, receives and stops make
of them, run from any scope and journal. -/
inductive Reachable [Event E] (m : Machine C E σ) : MachineActor C E σ → Prop
  | new (context : C) : Reachable m (MachineActor.new m context)
  | start {ν β : Type} {rt : MachineActor C E σ} (spawn : Spawner ν β E σ) (sc : Scope β E)
      (l : Ledger ν) :
      Reachable m rt → Reachable m (((rt.start spawn).run sc).run l).1.1.1
  | receive {ν β : Type} {rt : MachineActor C E σ} (spawn : Spawner ν β E σ) (event : E)
      (sc : Scope β E) (l : Ledger ν) :
      Reachable m rt → Reachable m (((rt.receive spawn event).run sc).run l).1.1.1
  | stop {rt : MachineActor C E σ} : Reachable m rt → Reachable m rt.stop

end MachineActor

end Statechart
