import Mathlib
import Statechart.Proofs.Actor.Macrostep
import Statechart.Script.Basic
/-!
# The bound on eventless transitions

After its opening (entering the initial configuration, or the transition its
event resolves to) a macrostep takes eventless transitions one after another
until the actor is done or nothing is enabled, at most `maxEventlessSteps` of
them: the bound is checked after a resolution and before its plan is taken.

`Drains spawn event n p q` is that run of `n` transitions, given by the
computations themselves. Settling ends where the run stops within the budget
(`settle_stops`) and fails with `eventlessLoop` when one more is enabled after
it (`settle_continues`); `eventless_bound` lifts both to a whole macrostep.
-/
namespace Statechart

variable {ν β C E σ α γ : Type}

/-! ## Runs of a turn -/

namespace TurnE

/-- `x`, run in scope `sc` with journal `l`, ends with `r` in scope `sc'` and journal `l'`. -/
def Runs (x : TurnE ν β E α) (sc : Scope β E) (l : Ledger ν) (r : Except RuntimeError α)
    (sc' : Scope β E) (l' : Ledger ν) : Prop :=
  (x.run.run sc).run l = ((r, sc'), l')

namespace Runs

variable {x : TurnE ν β E α} {f : α → TurnE ν β E γ} {sc sc₁ sc₂ : Scope β E} {l l₁ l₂ : Ledger ν}

theorem bind {a : α} {r : Except RuntimeError γ} (hx : Runs x sc l (.ok a) sc₁ l₁)
    (hf : Runs (f a) sc₁ l₁ r sc₂ l₂) : Runs (x >>= f) sc l r sc₂ l₂ := by
  unfold Runs at *
  simp only [ExceptT.run_bind, StateT.run_bind, hx]
  exact hf

theorem pure {a : α} : Runs (Pure.pure a : TurnE ν β E α) sc l (.ok a) sc l := rfl

theorem throw {e : RuntimeError} : Runs (MonadExcept.throw e : TurnE ν β E α) sc l (.error e) sc l :=
  rfl

theorem returns {Q : α → Prop} {a : α} (hx : Runs x sc l (.ok a) sc₁ l₁) (hq : TurnE.Returns x Q) :
    Q a := by
  have h := hq sc l
  unfold Runs at hx
  rw [hx] at h
  exact h a rfl

end Runs

end TurnE

namespace Turn

theorem run_forIn_yield (g : γ → α → γ) {xs : List α} {init : γ}
    {body : α → γ → Turn ν β E (ForInStep γ)}
    (h : ∀ a b sc l, (((body a b).run sc).run l).1 = (.yield (g b a), sc)) :
    ∀ sc l, (((forIn xs init body).run sc).run l).1 = (xs.foldl g init, sc) := by
  induction xs generalizing init with
  | nil => intro sc l; rfl
  | cons a xs ih =>
    intro sc l
    rw [List.forIn_cons, run_bind, h a init sc l]
    exact ih _ _

theorem run_emit (d : Diagnostic) (sc : Scope β E) (l : Ledger ν) :
    (((Scope.emit d : Turn ν β E Unit).run sc).run l).1 = ((), sc) := by
  unfold Scope.emit
  rw [run_get_bind]
  unfold Journal.emit
  cases sc.hook <;> rfl

end Turn

namespace MachineActor

/-! ## Runs of eventless transitions -/

/-- Where a macrostep stands between two eventless transitions: the actor, the
records of the transitions taken so far, the scope and the journal. -/
structure Point (ν β C E σ : Type) where
  actor : MachineActor C E σ
  records : List Record
  scope : Scope β E
  ledger : Ledger ν

/-- From `p`, `n` eventless transitions are resolved and taken one after
another, none failing and the actor not done before any; `q` is where the last
one leaves. -/
inductive Drains (spawn : Spawner ν β E σ) (event : Option E) :
    Nat → Point ν β C E σ → Point ν β C E σ → Prop
  | refl (p : Point ν β C E σ) : Drains spawn event 0 p p
  | step {n : Nat} {p q : Point ν β C E σ} {plan : Plan} {sc : Scope β E} {l : Ledger ν}
      {rt : MachineActor C E σ} {rs : List Record} {sc' : Scope β E} {l' : Ledger ν} :
      p.actor.done = false →
      TurnE.Runs (p.actor.resolve .always event) p.scope p.ledger (.ok (some plan)) sc l →
      TurnE.Runs (p.actor.take spawn p.records plan event) sc l (.ok (rt, rs)) sc' l' →
      Drains spawn event n ⟨rt, rs, sc', l'⟩ q → Drains spawn event (n + 1) p q

/-- The eventless transitions end at `q`: the actor is done, or resolution
enables no candidate; `sc` and `l` are the scope and journal after that. -/
def Stops (event : Option E) (q : Point ν β C E σ) (sc : Scope β E) (l : Ledger ν) : Prop :=
  (q.actor.done = true ∧ sc = q.scope ∧ l = q.ledger) ∨
    (q.actor.done = false ∧
      TurnE.Runs (q.actor.resolve .always event) q.scope q.ledger (.ok none) sc l)

/-- One more eventless transition is enabled at `q`: resolution picks `plan`,
leaving scope `sc` and journal `l`. -/
def Continues (event : Option E) (q : Point ν β C E σ) (plan : Plan) (sc : Scope β E)
    (l : Ledger ν) : Prop :=
  q.actor.done = false ∧
    TurnE.Runs (q.actor.resolve .always event) q.scope q.ledger (.ok (some plan)) sc l

theorem Drains.status {spawn : Spawner ν β E σ} {event : Option E} {n : Nat}
    {p q : Point ν β C E σ} (h : Drains spawn event n p q) : q.actor.status = p.actor.status := by
  induction h with
  | refl => rfl
  | step _ _ htake _ ih =>
    have h := (htake.returns (take_returns _ _ _ _ _)).1
    dsimp only at h ih ⊢
    rw [ih, h, adopt_status]

section Settle

variable {spawn : Spawner ν β E σ} {limit : Nat} {event : Option E}

/-- A run of `n` eventless transitions that stops, settled with a budget of at
least `n`, is what settling does: it takes exactly those transitions. -/
theorem settle_stops {n : Nat} {p q : Point ν β C E σ} (h : Drains spawn event n p q)
    {sc : Scope β E} {l : Ledger ν} (hstop : Stops event q sc l) :
    ∀ r, n ≤ r → TurnE.Runs (settle spawn limit event r p.actor p.records) p.scope p.ledger
      (.ok (q.actor, q.records)) sc l := by
  -- the budget left shrinks with the run, and is never spent before it ends
  induction h with
  | refl p =>
    intro r _
    rcases hstop with ⟨hdone, rfl, rfl⟩ | ⟨hdone, hres⟩
    · unfold TurnE.Runs
      rw [settle, if_pos hdone]
      rfl
    · rw [settle, if_neg (by simp [hdone])]
      exact TurnE.Runs.bind hres TurnE.Runs.pure
  | step hdone hres htake _ ih =>
    intro r hr
    obtain ⟨r, rfl⟩ : ∃ r', r = r' + 1 := ⟨r - 1, by omega⟩
    rw [settle, if_neg (by simp [hdone])]
    exact TurnE.Runs.bind hres (TurnE.Runs.bind htake (ih hstop r (by omega)))

/-- When one more transition is enabled after a budget of exactly `n`, settling
fails naming the state that declared the candidate. -/
theorem settle_continues {n : Nat} {p q : Point ν β C E σ} (h : Drains spawn event n p q)
    {plan : Plan} {sc : Scope β E} {l : Ledger ν} (hmore : Continues event q plan sc l) :
    TurnE.Runs (settle spawn limit event n p.actor p.records) p.scope p.ledger
      (.error (.eventlessLoop plan.source limit)) sc l := by
  induction h with
  | refl p =>
    obtain ⟨hdone, hres⟩ := hmore
    rw [settle, if_neg (by simp [hdone])]
    exact TurnE.Runs.bind hres TurnE.Runs.throw
  | step hdone hres htake _ ih =>
    rw [settle, if_neg (by simp [hdone])]
    exact TurnE.Runs.bind hres (TurnE.Runs.bind htake (ih hmore))

theorem runs_settleAll {rt : MachineActor C E σ} {records : List Record} {sc sc' : Scope β E}
    {l l' : Ledger ν} {r : Except RuntimeError (MachineActor C E σ × List Record)}
    (h : TurnE.Runs (settle spawn sc.options.maxEventlessSteps event sc.options.maxEventlessSteps
      rt records) sc l r sc' l') :
    TurnE.Runs (settleAll spawn event rt records) sc l r sc' l' := h

end Settle

/-! ## Macrosteps -/

/-- What a macrostep hands back: on success the actor its step left, with its
records; on failure the actor it started from. -/
def concluded (rt : MachineActor C E σ) :
    Except RuntimeError (MachineActor C E σ × List Record) →
      MachineActor C E σ × Except RuntimeError Unit
  | .ok (next, records) => ({ next with history := records.foldl History.record next.history }, .ok ())
  | .error e => ({ rt with changed := false }, .error e)

theorem run_transact (rt : MachineActor C E σ)
    (step : MachineActor C E σ → TurnE ν β E (MachineActor C E σ × List Record))
    {sc sc' : Scope β E} {l l' : Ledger ν} {r : Except RuntimeError (MachineActor C E σ × List Record)}
    (h : TurnE.Runs (step rt) sc l r sc' l') :
    (((rt.transact step).run sc).run l).1 = (rt.concluded r, sc') := by
  unfold transact
  rw [Turn.run_bind]
  unfold TurnE.Runs at h
  rw [h]
  rcases r with e | ⟨next, records⟩
  · rfl
  · -- the transitions are reported one by one and added to the history
    dsimp only
    rw [Turn.run_get_bind, Turn.run_bind, Turn.run_forIn_yield History.record
      (fun a b sc l => by rw [Turn.run_bind, Turn.run_emit]; rfl)]
    rfl

/-- The actor a start begins its step from: its history limit set. -/
def limited (rt : MachineActor C E σ) (sc : Scope β E) : MachineActor C E σ :=
  { rt with history := rt.history.setLimit sc.options.historyLimit }

theorem run_start {spawn : Spawner ν β E σ} {rt next : MachineActor C E σ}
    {sc sc₁ sc' : Scope β E} {l l₁ l' : Ledger ν}
    {r : Except RuntimeError (MachineActor C E σ × List Record)} (hs : rt.status = .notStarted)
    (hexec : TurnE.Runs ((rt.limited sc).execute spawn rt.tree.initialPlan none) sc l
      (.ok next) sc₁ l₁)
    (hsettle : TurnE.Runs (settleAll spawn none next []) sc₁ l₁ r sc' l') :
    (((rt.start spawn).run sc).run l).1 =
      (match (rt.limited sc).concluded r with
        | (a, .ok ()) => ({ a with status := .running }, .ok ())
        | (a, .error e) => (a, .error e), sc') := by
  unfold start
  rw [Turn.run_get_bind]
  split
  next h => exact absurd (h.symm.trans hs) (by decide)
  next h => exact absurd (h.symm.trans hs) (by decide)
  next =>
    have ht := run_transact (rt.limited sc)
      (fun rt => do let rt ← rt.execute spawn rt.tree.initialPlan none; settleAll spawn none rt [])
      (TurnE.Runs.bind hexec hsettle)
    unfold limited at ht
    rw [Turn.run_bind, ht]
    rcases r with e | ⟨q, records⟩ <;> rfl

theorem run_receive [Event E] {spawn : Spawner ν β E σ} {rt next : MachineActor C E σ} {event : E}
    {plan : Plan} {records : List Record} {sc sc₁ sc₂ sc' : Scope β E} {l l₁ l₂ l' : Ledger ν}
    {r : Except RuntimeError (MachineActor C E σ × List Record)} (hs : rt.status = .running)
    (hres : TurnE.Runs ({ rt with changed := false }.resolve (Trigger.ofEvent event) (some event))
      sc l (.ok (some plan)) sc₁ l₁)
    (htake : TurnE.Runs ({ rt with changed := false }.take spawn [] plan (some event)) sc₁ l₁
      (.ok (next, records)) sc₂ l₂)
    (hsettle : TurnE.Runs (settleAll spawn (some event) next records) sc₂ l₂ r sc' l') :
    (((rt.receive spawn event).run sc).run l).1 = ({ rt with changed := false }.concluded r, sc') := by
  unfold receive
  rw [Turn.run_get_bind, if_neg (by simp [hs])]
  exact run_transact _ _ (TurnE.Runs.bind hres (TurnE.Runs.bind htake hsettle))

/-- The macrostep of an actor: starting it, or receiving an event. -/
def macrostep [Event E] (spawn : Spawner ν β E σ) (rt : MachineActor C E σ) :
    Option E → Turn ν β E (MachineActor C E σ × Except RuntimeError Unit)
  | none => rt.start spawn
  | some event => rt.receive spawn event

/-- The macrostep of `rt` for `event` gets through its opening to `p`, where its
eventless transitions begin. -/
def Opens [Event E] (spawn : Spawner ν β E σ) (rt : MachineActor C E σ) :
    Option E → Scope β E → Ledger ν → Point ν β C E σ → Prop
  | none, sc, l, p => rt.status = .notStarted ∧ p.records = [] ∧
      TurnE.Runs ((rt.limited sc).execute spawn rt.tree.initialPlan none) sc l (.ok p.actor)
        p.scope p.ledger
  | some event, sc, l, p => rt.status = .running ∧ ∃ plan sc₁ l₁,
      TurnE.Runs ({ rt with changed := false }.resolve (Trigger.ofEvent event) (some event))
        sc l (.ok (some plan)) sc₁ l₁ ∧
      TurnE.Runs ({ rt with changed := false }.take spawn [] plan (some event)) sc₁ l₁
        (.ok (p.actor, p.records)) p.scope p.ledger

/-- A macrostep whose eventless run stops within `maxEventlessSteps` succeeds
with the actor that run reaches; one that has a transition left after the budget
fails with `eventlessLoop` and hands back the actor. -/
theorem eventless_bound [Event E] {spawn : Spawner ν β E σ} {rt : MachineActor C E σ}
    {event : Option E} {sc : Scope β E} {l : Ledger ν} {p q : Point ν β C E σ} {n : Nat}
    (hopen : Opens spawn rt event sc l p) (hdrain : Drains spawn event n p q) :
    (∀ sc' l', Stops event q sc' l' → n ≤ p.scope.options.maxEventlessSteps →
      (((rt.macrostep spawn event).run sc).run l).1 =
        (({ q.actor with history := q.records.foldl History.record q.actor.history,
                         status := .running }, .ok ()), sc')) ∧
    (∀ plan sc' l', n = p.scope.options.maxEventlessSteps → Continues event q plan sc' l' →
      ∃ rt', (((rt.macrostep spawn event).run sc).run l).1 =
          ((rt', .error (.eventlessLoop plan.source n)), sc') ∧
        rt'.context = rt.context ∧ rt'.configuration = rt.configuration ∧ rt'.done = rt.done ∧
        rt'.changed = false) := by
  cases event with
  | none =>
    obtain ⟨hs, hrec, hexec⟩ := hopen
    have hsettle : ∀ {r sc' l'}, TurnE.Runs (settle spawn p.scope.options.maxEventlessSteps none
        p.scope.options.maxEventlessSteps p.actor p.records) p.scope p.ledger r sc' l' →
        TurnE.Runs (settleAll spawn none p.actor []) p.scope p.ledger r sc' l' := fun h =>
      runs_settleAll (hrec ▸ h)
    refine ⟨fun sc' l' hstop hn => ?_, fun plan sc' l' hn hmore => ?_⟩
    · exact run_start hs hexec (hsettle (settle_stops hdrain hstop _ hn))
    · subst hn
      exact ⟨{ rt.limited sc with changed := false },
        run_start hs hexec (hsettle (settle_continues hdrain hmore)), rfl, rfl, rfl, rfl⟩
  | some event =>
    obtain ⟨hs, plan₀, sc₁, l₁, hres, htake⟩ := hopen
    refine ⟨fun sc' l' hstop hn => ?_, fun plan sc' l' hn hmore => ?_⟩
    · rw [macrostep, run_receive hs hres htake (runs_settleAll (settle_stops hdrain hstop _ hn))]
      -- the transitions taken keep the status, which was running
      have hrun : q.actor.status = .running := by
        have h := (htake.returns (take_returns _ _ _ _ _)).1
        dsimp only at h
        rw [hdrain.status, h, adopt_status]
        exact hs
      rw [← hrun]
      rfl
    · subst hn
      exact ⟨{ rt with changed := false },
        run_receive hs hres htake (runs_settleAll (settle_continues hdrain hmore)), rfl, rfl, rfl, rfl⟩

/-- A machine whose one state has an unguarded targetless eventless candidate:
its eventless transitions never end. -/
def spin : Machine Unit Script.Signal Unit :=
  { tree := (StateTree.check ⟨{ id := some "spin", initial := some "a",
                                states := [("a", { always := [{}] })] }⟩).1
    guards := [], actions := [], context := (), warnings := [] }

/-- With a budget of no eventless transition, starting `spin` fails: the
eventless candidate of `spin.a` is enabled at once. -/
theorem spin_start_rejected :
    let sc : Scope Unit Script.Signal :=
      { actor := ⟨0, "spin"⟩, parent := none, children := [], hook := false,
        options := { maxEventlessSteps := 0 } }
    let spawn : Spawner Unit Unit Script.Signal Unit := fun _ _ => throw (.unknownMachine "")
    let rt := MachineActor.new spin ()
    let p : Point Unit Unit Unit Script.Signal Unit :=
      ⟨(rt.limited sc).adopt rt.tree.initialPlan (), [], sc, {}⟩
    let plan : Plan :=
      { source := "spin.a", trigger := .always, exit := [], enter := [], actions := [],
        target := none, value := ⟨["a"]⟩, configuration := [0, 1] }
    Opens spawn rt none sc {} p ∧ Drains spawn none 0 p p ∧ Continues none p plan sc {} ∧
      ∃ rt', (((rt.macrostep spawn none).run sc).run {}).1 =
          ((rt', .error (.eventlessLoop "spin.a" 0)), sc) ∧
        rt'.context = rt.context ∧ rt'.configuration = rt.configuration ∧ rt'.done = rt.done ∧
        rt'.changed = false := by
  intro sc spawn rt p plan
  have hopen : Opens spawn rt none sc {} p := ⟨rfl, rfl, by cbv⟩
  have hmore : Continues none p plan sc {} := ⟨by cbv, by cbv⟩
  exact ⟨hopen, .refl p, hmore, (eventless_bound hopen (.refl p)).2 plan sc {} rfl hmore⟩

end MachineActor

end Statechart
