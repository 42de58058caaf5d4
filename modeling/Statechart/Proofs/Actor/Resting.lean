import Mathlib
import Statechart.Proofs.Actor.Configuration
import Statechart.Proofs.Actor.Rollback
import Statechart.Proofs.Machine.Lint
import Statechart.Proofs.Machine.Select
/-!
# Warning-free machines come to rest

The lint warns about a state whose eventless candidates end with a guarded one,
since the machine may then stay in a state it was declared to leave. Without
warnings every non-empty eventless list ends with an always enabled candidate,
so resolution finds nothing only where no state declares an eventless
candidate (`StateTree.always_eq_nil_of_select`). A successful macrostep ends
where settling stopped (`Rests`), so an actor of a warning-free machine that
runs and is not done holds no eventless candidate (`Reachable.quiet`,
`MachineBuilder.warning_free_rests`).
-/
namespace Statechart

/-! ## Resolution on a warning-free tree -/

namespace Node

/-- A node without a warning ends its eventless list, if it has one, with an
unguarded candidate. -/
theorem guard_eq_none_of_lint {n : Node} (h : n.lint = none) {last : Candidate}
    (hl : n.always.getLast? = some last) : last.guard = none := by
  unfold lint at h
  rw [hl] at h
  dsimp only at h
  split at h
  · cases h
  · exact Option.not_isSome_iff_eq_none.1 (by assumption)

end Node

namespace StateTree

variable {C E : Type}

theorem lint_node_eq_none {t : StateTree} (h : t.lint = []) (n : Nat) : (t.node n).lint = none := by
  unfold lint at h
  unfold node
  cases hn : t.nodes[n]? with
  | none => rfl
  | some x => exact List.filterMap_eq_nil_iff.1 h x (Array.mem_toList_iff.2 (Array.mem_of_getElem? hn))

/-- In a tree without warnings, eventless resolution finds nothing only on a
configuration none of whose states has an eventless candidate. -/
theorem always_eq_nil_of_select {t : StateTree} (hlint : t.lint = [])
    {guards : String → Option (Guard C E)} {c : List Nat} {context : C} {event : Option E}
    (h : (t.select guards c context event .always).2 = .ok none) :
    ∀ n ∈ c, (t.node n).candidates .always = [] := by
  have hdec := select_eq_iff_decides.1
    (Prod.ext rfl h : t.select guards c context event .always = (_, .ok none))
  have hall := hdec.result_eq_none_iff.1 rfl
  intro n hn
  cases hlast : ((t.node n).candidates .always).getLast? with
  | none => exact List.getLast?_eq_none_iff.1 hlast
  | some last =>
    have hguard : last.guard = none := Node.guard_eq_none_of_lint (lint_node_eq_none hlint n) hlast
    have hfalse := hall (n, last) (mem_scan.2 ⟨hn, List.mem_of_getLast? hlast⟩)
    simp [Candidate.verdict, hguard] at hfalse

end StateTree

namespace MachineActor

variable {ν β C E σ : Type}

/-! ## Where settling stops -/

/-- Where settling stops: the actor is done, or resolution enables no
eventless candidate. -/
def Rests (event : Option E) (rt : MachineActor C E σ) : Prop :=
  rt.done = true ∨ rt.picks event .always = .ok none

/-- No state of the actor's configuration declares an eventless candidate. -/
def NoEventless (rt : MachineActor C E σ) : Prop :=
  ∀ n ∈ rt.configuration, (rt.tree.node n).candidates .always = []

/-- An actor of a warning-free tree that rests and is not done has no
eventless candidate left in its configuration. -/
theorem Rests.noEventless {event : Option E} {rt : MachineActor C E σ} (hlint : rt.tree.lint = [])
    (h : rt.Rests event) (hd : rt.done = false) : rt.NoEventless := by
  rcases h with h | h
  · rw [hd] at h
    cases h
  · exact StateTree.always_eq_nil_of_select hlint h

theorem settle_rests (spawn : Spawner ν β E σ) (limit : Nat) (event : Option E)
    (remaining : Nat) (rt : MachineActor C E σ) (records : List Record) :
    TurnE.Returns (settle spawn limit event remaining rt records)
      fun p => p.1.Rests event := by
  -- settling returns only where it stops; running out of budget is a failure
  induction remaining generalizing rt records with
  | zero =>
    unfold settle
    split
    · exact .pure (.inl (by assumption))
    · refine (resolve_returns rt .always event).bind fun o ho => ?_
      cases o with
      | none => exact .pure (.inr ho)
      | some plan => exact .throw
  | succ r ih =>
    unfold settle
    split
    · exact .pure (.inl (by assumption))
    · refine (resolve_returns rt .always event).bind fun o ho => ?_
      cases o with
      | none => exact .pure (.inr ho)
      | some plan =>
        exact (take_returns spawn rt records plan event).bind fun q _ => ih q.1 q.2

theorem settleAll_rests (spawn : Spawner ν β E σ) (event : Option E) (rt : MachineActor C E σ)
    (records : List Record) :
    TurnE.Returns (settleAll spawn event rt records) fun p => p.1.Rests event := by
  unfold settleAll
  exact (TurnE.Returns.trivial _).bind fun _ _ => settle_rests spawn _ event _ rt records

theorem start_rests (spawn : Spawner ν β E σ) (rt : MachineActor C E σ) :
    Turn.Returns (rt.start spawn) fun p => p.2 = .ok () → p.1.Rests none := by
  unfold start
  refine (Turn.Returns.trivial _).bind fun s _ => ?_
  split
  · exact .pure fun h => by cases h
  · exact .pure fun h => by cases h
  · refine Turn.Returns.bind (transact_returns _ _ (fun p => p.1.Rests none) ?_) ?_
    · exact (execute_returns spawn _ _ none).bind fun rt' _ => settleAll_rests spawn none rt' []
    intro q hq
    obtain ⟨-, hok⟩ := hq
    rcases q with ⟨rt', outcome⟩
    cases outcome with
    | ok u =>
      obtain ⟨next, _, hn, hrt'⟩ := hok rfl
      refine .pure fun _ => ?_
      dsimp only at hrt' ⊢
      rw [hrt']
      exact hn
    | error e => exact .pure fun h => by cases h

/-- A receive that succeeds ends where settling stopped, or, when nothing
handles the event, where the actor was. -/
theorem receive_rests [Event E] (spawn : Spawner ν β E σ) (rt : MachineActor C E σ) (event : E) :
    Turn.Returns (rt.receive spawn event) fun p => p.2 = .ok () →
      p.1.Rests (some event) ∨ p.1 = { rt with changed := false, history := p.1.history } := by
  unfold receive
  refine (Turn.Returns.trivial _).bind fun s _ => ?_
  by_cases hs : rt.status = .running
  · rw [if_neg (by simp [hs])]
    let rt₁ := { rt with changed := false }
    refine Turn.Returns.mono
      (transact_returns rt₁ _ (fun p => p.1.Rests (some event) ∨ p.1 = rt₁) ?_) ?_
    · refine (resolve_returns rt₁ _ _).bind fun o _ => ?_
      cases o with
      | some plan =>
        refine (take_returns spawn rt₁ [] plan _).bind fun q _ => ?_
        exact (settleAll_rests spawn _ q.1 q.2).mono fun p hp => .inl hp
      | none => exact (TurnE.Returns.trivial _).bind fun _ _ => .pure (.inr rfl)
    intro q hq ho
    obtain ⟨-, hok⟩ := hq
    obtain ⟨next, _, hn, hrt'⟩ := hok ho
    rcases hn with hn | rfl
    · left
      rw [hrt']
      exact hn
    · exact .inr hrt'
  · rw [if_pos (by simpa using hs)]
    exact .pure fun h => by cases h

/-! ## Whole lives -/

theorem Settles.machine_eq {event : Option E} {rt rt' : MachineActor C E σ}
    (h : Settles event rt rt') : rt'.machine = rt.machine :=
  h.preserves (fun r => r.machine = rt.machine) (fun _ _ _ hr _ => hr) rfl

theorem Enters.machine_eq {rt next : MachineActor C E σ} (h : Enters rt next) :
    next.machine = rt.machine := by
  obtain ⟨context, hs⟩ := h
  exact hs.machine_eq

theorem Handles.machine_eq [Event E] {event : E} {rt next : MachineActor C E σ}
    (h : Handles event rt next) : next.machine = rt.machine := by
  rcases h with ⟨plan, context, _, hs⟩ | ⟨_, rfl⟩
  · exact hs.machine_eq
  · rfl

variable {m : Machine C E σ}

/-- The invariant of an actor of a warning-free machine `m`: while it runs and
is not done, no state of its configuration declares an eventless candidate. -/
def Quiet (m : Machine C E σ) (rt : MachineActor C E σ) : Prop :=
  rt.machine = m ∧ (rt.status = .running → rt.done = false → rt.NoEventless)

/-- Starting keeps the invariant. -/
theorem Quiet.start (hlint : m.tree.lint = []) (spawn : Spawner ν β E σ)
    {rt : MachineActor C E σ} (h : Quiet m rt) :
    Turn.Returns (rt.start spawn) fun p => Quiet m p.1 := by
  refine ((start_returns spawn rt).and (start_rests spawn rt)).mono fun p hp => ?_
  obtain ⟨⟨herr, hok⟩, hrest⟩ := hp
  cases hout : p.2 with
  | ok u =>
    obtain ⟨-, limit, next, henters, hp⟩ := hok hout
    have hm : p.1.machine = m := by
      rw [hp]
      exact henters.machine_eq.trans h.1
    refine ⟨hm, fun _ hd => (hrest hout).noEventless ?_ hd⟩
    rw [tree, hm]
    exact hlint
  | error e =>
    rcases herr e hout with ⟨-, hp⟩ | ⟨-, limit, hp⟩
    · rw [hp]
      exact h
    · rw [hp]
      exact h

/-- Receiving keeps the invariant. -/
theorem Quiet.receive [Event E] (hlint : m.tree.lint = []) (spawn : Spawner ν β E σ)
    {rt : MachineActor C E σ} (h : Quiet m rt) (event : E) :
    Turn.Returns (rt.receive spawn event) fun p => Quiet m p.1 := by
  refine ((receive_returns spawn rt event).and (receive_rests spawn rt event)).mono fun p hp => ?_
  obtain ⟨⟨herr, hok⟩, hrest⟩ := hp
  cases hout : p.2 with
  | ok u =>
    obtain ⟨hs, next, hhandles, hp⟩ := hok hout
    have hm : p.1.machine = m := by
      rw [hp]
      exact hhandles.machine_eq.trans h.1
    refine ⟨hm, fun _ hd => ?_⟩
    rcases hrest hout with hrest | hsame
    · refine hrest.noEventless ?_ hd
      rw [tree, hm]
      exact hlint
    · -- nothing handled the event: the actor was running with this configuration
      rw [hsame] at hd ⊢
      exact h.2 hs hd
  | error e =>
    rcases herr e hout with ⟨-, hp⟩ | ⟨-, hp⟩
    · rw [hp]
      exact h
    · rw [hp]
      exact h

theorem Quiet.candidates_always {rt : MachineActor C E σ} (h : Quiet m rt) (hs : rt.status = .running)
    (hd : rt.done = false) : ∀ n ∈ rt.configuration, (m.tree.node n).candidates .always = [] := by
  have hne := h.2 hs hd
  rw [NoEventless, tree, h.1] at hne
  exact hne

/-- Every actor of a warning-free machine keeps the invariant. -/
theorem Reachable.quiet [Event E] (hlint : m.tree.lint = []) {rt : MachineActor C E σ}
    (h : Reachable m rt) : Quiet m rt := by
  induction h with
  | new context => exact ⟨rfl, fun hs => by cases hs⟩
  | start spawn sc l _ ih => exact ih.start hlint spawn sc l
  | receive spawn event sc l _ ih => exact ih.receive hlint spawn event sc l
  | stop _ ih => exact ⟨ih.1, fun hs => by cases hs⟩

end MachineActor

namespace MachineBuilder

variable {C E σ : Type}

/-- A machine that builds without warnings never rests in a state it was
declared to leave eventlessly. -/
theorem warning_free_rests [Event E] {b : MachineBuilder C E σ} {mach : Machine C E σ}
    (h : b.build = .ok mach) (hw : mach.warnings = []) {rt : MachineActor C E σ}
    (hr : MachineActor.Reachable mach rt) {ν β : Type} (spawn : Spawner ν β E σ) :
    Turn.Returns (rt.start spawn) (fun p => p.2 = .ok () → p.1.done = false →
      ∀ n ∈ p.1.configuration, (mach.tree.node n).candidates .always = []) ∧
    ∀ event : E, Turn.Returns (rt.receive spawn event) (fun p => p.2 = .ok () →
      p.1.done = false → ∀ n ∈ p.1.configuration, (mach.tree.node n).candidates .always = []) := by
  have hlint : mach.tree.lint = [] := by
    rw [← warnings_of_build_eq_ok h]
    exact hw
  refine ⟨fun sc l hout hd => ?_, fun event sc l hout hd => ?_⟩
  · -- a start that succeeds leaves the actor running
    have hq := (hr.start spawn sc l).quiet hlint
    obtain ⟨-, hok⟩ := MachineActor.start_returns spawn rt sc l
    obtain ⟨-, limit, next, -, hp⟩ := hok hout
    have hs : (((rt.start spawn).run sc).run l).1.1.1.status = .running := by
      rw [hp]
    exact hq.candidates_always hs hd
  · -- a receive that succeeds was made by a running actor, and keeps it running
    have hq := (hr.receive spawn event sc l).quiet hlint
    obtain ⟨-, hok⟩ := MachineActor.receive_returns spawn rt event sc l
    obtain ⟨hrun, next, hhandles, hp⟩ := hok hout
    have hs : (((rt.receive spawn event).run sc).run l).1.1.1.status = .running := by
      rw [hp]
      exact hhandles.status_eq.trans hrun
    exact hq.candidates_always hs hd

/-- A machine whose initial state `a` has a guarded eventless candidate that
fails, then an unguarded one toward `b`. -/
def leavesAtOnce : MachineBuilder Unit Script.Signal Empty :=
  { config := { root := { id := some "m", initial := some "a",
                          states := [("a", { always := [{ target := some "c", guard := some "g" },
                                                        { target := some "b" }] }),
                                     ("b", {}), ("c", {})] } },
    context := (),
    guards := [("g", fun _ _ => .ok false)] }

/-- A scope for running `leavesAtOnce`'s actor by itself. -/
def soloScope : Scope Unit Script.Signal :=
  { actor := ⟨0, "m"⟩, parent := none, children := [], hook := false, options := {} }

def noSpawn : Spawner Unit Unit Script.Signal Empty := fun _ _ => throw (.unknownMachine "")

/-- Starting `leavesAtOnce` leaves `a` for `b` eventlessly and rests there; an
unhandled event leaves it there. -/
theorem leavesAtOnce_rests :
    ∃ mach : Machine Unit Script.Signal Empty, leavesAtOnce.build = .ok mach ∧ mach.warnings = [] ∧
      let p := ((((MachineActor.new mach ()).start noSpawn).run soloScope).run {}).1.1
      let q := (((p.1.receive noSpawn ⟨"X", []⟩).run soloScope).run {}).1.1
      p.2 = .ok () ∧ p.1.done = false ∧ p.1.configuration = [0, 2] ∧
        (∀ n ∈ p.1.configuration, (mach.tree.node n).candidates .always = []) ∧
      q.2 = .ok () ∧ q.1.done = false ∧ q.1.configuration = [0, 2] ∧
        ∀ n ∈ q.1.configuration, (mach.tree.node n).candidates .always = [] := by
  have hrun : leavesAtOnce.build.map (fun mach =>
      let p := ((((MachineActor.new mach ()).start noSpawn).run soloScope).run {}).1.1
      let q := (((p.1.receive noSpawn ⟨"X", []⟩).run soloScope).run {}).1.1
      (mach.warnings, p.2, p.1.done, p.1.configuration, q.2, q.1.done, q.1.configuration)) =
      .ok ([], .ok (), false, [0, 2], .ok (), false, [0, 2]) := by
    cbv
  cases hb : leavesAtOnce.build with
  | ok mach =>
    rw [hb] at hrun
    simp only [Except.map, Except.ok.injEq, Prod.mk.injEq] at hrun
    obtain ⟨hw, hout, hd, hconf, hout', hd', hconf'⟩ := hrun
    have hr : MachineActor.Reachable mach (MachineActor.new mach ()) := .new ()
    exact ⟨mach, rfl, hw, hout, hd, hconf, (warning_free_rests hb hw hr noSpawn).1 soloScope {} hout hd,
      hout', hd', hconf',
      (warning_free_rests hb hw (.start noSpawn soloScope {} hr) noSpawn).2 ⟨"X", []⟩ soloScope {}
        hout' hd'⟩
  | error e =>
    rw [hb] at hrun
    cases hrun

end MachineBuilder

end Statechart
