import Mathlib
import Statechart.Proofs.Machine.Built
/-!
# Resolution is a first-match scan

Resolution walks the active states from the leaf up and, in each, the
candidates for the trigger in declaration order: one scan (`scan`) in which
the first candidate whose guard does not answer `false` decides. Only the
guards up to it are evaluated, each once and in order, and each answer is
reported. `Decides` states this outcome without running anything, with one
outcome for every scan (`Decides.unique`), and resolution computes it
(`select_eq_iff_decides`, `MachineBuilder.select_decides`).
-/
namespace Statechart

variable {C E : Type}

/-- What evaluating the guard `g` gives: the registered guard's answer, or the
error of a guard without an implementation. -/
def guardVerdict (guards : String → Option (Guard C E)) (context : C) (event : Option E)
    (g : String) : Except String Bool :=
  match guards g with
  | some guard => guard context event
  | none => .error s!"no implementation for guard '{g}'"

/-- What a candidate answers: its guard's verdict, or `true` when it has no guard. -/
def Candidate.verdict (guards : String → Option (Guard C E)) (context : C) (event : Option E)
    (c : Candidate) : Except String Bool :=
  match c.guard with
  | none => .ok true
  | some g => guardVerdict guards context event g

namespace StateTree

section Scan

variable (t : StateTree) (guards : String → Option (Guard C E)) (context : C)
  (event : Option E) (configuration : List Nat) (trigger : Trigger)

/-- The candidates resolution scans for a trigger: the active states from the
leaf up, each with its candidates in declaration order. -/
def scan : List (Nat × Candidate) :=
  configuration.reverse.flatMap fun n => ((t.node n).candidates trigger).map fun c => (n, c)

/-- The check reported for a scanned candidate whose guard answered `holds`;
none for a candidate without a guard. -/
def report (e : Nat × Candidate) (holds : Bool) : List GuardCheck :=
  match e.2.guard with
  | none => []
  | some g => [⟨(t.node e.1).id, g, holds⟩]

/-- Resolution run as one scan over a list of candidates, each with its state. -/
def scanFirst :
    List (Nat × Candidate) → List GuardCheck → List GuardCheck × Except RuntimeError (Option Plan)
  | [], checks => (checks, .ok none)
  | (n, c) :: rest, checks =>
    match c.guard with
    | none => (checks, .ok (some (t.plan configuration n trigger c)))
    | some g =>
      match guardVerdict guards context event g with
      | .error message => (checks, .error (.guard (t.node n).id g message))
      | .ok holds =>
        if holds then
          (checks ++ [⟨(t.node n).id, g, true⟩], .ok (some (t.plan configuration n trigger c)))
        else scanFirst rest (checks ++ [⟨(t.node n).id, g, false⟩])

/-- How a scan ends: every guard answers `false` and nothing is selected, or the
first candidate not answering `false` decides, enabled or with its guard's
error. -/
inductive Decides :
    List (Nat × Candidate) → List GuardCheck → Except RuntimeError (Option Plan) → Prop
  | none {entries : List (Nat × Candidate)} :
      (∀ e ∈ entries, e.2.verdict guards context event = .ok false) →
      Decides entries (entries.flatMap (t.report · false)) (.ok none)
  | enabled {passed rest : List (Nat × Candidate)} {x : Nat × Candidate} :
      (∀ e ∈ passed, e.2.verdict guards context event = .ok false) →
      x.2.verdict guards context event = .ok true →
      Decides (passed ++ x :: rest) (passed.flatMap (t.report · false) ++ t.report x true)
        (.ok (some (t.plan configuration x.1 trigger x.2)))
  | fails {passed rest : List (Nat × Candidate)} {x : Nat × Candidate} {g message : String} :
      (∀ e ∈ passed, e.2.verdict guards context event = .ok false) →
      x.2.guard = some g → guardVerdict guards context event g = .error message →
      Decides (passed ++ x :: rest) (passed.flatMap (t.report · false))
        (.error (.guard (t.node x.1).id g message))

end Scan

variable {t : StateTree} {guards : String → Option (Guard C E)} {context : C}
  {event : Option E} {configuration : List Nat} {trigger : Trigger}

theorem mem_scan {e : Nat × Candidate} :
    e ∈ t.scan configuration trigger ↔
      e.1 ∈ configuration ∧ e.2 ∈ (t.node e.1).candidates trigger := by
  obtain ⟨n, c⟩ := e
  simp only [scan, List.mem_flatMap, List.mem_reverse, List.mem_map, Prod.mk.injEq]
  constructor
  · rintro ⟨m, hm, c', hc', rfl, rfl⟩
    exact ⟨hm, hc'⟩
  · rintro ⟨hn, hc⟩
    exact ⟨n, hn, c, hc, rfl, rfl⟩

/-- A candidate is passed over exactly when it is guarded and its guard answers `false`. -/
theorem verdict_eq_false_iff {c : Candidate} :
    c.verdict guards context event = .ok false ↔
      ∃ g, c.guard = some g ∧ guardVerdict guards context event g = .ok false := by
  unfold Candidate.verdict
  split <;> simp_all

/-! ## The outcome of a scan

`Decides` is built one candidate at a time, as the scan meets them. -/

namespace Decides

theorem head_enabled {x : Nat × Candidate} {rest : List (Nat × Candidate)}
    (hx : x.2.verdict guards context event = .ok true) :
    t.Decides guards context event configuration trigger (x :: rest) (t.report x true)
      (.ok (some (t.plan configuration x.1 trigger x.2))) :=
  have h : t.Decides guards context event configuration trigger ([] ++ x :: rest)
      (([] : List (Nat × Candidate)).flatMap (t.report · false) ++ t.report x true) _ :=
    .enabled (fun _ he => absurd he List.not_mem_nil) hx
  h

theorem head_fails {x : Nat × Candidate} {rest : List (Nat × Candidate)} {g message : String}
    (hg : x.2.guard = some g) (hv : guardVerdict guards context event g = .error message) :
    t.Decides guards context event configuration trigger (x :: rest) []
      (.error (.guard (t.node x.1).id g message)) :=
  have h : t.Decides guards context event configuration trigger ([] ++ x :: rest)
      (([] : List (Nat × Candidate)).flatMap (t.report · false)) _ :=
    .fails (fun _ he => absurd he List.not_mem_nil) hg hv
  h

theorem cons_passed {e : Nat × Candidate} {entries : List (Nat × Candidate)}
    {found : List GuardCheck} {result : Except RuntimeError (Option Plan)}
    (he : e.2.verdict guards context event = .ok false)
    (h : t.Decides guards context event configuration trigger entries found result) :
    t.Decides guards context event configuration trigger (e :: entries)
      (t.report e false ++ found) result := by
  cases h with
  | none hall =>
    have h : t.Decides guards context event configuration trigger (e :: entries)
        ((e :: entries).flatMap (t.report · false)) (.ok .none) :=
      .none (List.forall_mem_cons.2 ⟨he, hall⟩)
    simpa only [List.flatMap_cons] using h
  | @enabled passed rest x hpassed hx =>
    have h : t.Decides guards context event configuration trigger ((e :: passed) ++ x :: rest)
        ((e :: passed).flatMap (t.report · false) ++ t.report x true) _ :=
      .enabled (List.forall_mem_cons.2 ⟨he, hpassed⟩) hx
    simpa only [List.cons_append, List.flatMap_cons, List.append_assoc] using h
  | @fails passed rest x g message hpassed hg hv =>
    have h : t.Decides guards context event configuration trigger ((e :: passed) ++ x :: rest)
        ((e :: passed).flatMap (t.report · false)) _ :=
      .fails (List.forall_mem_cons.2 ⟨he, hpassed⟩) hg hv
    simpa only [List.cons_append, List.flatMap_cons] using h

end Decides

/-! ## The scan computes the outcome -/

/-- Every scan reaches an outcome, and reports its checks after those already made. -/
theorem scanFirst_decides :
    ∀ (entries : List (Nat × Candidate)) (checks : List GuardCheck),
      ∃ found result,
        t.scanFirst guards context event configuration trigger entries checks =
          (checks ++ found, result) ∧
        t.Decides guards context event configuration trigger entries found result
  | [], checks => ⟨[], .ok none, by simp [scanFirst], .none (fun _ he => absurd he List.not_mem_nil)⟩
  | (n, c) :: rest, checks => by
    cases hg : c.guard with
    | none =>
      exact ⟨_, _, by simp [scanFirst, report, hg],
        .head_enabled (by simp [Candidate.verdict, hg])⟩
    | some g =>
      cases hv : guardVerdict guards context event g with
      | error message => exact ⟨_, _, by simp [scanFirst, hg, hv], .head_fails hg hv⟩
      | ok holds =>
        cases holds with
        | true =>
          exact ⟨_, _, by simp [scanFirst, report, hg, hv],
            .head_enabled (by simp [Candidate.verdict, hg, hv])⟩
        | false =>
          -- the candidate is passed over: the rest of the scan decides
          obtain ⟨found, result, hrun, hdec⟩ :=
            scanFirst_decides rest (checks ++ [⟨(t.node n).id, g, false⟩])
          refine ⟨_, result, ?_, hdec.cons_passed (by simp [Candidate.verdict, hg, hv])⟩
          simp [scanFirst, report, hg, hv, hrun]

theorem scanFirst_append_passed {rest : List (Nat × Candidate)} :
    ∀ {passed : List (Nat × Candidate)} (checks : List GuardCheck),
      (∀ e ∈ passed, e.2.verdict guards context event = .ok false) →
      t.scanFirst guards context event configuration trigger (passed ++ rest) checks =
        t.scanFirst guards context event configuration trigger rest
          (checks ++ passed.flatMap (t.report · false))
  | [], checks, _ => by simp
  | (n, c) :: passed, checks, hpassed => by
    obtain ⟨g, hg, hv⟩ := verdict_eq_false_iff.1 (hpassed (n, c) List.mem_cons_self)
    simp only at hg
    rw [List.cons_append, scanFirst, hg]
    simp only [hv, Bool.false_eq_true, if_false]
    rw [scanFirst_append_passed _ fun e he => hpassed e (List.mem_cons_of_mem _ he)]
    simp [report, hg]

theorem Decides.scanFirst_eq {entries : List (Nat × Candidate)} {found : List GuardCheck}
    {result : Except RuntimeError (Option Plan)}
    (h : t.Decides guards context event configuration trigger entries found result)
    (checks : List GuardCheck) :
    t.scanFirst guards context event configuration trigger entries checks =
      (checks ++ found, result) := by
  cases h with
  | none hall =>
    have h : t.scanFirst guards context event configuration trigger (entries ++ []) checks = _ :=
      scanFirst_append_passed checks hall
    simpa [scanFirst] using h
  | @enabled passed rest x hpassed hx =>
    obtain ⟨n, c⟩ := x
    rw [scanFirst_append_passed checks hpassed]
    cases hg : c.guard with
    | none => simp [scanFirst, report, hg]
    | some g =>
      have hv : guardVerdict guards context event g = .ok true := by
        simpa [Candidate.verdict, hg] using hx
      simp [scanFirst, report, hg, hv]
  | @fails passed rest x g message hpassed hg hv =>
    obtain ⟨n, c⟩ := x
    rw [scanFirst_append_passed checks hpassed]
    simp only at hg
    simp [scanFirst, hg, hv]

/-- A scan has one outcome. -/
theorem Decides.unique {entries : List (Nat × Candidate)} {found found' : List GuardCheck}
    {result result' : Except RuntimeError (Option Plan)}
    (h : t.Decides guards context event configuration trigger entries found result)
    (h' : t.Decides guards context event configuration trigger entries found' result') :
    found = found' ∧ result = result' := by
  have e := (h.scanFirst_eq []).symm.trans (h'.scanFirst_eq [])
  simpa using e

/-- Nothing is selected exactly when every scanned candidate is passed over. -/
theorem Decides.result_eq_none_iff {entries : List (Nat × Candidate)} {found : List GuardCheck}
    {result : Except RuntimeError (Option Plan)}
    (h : t.Decides guards context event configuration trigger entries found result) :
    result = .ok .none ↔ ∀ e ∈ entries, e.2.verdict guards context event = .ok false := by
  cases h with
  | none hall => exact ⟨fun _ => hall, fun _ => rfl⟩
  | @enabled passed rest x hpassed hx =>
    refine ⟨by rintro ⟨⟩, fun hall => ?_⟩
    have hfalse := hall x (by simp)
    rw [hx] at hfalse
    cases hfalse
  | @fails passed rest x g message hpassed hg hv =>
    refine ⟨by rintro ⟨⟩, fun hall => ?_⟩
    have hfalse := hall x (by simp)
    simp [Candidate.verdict, hg, hv] at hfalse

/-! ## Resolution is the scan -/

theorem firstEnabled_cons_of_guard {state : String} {c : Candidate} {cs : List Candidate}
    {checks : List GuardCheck} {g : String} (hg : c.guard = some g) :
    firstEnabled guards context event state (c :: cs) checks =
      match guardVerdict guards context event g with
      | .error message => (checks, .error (.guard state g message))
      | .ok holds =>
        if holds then (checks ++ [⟨state, g, holds⟩], .ok (some c))
        else firstEnabled guards context event state cs (checks ++ [⟨state, g, holds⟩]) := by
  simp only [firstEnabled, hg]
  rfl

/-- The candidates of one state, put in front of the rest of a scan, are
tried as the search within that state tries them. -/
theorem scanFirst_state_append (n : Nat) (rest : List (Nat × Candidate)) :
    ∀ (cs : List Candidate) (checks : List GuardCheck),
      t.scanFirst guards context event configuration trigger (cs.map (fun c => (n, c)) ++ rest)
          checks =
        match firstEnabled guards context event (t.node n).id cs checks with
        | (checks, .error e) => (checks, .error e)
        | (checks, .ok (some c)) => (checks, .ok (some (t.plan configuration n trigger c)))
        | (checks, .ok none) => t.scanFirst guards context event configuration trigger rest checks
  | [], checks => by simp [firstEnabled]
  | c :: cs, checks => by
    cases hg : c.guard with
    | none => simp [scanFirst, firstEnabled, hg]
    | some g =>
      rw [List.map_cons, List.cons_append, scanFirst, hg, firstEnabled_cons_of_guard hg]
      dsimp only
      cases guardVerdict guards context event g with
      | error message => rfl
      | ok holds =>
        cases holds with
        | true => rfl
        | false => exact scanFirst_state_append n rest cs _

theorem select_go_eq_scanFirst :
    ∀ (ns : List Nat) (checks : List GuardCheck),
      select.go t guards configuration context event trigger ns checks =
        t.scanFirst guards context event configuration trigger
          (ns.flatMap fun n => ((t.node n).candidates trigger).map fun c => (n, c)) checks
  | [], checks => by simp [select.go, scanFirst]
  | n :: ns, checks => by
    rw [List.flatMap_cons, scanFirst_state_append, select.go]
    rcases firstEnabled guards context event (t.node n).id ((t.node n).candidates trigger) checks
      with ⟨found, _ | _ | c⟩
    · rfl
    · exact select_go_eq_scanFirst ns found
    · rfl

theorem select_eq_scanFirst :
    t.select guards configuration context event trigger =
      t.scanFirst guards context event configuration trigger (t.scan configuration trigger) [] :=
  select_go_eq_scanFirst _ []

/-- Resolution returns exactly the outcome `Decides` describes for the scan. -/
theorem select_eq_iff_decides {found : List GuardCheck} {result : Except RuntimeError (Option Plan)} :
    t.select guards configuration context event trigger = (found, result) ↔
      t.Decides guards context event configuration trigger (t.scan configuration trigger) found
        result := by
  rw [select_eq_scanFirst]
  constructor
  · intro hrun
    obtain ⟨found', result', hrun', hdec⟩ := scanFirst_decides (t.scan configuration trigger) []
    rw [hrun, List.nil_append, Prod.mk.injEq] at hrun'
    obtain ⟨rfl, rfl⟩ := hrun'
    exact hdec
  · intro hdec
    simpa using hdec.scanFirst_eq []

/-- In a tree whose guards are all implemented, every guard the scan meets is
implemented, and its answer is the implementation's result. -/
theorem Registered.guardVerdict_of_mem_scan {hasAction : String → Bool}
    (hreg : t.Registered (fun g => (guards g).isSome) hasAction) {e : Nat × Candidate}
    (he : e ∈ t.scan configuration trigger) {g : String} (hg : e.2.guard = some g) :
    ∃ guard, guards g = some guard ∧ guardVerdict guards context event g = guard context event := by
  obtain ⟨guard, hguard⟩ := Option.isSome_iff_exists.1 (hreg.guard (mem_scan.1 he).2 hg)
  exact ⟨guard, hguard, by simp [guardVerdict, hguard]⟩

end StateTree

namespace MachineBuilder

variable {σ : Type}

open StateTree

/-- In a machine that builds, resolution returns exactly the outcome `Decides`
gives for the scan, with the checks it reports. -/
theorem select_decides {b : MachineBuilder C E σ} {mach : Machine C E σ} (h : b.build = .ok mach)
    (configuration : List Nat) (context : C) (event : Option E) (trigger : Trigger) :
    (∀ found result,
      mach.tree.select (lookup mach.guards) configuration context event trigger = (found, result) ↔
        mach.tree.Decides (lookup mach.guards) context event configuration trigger
          (mach.tree.scan configuration trigger) found result) ∧
      ((mach.tree.select (lookup mach.guards) configuration context event trigger).2 = .ok none ↔
        ∀ e ∈ mach.tree.scan configuration trigger,
          ∃ g, e.2.guard = some g ∧ guardVerdict (lookup mach.guards) context event g = .ok false) ∧
      (∀ e ∈ mach.tree.scan configuration trigger, ∀ g, e.2.guard = some g →
        ∃ guard, lookup mach.guards g = some guard ∧
          guardVerdict (lookup mach.guards) context event g = guard context event) := by
  have hdec := select_eq_iff_decides.1
    (Prod.mk.eta (p := mach.tree.select (lookup mach.guards) configuration context event trigger)).symm
  refine ⟨fun _ _ => select_eq_iff_decides, ?_,
    fun _ he _ hg => (registered_of_build_eq_ok h).guardVerdict_of_mem_scan he hg⟩
  rw [hdec.result_eq_none_iff]
  exact forall₂_congr fun _ _ => verdict_eq_false_iff

/-- A machine whose initial state offers for `GO` a guard that never passes, a
guard on the context, and an unguarded candidate. -/
def guardedChoice : MachineBuilder Nat Empty Empty :=
  { config := { root := { id := some "m", initial := some "idle",
                          states := [("idle", { on := [("GO", [{ target := some "x", guard := some "never" },
                                                               { target := some "y", guard := some "big" },
                                                               { target := some "z" }])] }),
                                     ("x", {}), ("y", {}), ("z", {})] } },
    context := 11,
    guards := [("never", fun _ _ => .ok false), ("big", fun n _ => .ok (decide (10 < n)))] }

/-- The machine with guarded choices builds, and resolution of its event from
the initial configuration is the first-match scan. -/
theorem guardedChoice_select_decides :
    ∃ mach : Machine Nat Empty Empty, guardedChoice.build = .ok mach ∧
      (∀ found result,
        mach.tree.select (lookup mach.guards) mach.tree.initialConfiguration 11 none (.event "GO") =
            (found, result) ↔
          mach.tree.Decides (lookup mach.guards) 11 none mach.tree.initialConfiguration (.event "GO")
            (mach.tree.scan mach.tree.initialConfiguration (.event "GO")) found result) ∧
      ((mach.tree.select (lookup mach.guards) mach.tree.initialConfiguration 11 none
          (.event "GO")).2 = .ok none ↔
        ∀ e ∈ mach.tree.scan mach.tree.initialConfiguration (.event "GO"),
          ∃ g, e.2.guard = some g ∧ guardVerdict (lookup mach.guards) 11 none g = .ok false) ∧
      (∀ e ∈ mach.tree.scan mach.tree.initialConfiguration (.event "GO"), ∀ g, e.2.guard = some g →
        ∃ guard, lookup mach.guards g = some guard ∧
          guardVerdict (lookup mach.guards) 11 none g = guard 11 none) := by
  have hok : guardedChoice.build.isOk = true := by cbv
  cases hb : guardedChoice.build with
  | ok mach => exact ⟨mach, rfl, select_decides hb _ _ _ _⟩
  | error e =>
    rw [hb] at hok
    cases hok

end MachineBuilder

end Statechart
