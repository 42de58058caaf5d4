import Statechart.Proofs.Actor.Records
import Statechart.Proofs.Actor.RootSteps
/-!
# The history of the root

Across a whole session the root's history holds the last `historyLimit`
records that its successful macrosteps left, in the order they were
committed, following one another up to the root's current value
(`Interpreter.history_keeps_last_records`).

`Logged L log rt` is a life of `rt`: the records `log` its successful
macrosteps left, its starts run under history limit `L`. Every life leaves its
last `L` records in the history (`Logged.recorded`), and the root of every
interpreter has one, since no call changes the options (`Interpreter.root_logged`).
-/
namespace Statechart

theorem Linked.rtake {log : List Record} {v : StateValue} (h : Linked log v) (L : Nat) :
    Linked (log.rtake L) v := by
  refine ⟨h.1.drop _, fun r hr => h.2 r ?_⟩
  rw [List.rtake, List.getLast?_drop] at hr
  split at hr
  · simp at hr
  · exact hr

namespace MachineActor

variable {ν β C E σ : Type}

/-- What a life leaves in an actor: its history holds the last `L` records of
the life, the records follow one another up to the current value, a fresh
actor has none, and a running one keeps `L` records. -/
structure Recorded (L : Nat) (log : List Record) (rt : MachineActor C E σ) : Prop where
  records : rt.history.records = log.rtake L
  linked : Linked log rt.value
  fresh : rt.status = .notStarted → log = []
  limit : rt.status = .running → rt.history.limit = L

namespace Recorded

variable {L : Nat} {log rs : List Record} {rt next : MachineActor C E σ}

theorem start (h : Recorded L log rt) (hs : rt.status = .notStarted)
    (he : EntersWith { rt with history := rt.history.setLimit L } rs next) :
    Recorded L (log ++ rs)
      { next with history := rs.foldl History.record next.history, status := .running } := by
  have hlog : log = [] := h.fresh hs
  subst hlog
  obtain ⟨-, hhist⟩ := he.keeps
  -- the history was empty, and is still empty once cut to `L`
  have hempty : rt.history.records = [] := by rw [h.records, List.rtake_nil]
  have hL : next.history.limit = L := by rw [hhist]; rfl
  have hcut : next.history.records = ([] : List Record).rtake L := by
    simp [hhist, History.setLimit, hempty]
  obtain ⟨hrec, hlim⟩ := History.records_foldl_record rs hL hcut
  refine ⟨hrec, ?_, (fun hn => by cases hn), fun _ => hlim⟩
  rw [List.nil_append]
  exact he.linked

end Recorded

variable [Event E]

/-- `rt` comes from a fresh actor by the macrosteps of its life, and `log`
lists the records its successful macrosteps left, in order; its starts run
in a scope whose history limit is `L`. -/
inductive Logged (L : Nat) : List Record → MachineActor C E σ → Prop
  | new (m : Machine C E σ) (context : C) : Logged L [] (MachineActor.new m context)
  | start {log rs : List Record} {rt next : MachineActor C E σ} :
      Logged L log rt → rt.status = .notStarted →
      EntersWith { rt with history := rt.history.setLimit L } rs next →
      Logged L (log ++ rs)
        { next with history := rs.foldl History.record next.history, status := .running }
  | startFails {log : List Record} {rt : MachineActor C E σ} :
      Logged L log rt → rt.status = .notStarted →
      Logged L log { rt with history := rt.history.setLimit L, changed := false }
  | receive {log rs : List Record} {rt next : MachineActor C E σ} {event : E} :
      Logged L log rt → rt.status = .running →
      HandlesWith event { rt with changed := false } rs next →
      Logged L (log ++ rs) { next with history := rs.foldl History.record next.history }
  | receiveFails {log : List Record} {rt : MachineActor C E σ} :
      Logged L log rt → rt.status = .running → Logged L log { rt with changed := false }
  | stop {log : List Record} {rt : MachineActor C E σ} : Logged L log rt → Logged L log rt.stop

namespace Recorded

variable {L : Nat} {log rs : List Record} {rt next : MachineActor C E σ}

theorem receive {event : E} (h : Recorded L log rt) (hs : rt.status = .running)
    (hh : HandlesWith event { rt with changed := false } rs next) :
    Recorded L (log ++ rs) { next with history := rs.foldl History.record next.history } := by
  obtain ⟨hst, hhist⟩ := hh.keeps
  have hL : next.history.limit = L := by rw [hhist]; exact h.limit hs
  obtain ⟨hrec, hlim⟩ := History.records_foldl_record rs hL (by rw [hhist]; exact h.records)
  have hrun : next.status = .running := by rw [hst]; exact hs
  refine ⟨hrec, hh.linked h.linked, fun hn => ?_, fun _ => hlim⟩
  cases hrun.symm.trans hn

end Recorded

/-- Whatever life led to an actor, its history holds the last `L` records of
that life, and these follow one another up to the actor's value. -/
theorem Logged.recorded {L : Nat} {log : List Record} {rt : MachineActor C E σ}
    (h : Logged L log rt) : Recorded L log rt := by
  induction h with
  | new m context =>
    exact ⟨(List.rtake_nil (n := L)).symm, linked_nil _, fun _ => rfl, fun hr => by cases hr⟩
  | start _ hs he ih => exact ih.start hs he
  | startFails _ hs ih =>
    -- a fresh actor's history is empty, and cutting it changes nothing
    have hempty : _ = [] := ih.fresh hs
    subst hempty
    refine ⟨?_, ih.linked, fun _ => rfl, fun hr => by cases hs.symm.trans hr⟩
    simp [History.setLimit, ih.records]
  | receive _ hs hh ih => exact ih.receive hs hh
  | receiveFails _ _ ih => exact ⟨ih.records, ih.linked, ih.fresh, ih.limit⟩
  | stop _ ih => exact ⟨ih.records, ih.linked, (fun hn => by cases hn), fun hr => by cases hr⟩

variable {L : Nat} {log : List Record} {rt : MachineActor C E σ}

theorem Logged.run_start (h : Logged L log rt) (spawn : Spawner ν β E σ) {sc : Scope β E}
    (hL : sc.options.historyLimit = L) (l : Ledger ν) :
    ∃ log', Logged L log' (((rt.start spawn).run sc).run l).1.1.1 := by
  obtain ⟨herr, hok⟩ := start_records spawn rt sc l
  rw [hL] at herr hok
  cases hres : (((rt.start spawn).run sc).run l).1.1.2 with
  | error e =>
    rcases herr e hres with ⟨-, hp⟩ | ⟨hs, hp⟩
    · exact ⟨log, by rw [hp]; exact h⟩
    · exact ⟨log, by rw [hp]; exact .startFails h hs⟩
  | ok u =>
    obtain ⟨hs, rs, next, he, hp⟩ := hok hres
    exact ⟨log ++ rs, by rw [hp]; exact .start h hs he⟩

theorem Logged.run_receive (h : Logged L log rt) (spawn : Spawner ν β E σ) (event : E)
    (sc : Scope β E) (l : Ledger ν) :
    ∃ log', Logged L log' (((rt.receive spawn event).run sc).run l).1.1.1 := by
  obtain ⟨herr, hok⟩ := receive_records spawn rt event sc l
  cases hres : (((rt.receive spawn event).run sc).run l).1.1.2 with
  | error e =>
    rcases herr e hres with ⟨-, hp⟩ | ⟨hs, hp⟩
    · exact ⟨log, by rw [hp]; exact h⟩
    · exact ⟨log, by rw [hp]; exact .receiveFails h hs⟩
  | ok u =>
    obtain ⟨hs, rs, next, hh, hp⟩ := hok hres
    exact ⟨log ++ rs, by rw [hp]; exact .receive h hs hh⟩

end MachineActor

namespace Interpreter

variable {C E σ β : Type} [Event E]

theorem keeps_logged (n : Nursery C E σ β) :
    Keeps n fun i => ∃ log, MachineActor.Logged i.system.options.historyLimit log i.root where
  system _ _ h hs := by
    rw [hs]
    exact h
  observers _ _ _ h := h
  rootStart i l := fun ⟨_, h⟩ => h.run_start n.spawn rfl l
  rootReceive i event l := fun ⟨_, h⟩ _ => h.run_receive n.spawn event _ l
  rootStop _ := fun ⟨log, h⟩ => ⟨log, h.stop⟩

/-- The root of every interpreter that public calls lead to has a life whose
starts ran with the interpreter's history limit. -/
theorem root_logged (n : Nursery C E σ β) {i : Interpreter C E σ β} (h : Reachable n i) :
    ∃ log, MachineActor.Logged i.system.options.historyLimit log i.root := by
  refine (keeps_logged n).reachable (fun m context clock hook options l => ?_) h
  rw [new_run]
  exact ⟨[], .new m context⟩

/-- Over any run of calls the root's history holds the last `historyLimit`
records its successful macrosteps left, in order: one for each transition with a
target. -/
theorem history_keeps_last_records (n : Nursery C E σ β) {i : Interpreter C E σ β}
    (h : Reachable n i) :
    (∃ log, MachineActor.Logged i.system.options.historyLimit log i.root) ∧
      ∀ log, MachineActor.Logged i.system.options.historyLimit log i.root →
        i.root.history.records = log.rtake i.system.options.historyLimit ∧
        i.root.history.records.IsChain (fun r r' => r'.source = r.target) ∧
        ∀ r ∈ i.root.history.records.getLast?, r.target = i.root.value := by
  refine ⟨root_logged n h, fun log hl => ?_⟩
  have hr := hl.recorded
  have hlinked := hr.linked.rtake i.system.options.historyLimit
  rw [← hr.records] at hlinked
  exact ⟨hr.records, hlinked.1, hlinked.2⟩

end Interpreter

/-- With room for two records, the third move of the cycle session pushes out
the oldest record, and the targetless and refused sends after it add nothing. -/
theorem cycle_session_history :
    ∃ m, MachineBuilder.cycle.build = .ok m ∧
      (cycleSession m 3).root.history.records.map (fun r => (r.source.path, r.target.path)) =
        [(["a"], ["b"]), (["b"], ["c"])] ∧
      (cycleSession m 6).root.history.records.map (fun r => (r.source.path, r.target.path)) =
        [(["b"], ["c"]), (["c"], ["a"])] ∧
      (cycleSession m 6).system.options.historyLimit = 2 ∧
      Interpreter.Reachable (Script.nursery []) (cycleSession m 6) ∧
      (∃ log, MachineActor.Logged (cycleSession m 6).system.options.historyLimit log
        (cycleSession m 6).root) ∧
      ∀ log, MachineActor.Logged (cycleSession m 6).system.options.historyLimit log
          (cycleSession m 6).root →
        (cycleSession m 6).root.history.records = log.rtake (cycleSession m 6).system.options.historyLimit ∧
        (cycleSession m 6).root.history.records.IsChain (fun r r' => r'.source = r.target) ∧
        ∀ r ∈ (cycleSession m 6).root.history.records.getLast?, r.target = (cycleSession m 6).root.value := by
  have hrun : MachineBuilder.cycle.build.map (fun m =>
      ((cycleSession m 3).root.history.records.map (fun r => (r.source.path, r.target.path)),
        (cycleSession m 6).root.history.records.map (fun r => (r.source.path, r.target.path)),
        (cycleSession m 6).system.options.historyLimit)) =
      .ok ([(["a"], ["b"]), (["b"], ["c"])], [(["b"], ["c"]), (["c"], ["a"])], 2) := by
    cbv
  cases hb : MachineBuilder.cycle.build with
  | ok m =>
    rw [hb] at hrun
    simp only [Except.map, Except.ok.injEq, Prod.mk.injEq] at hrun
    have h := cycleSession_reachable m 6
    exact ⟨m, rfl, hrun.1, hrun.2.1, hrun.2.2, h, Interpreter.history_keeps_last_records _ h⟩
  | error e =>
    rw [hb] at hrun
    cases hrun

end Statechart
