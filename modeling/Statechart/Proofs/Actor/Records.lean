import Mathlib
import Statechart.Proofs.Actor.Macrostep
import Statechart.Proofs.Tree.Chains
/-!
# The records a macrostep leaves

Each transition with a target leaves a record of the value it left, the value
it reached and its trigger (`recordOf`). They are written to the history only
once the macrostep has succeeded, and the history keeps the latest within its
limit (`History.records_foldl_record`). Records follow one another (`Linked`),
since a targetless plan keeps the configuration and any other reaches its own
value (`Linked.adopt`). `SettlesWith`, `start_records` and `receive_records`
restate each part of a macrostep with the records it leaves.
-/
namespace Statechart

namespace History

theorem records_record_of_rtake {L : Nat} {h : History} {log : List Record} (hl : h.limit = L)
    (hh : h.records = log.rtake L) (r : Record) : (h.record r).records = (log ++ [r]).rtake L := by
  subst hl
  unfold record
  cases hl : h.limit with
  | zero => simp [hh, hl]
  | succ k =>
    rw [if_neg (Nat.succ_ne_zero k), List.rtake_concat_succ]
    -- dropping down to `k` records of the last `k + 1` leaves the last `k`
    have hk : h.records.drop (h.records.length + 1 - (k + 1)) = log.rtake k := by
      rw [Nat.add_sub_add_right, ← List.rtake, hh, hl]
      simp only [List.rtake_eq_reverse_take_reverse, List.reverse_reverse, List.take_take]
      rw [Nat.min_eq_left (Nat.le_succ k)]
    rw [hk]

/-- A history of limit `L` holding the last `L` records of a log holds, after
more records, the last `L` of the longer log. -/
theorem records_foldl_record {L : Nat} :
    ∀ (rs : List Record) {log : List Record} {h : History}, h.limit = L → h.records = log.rtake L →
      (rs.foldl record h).records = (log ++ rs).rtake L ∧ (rs.foldl record h).limit = L
  | [], log, h, hl, hh => by simp [hh, hl]
  | r :: rs, log, h, hl, hh => by
    obtain ⟨hrec, hlim⟩ :=
      records_foldl_record rs ((limit_record h r).trans hl) (records_record_of_rtake hl hh r)
    rw [List.foldl_cons, hrec, hlim, List.append_assoc, List.singleton_append]
    exact ⟨rfl, rfl⟩

end History

/-- Records that follow one another and end in `v`: each starts at the value
the one before it reached, and the last one reaches `v`. -/
def Linked (log : List Record) (v : StateValue) : Prop :=
  log.IsChain (fun r r' => r'.source = r.target) ∧ ∀ r ∈ log.getLast?, r.target = v

theorem linked_nil (v : StateValue) : Linked [] v :=
  ⟨List.isChain_nil, fun _ h => by simp at h⟩

theorem Linked.snoc {log : List Record} {r : Record} (h : Linked log r.source) :
    Linked (log ++ [r]) r.target := by
  refine ⟨h.1.append (List.isChain_singleton r) fun x hx y hy => ?_, fun x hx => ?_⟩
  · rw [List.head?_singleton, Option.mem_some_iff] at hy
    subst hy
    exact (h.2 x hx).symm
  · rw [List.getLast?_concat, Option.mem_some_iff] at hx
    rw [hx]

namespace StateTree

variable {t : StateTree} {c : List Nat} {s : Nat} {trigger : Trigger} {cand : Candidate}

theorem plan_value : (t.plan c s trigger cand).value = t.value (t.plan c s trigger cand).configuration := by
  unfold plan
  split <;> rfl

theorem plan_configuration_of_targetless (h : (t.plan c s trigger cand).isTargetless = true) :
    (t.plan c s trigger cand).configuration = c := by
  unfold plan at h ⊢
  split
  · rfl
  · next ht => simp [ht, Plan.isTargetless] at h

end StateTree

namespace MachineActor

variable {ν β C E σ : Type}

/-- The record a taken plan leaves: none for a targetless plan; otherwise the
value left, the value reached and the trigger. -/
def recordOf (rt : MachineActor C E σ) (plan : Plan) : List Record :=
  if plan.isTargetless then []
  else [{ source := rt.value, target := plan.value, trigger := plan.trigger }]

end MachineActor

/-- Taking the plan resolution picks extends linked records by its record. -/
theorem Linked.adopt {C E σ : Type} {rt : MachineActor C E σ} {event : Option E}
    {trigger : Trigger} {plan : Plan} {log : List Record}
    (hp : rt.picks event trigger = .ok (some plan)) (h : Linked log rt.value) (context : C) :
    Linked (log ++ rt.recordOf plan) (rt.adopt plan context).value := by
  obtain ⟨s, -, cand, -, rfl⟩ := StateTree.select_plan (t := rt.tree) hp
  have hval : (rt.adopt (rt.tree.plan rt.configuration s trigger cand) context).value =
      rt.tree.value (rt.tree.plan rt.configuration s trigger cand).configuration := rfl
  unfold MachineActor.recordOf
  split
  · next ht =>
    rw [hval, StateTree.plan_configuration_of_targetless ht, List.append_nil]
    exact h
  · rw [hval, ← StateTree.plan_value]
    exact h.snoc

namespace MachineActor

variable {ν β C E σ : Type}

/-! ## Macrosteps with their records -/

/-- `rt` reaches `rt'` by eventless transitions, each the plan resolution
picks, and they leave the records `rs`. -/
inductive SettlesWith (event : Option E) :
    MachineActor C E σ → List Record → MachineActor C E σ → Prop
  | refl (rt : MachineActor C E σ) : SettlesWith event rt [] rt
  | step (rt : MachineActor C E σ) (plan : Plan) (context : C) (rs : List Record)
      (rt' : MachineActor C E σ) :
      rt.picks event .always = .ok (some plan) → SettlesWith event (rt.adopt plan context) rs rt' →
      SettlesWith event rt (rt.recordOf plan ++ rs) rt'

/-- The first transition of a macrostep and the eventless ones after it, with
their records. -/
def HandlesWith [Event E] (event : E) (rt : MachineActor C E σ) (rs : List Record)
    (next : MachineActor C E σ) : Prop :=
  (∃ plan context rs', rt.picks (some event) (Trigger.ofEvent event) = .ok (some plan) ∧
      SettlesWith (some event) (rt.adopt plan context) rs' next ∧ rs = rt.recordOf plan ++ rs') ∨
    (rt.picks (some event) (Trigger.ofEvent event) = .ok none ∧ next = rt ∧ rs = [])

/-- Entering the initial configuration, which leaves no record, and the
eventless transitions after it, with their records. -/
def EntersWith (rt : MachineActor C E σ) (rs : List Record) (next : MachineActor C E σ) : Prop :=
  ∃ context, SettlesWith none (rt.adopt rt.tree.initialPlan context) rs next

namespace SettlesWith

variable {event : Option E} {rt rt' : MachineActor C E σ} {rs : List Record}

theorem keeps (h : SettlesWith event rt rs rt') : rt'.status = rt.status ∧ rt'.history = rt.history := by
  induction h with
  | refl => exact ⟨rfl, rfl⟩
  | step _ _ _ _ _ _ _ ih => exact ih

theorem linked (h : SettlesWith event rt rs rt') {log : List Record} (hl : Linked log rt.value) :
    Linked (log ++ rs) rt'.value := by
  induction h generalizing log with
  | refl => simpa using hl
  | step rt plan context rs rt' hp _ ih =>
    rw [← List.append_assoc]
    exact ih (hl.adopt hp context)

end SettlesWith

theorem HandlesWith.keeps [Event E] {event : E} {rt next : MachineActor C E σ} {rs : List Record}
    (h : HandlesWith event rt rs next) : next.status = rt.status ∧ next.history = rt.history := by
  rcases h with ⟨plan, context, rs', -, hs, -⟩ | ⟨-, rfl, -⟩
  · exact hs.keeps
  · exact ⟨rfl, rfl⟩

theorem HandlesWith.linked [Event E] {event : E} {rt next : MachineActor C E σ} {rs : List Record}
    (h : HandlesWith event rt rs next) {log : List Record} (hl : Linked log rt.value) :
    Linked (log ++ rs) next.value := by
  rcases h with ⟨plan, context, rs', hp, hs, rfl⟩ | ⟨-, rfl, rfl⟩
  · rw [← List.append_assoc]
    exact hs.linked (hl.adopt hp context)
  · simpa using hl

theorem EntersWith.keeps {rt next : MachineActor C E σ} {rs : List Record} (h : EntersWith rt rs next) :
    next.status = rt.status ∧ next.history = rt.history :=
  let ⟨_, hs⟩ := h
  hs.keeps

theorem EntersWith.linked {rt next : MachineActor C E σ} {rs : List Record} (h : EntersWith rt rs next) :
    Linked rs next.value := by
  obtain ⟨_, hs⟩ := h
  simpa using hs.linked (linked_nil _)

/-! ## What each part hands back, records included -/

theorem take_records (spawn : Spawner ν β E σ) (rt : MachineActor C E σ) (records : List Record)
    (plan : Plan) (event : Option E) :
    TurnE.Returns (rt.take spawn records plan event) fun p =>
      p.1 = rt.adopt plan p.1.context ∧ p.2 = records ++ rt.recordOf plan := by
  refine (take_returns spawn rt records plan event).mono fun p ⟨hrt, hrec⟩ => ⟨hrt, ?_⟩
  rw [hrec, recordOf]
  split <;> simp

theorem settle_records (spawn : Spawner ν β E σ) (limit : Nat) (event : Option E)
    (remaining : Nat) (rt : MachineActor C E σ) (records : List Record) :
    TurnE.Returns (settle spawn limit event remaining rt records)
      fun p => ∃ rs, SettlesWith event rt rs p.1 ∧ p.2 = records ++ rs := by
  -- the budget of transitions left is what the recursion consumes
  induction remaining generalizing rt records with
  | zero =>
    unfold settle
    split
    · exact .pure ⟨[], .refl rt, by simp⟩
    · refine (resolve_returns rt .always event).bind fun o _ => ?_
      cases o with
      | none => exact .pure ⟨[], .refl rt, by simp⟩
      | some plan => exact .throw
  | succ r ih =>
    unfold settle
    split
    · exact .pure ⟨[], .refl rt, by simp⟩
    · refine (resolve_returns rt .always event).bind fun o ho => ?_
      cases o with
      | none => exact .pure ⟨[], .refl rt, by simp⟩
      | some plan =>
        refine (take_records spawn rt records plan event).bind fun q hq => ?_
        obtain ⟨hrt, hrec⟩ := hq
        refine (ih q.1 q.2).mono fun p hp => ?_
        obtain ⟨rs, hs, hp⟩ := hp
        rw [hrt] at hs
        exact ⟨rt.recordOf plan ++ rs, .step rt plan _ rs _ ho hs, by rw [hp, hrec, List.append_assoc]⟩

theorem settleAll_records (spawn : Spawner ν β E σ) (event : Option E) (rt : MachineActor C E σ)
    (records : List Record) :
    TurnE.Returns (settleAll spawn event rt records)
      fun p => ∃ rs, SettlesWith event rt rs p.1 ∧ p.2 = records ++ rs := by
  unfold settleAll
  exact (TurnE.Returns.trivial _).bind fun _ _ => settle_records spawn _ event _ rt records

/-- A failed macrostep hands back the actor as it was; a successful one adds its
records to the history in order. -/
theorem transact_records (rt : MachineActor C E σ)
    (step : MachineActor C E σ → TurnE ν β E (MachineActor C E σ × List Record))
    (P : MachineActor C E σ × List Record → Prop) (hstep : TurnE.Returns (step rt) P) :
    Turn.Returns (rt.transact step) fun p =>
      (∀ e, p.2 = .error e → p.1 = { rt with changed := false }) ∧
      (p.2 = .ok () → ∃ next records, P (next, records) ∧
        p.1 = { next with history := records.foldl History.record next.history }) := by
  unfold transact
  refine Turn.Returns.bind hstep ?_
  rintro (e | ⟨next, records⟩) hr
  · exact .pure ⟨fun _ _ => rfl, nofun⟩
  · refine (Turn.Returns.trivial _).bind fun _ _ => ?_
    refine (Turn.Returns.forIn_yield (g := History.record) fun r h => ?_).bind fun history hh => ?_
    · exact (Turn.Returns.trivial _).bind fun _ _ => .pure rfl
    · refine .pure ⟨fun _ => nofun, fun _ => ⟨next, records, hr _ rfl, ?_⟩⟩
      rw [hh]

/-- What starting hands back under history limit `L`: a fresh actor enters and
settles, its history cut to `L` and given the records; any other is refused. -/
def StartsWith (rt : MachineActor C E σ) (L : Nat) (p : MachineActor C E σ × Except RuntimeError Unit) :
    Prop :=
  (∀ e, p.2 = .error e → (rt.status ≠ .notStarted ∧ p.1 = rt) ∨
    (rt.status = .notStarted ∧ p.1 = { rt with history := rt.history.setLimit L, changed := false })) ∧
  (p.2 = .ok () → rt.status = .notStarted ∧ ∃ rs next,
    EntersWith { rt with history := rt.history.setLimit L } rs next ∧
    p.1 = { next with history := rs.foldl History.record next.history, status := .running })

theorem start_records (spawn : Spawner ν β E σ) (rt : MachineActor C E σ) (sc : Scope β E)
    (l : Ledger ν) : rt.StartsWith sc.options.historyLimit (((rt.start spawn).run sc).run l).1.1 := by
  rw [start, Turn.run_get_bind]
  split
  next hs => exact ⟨fun _ _ => .inl ⟨by simp [hs], rfl⟩, nofun⟩
  next hs => exact ⟨fun _ _ => .inl ⟨by simp [hs], rfl⟩, nofun⟩
  next hs =>
    let rt₁ := { rt with history := rt.history.setLimit sc.options.historyLimit }
    refine Turn.Returns.bind (Q := rt.StartsWith sc.options.historyLimit)
      (transact_records rt₁ _ (fun p => EntersWith rt₁ p.2 p.1) ?_) ?_ sc l
    · refine (execute_returns spawn rt₁ _ none).bind fun rt' hrt => ?_
      refine (settleAll_records spawn none rt' []).mono fun p ⟨rs, hs, hp⟩ => ?_
      rw [List.nil_append] at hp
      exact ⟨rt'.context, hp ▸ hrt ▸ hs⟩
    rintro ⟨rt', outcome⟩ ⟨herr, hok⟩
    cases outcome with
    | ok u =>
      obtain ⟨next, rs, hn, hrt'⟩ := hok rfl
      refine .pure ⟨nofun, fun _ => ⟨hs, rs, next, hn, ?_⟩⟩
      dsimp only at hrt' ⊢
      rw [hrt']
    | error e =>
      have hrt' := herr e rfl
      exact .pure ⟨fun _ _ => .inr ⟨hs, hrt'⟩, nofun⟩

/-- Receiving: a running actor handles the event and settles, adding its
records; a failure rolls back; any other is refused. -/
theorem receive_records [Event E] (spawn : Spawner ν β E σ) (rt : MachineActor C E σ)
    (event : E) :
    Turn.Returns (rt.receive spawn event) fun p =>
      (∀ e, p.2 = .error e → (rt.status ≠ .running ∧ p.1 = rt) ∨
        (rt.status = .running ∧ p.1 = { rt with changed := false })) ∧
      (p.2 = .ok () → rt.status = .running ∧ ∃ rs next,
        HandlesWith event { rt with changed := false } rs next ∧
        p.1 = { next with history := rs.foldl History.record next.history }) := by
  unfold receive
  refine (Turn.Returns.trivial _).bind fun s _ => ?_
  by_cases hs : rt.status = .running
  · rw [if_neg (by simp [hs])]
    let rt₁ := { rt with changed := false }
    refine Turn.Returns.mono (transact_records rt₁ _ (fun p => HandlesWith event rt₁ p.2 p.1) ?_) ?_
    · refine (resolve_returns rt₁ _ _).bind fun o ho => ?_
      cases o with
      | some plan =>
        refine (take_records spawn rt₁ [] plan _).bind fun ⟨rt', records⟩ ⟨hrt, hrec⟩ => ?_
        refine (settleAll_records spawn _ rt' records).mono fun p ⟨rs, hs, hp⟩ => ?_
        dsimp only at hrt hrec
        rw [hrec, List.nil_append] at hp
        exact .inl ⟨plan, rt'.context, rs, ho, hrt ▸ hs, hp⟩
      | none =>
        exact (TurnE.Returns.trivial _).bind fun _ _ => .pure (.inr ⟨ho, rfl, rfl⟩)
    rintro ⟨rt', outcome⟩ ⟨herr, hok⟩
    refine ⟨fun e he => .inr ⟨hs, herr e he⟩, fun ho => ?_⟩
    obtain ⟨next, rs, hn, hrt'⟩ := hok ho
    exact ⟨hs, rs, next, hn, hrt'⟩
  · rw [if_pos (by simpa using hs)]
    exact .pure ⟨fun _ _ => .inl ⟨hs, rfl⟩, nofun⟩

end MachineActor

end Statechart
