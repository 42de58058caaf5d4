import Statechart.Proofs.Actor.RegistryTree
import Statechart.Proofs.Actor.System
import Statechart.Proofs.Actor.Rollback
import Statechart.Script.World
/-!
# The actor tree

Every system an interpreter reaches keeps its actors in shape (`Shaped`): the
registry is a tree rooted at the interpreter's root, and there is an instance
for exactly the live actors other than the root, so a delivery always finds
its actor. With lawful actors every instance also runs and is not done
(`Settled`). Both rest on the commands committed spawning fresh, distinct ids
(`Fresh`) with running instances (`Started`); committing is proved by
induction on the commands, spawns nested however deep (`commit_shaped`,
`commit_settled`). Main statement: `actor_tree_invariant`.
-/
namespace Statechart

/-! ## The actors a command spawns -/

namespace Command

variable {β E : Type}

mutual

/-- The actors a command spawns, nested spawns included, with their instances. -/
def spawns : Command β E → List (ActorRef × β)
  | .send _ _ _ => []
  | .stop _ => []
  | .spawn actor cell commands => (actor, cell) :: spawnsAll commands

def spawnsAll : List (Command β E) → List (ActorRef × β)
  | [] => []
  | c :: cs => spawns c ++ spawnsAll cs

end

theorem spawnsAll_cons (c : Command β E) (cs : List (Command β E)) :
    spawnsAll (c :: cs) = c.spawns ++ spawnsAll cs := by
  rw [spawnsAll]

theorem spawnsAll_append (cs ds : List (Command β E)) :
    spawnsAll (cs ++ ds) = spawnsAll cs ++ spawnsAll ds := by
  induction cs with
  | nil => rfl
  | cons c cs ih => rw [List.cons_append, spawnsAll_cons, spawnsAll_cons, ih, List.append_assoc]

theorem spawns_spawn (actor : ActorRef) (cell : β) (commands : List (Command β E)) :
    (Command.spawn actor cell commands).spawns = (actor, cell) :: spawnsAll commands := by
  rw [spawns]

/-- The ids a command spawns. -/
def ids (c : Command β E) : List ActorId := c.spawns.map (·.1.id)

def idsAll (cmds : List (Command β E)) : List ActorId := (spawnsAll cmds).map (·.1.id)

@[simp] theorem idsAll_nil : idsAll ([] : List (Command β E)) = [] := rfl

@[simp] theorem idsAll_cons (c : Command β E) (cs : List (Command β E)) :
    idsAll (c :: cs) = c.ids ++ idsAll cs := by
  simp [idsAll, ids, spawnsAll]

@[simp] theorem ids_spawn (actor : ActorRef) (cell : β) (commands : List (Command β E)) :
    (Command.spawn actor cell commands).ids = actor.id :: idsAll commands := by
  simp [ids, idsAll, spawns]

end Command

theorem run_liftM {S L α : Type} (j : StateM L α) (s : S) (l : L) :
    ((liftM j : StateT S (StateM L) α).run s).run l = (((j.run l).1, s), (j.run l).2) := rfl

namespace System

variable {ν β E : Type}

/-! ## Instances after a change -/

theorem lookupCell_cons (i : ActorId) (c : β) (rest : List (ActorId × β)) (k : ActorId) :
    cell?.lookupCell ((i, c) :: rest) k = if i = k then some c else cell?.lookupCell rest k := by
  simp [cell?.lookupCell]

theorem lookupCell_filter (keep : ActorId → Bool) (cells : List (ActorId × β)) (k : ActorId) :
    cell?.lookupCell (cells.filter fun p => keep p.1) k = if keep k then cell?.lookupCell cells k else none := by
  induction cells with
  | nil => simp [cell?.lookupCell]
  | cons p rest ih =>
    obtain ⟨i, c⟩ := p
    simp only [List.filter_cons]
    by_cases hik : i = k
    · subst hik
      by_cases hi : keep i <;> simp [hi, lookupCell_cons, ih]
    · by_cases hi : keep i <;> simp [hi, hik, lookupCell_cons, ih]

theorem lookupCell_append (cells : List (ActorId × β)) (i : ActorId) (c : β) (k : ActorId) :
    cell?.lookupCell (cells ++ [(i, c)]) k = (cell?.lookupCell cells k).or (if i = k then some c else none) := by
  induction cells with
  | nil => simp [cell?.lookupCell]
  | cons p rest ih =>
    obtain ⟨j, c'⟩ := p
    simp only [List.cons_append, lookupCell_cons, ih]
    split <;> simp

theorem cell?_putCell (s : System β E) (id : ActorId) (c : β) (k : ActorId) :
    (s.putCell id c).cell? k = if k = id then some c else s.cell? k := by
  unfold putCell cell?
  rw [lookupCell_append, lookupCell_filter (fun i => i != id) s.cells k]
  by_cases hk : k = id
  · subst hk
    simp
  · simp [hk, Ne.symm hk]

theorem cell?_without (s : System β E) (removed : List ActorRef) (k : ActorId) :
    (s.without removed).cell? k = if Registry.outside removed k then s.cell? k else none :=
  lookupCell_filter _ s.cells k

/-! ## The shape of the system -/

/-- The system keeps its root, its registry is a tree rooted there, and the
instances are exactly those of the live actors other than the root. -/
structure Shaped (root : ActorRef) (s : System β E) : Prop where
  root_eq : s.root = root
  tree : s.registry.Tree root
  cells : ∀ k, (s.cell? k).isSome = (s.registry.contains k && k != root.id)

/-- Every live actor has an id from `used`. -/
def Within (used : List ActorId) (s : System β E) : Prop :=
  ∀ k, s.registry.contains k = true → k ∈ used

/-- Every instance runs; one that is done is among `done`, the spawns whose own
commands are still being committed. -/
def Settled (b : Behaviour ν β E) (done : List ActorId) (s : System β E) : Prop :=
  ∀ k c, s.cell? k = some c → b.status c = .running ∧ (b.isDone c = true → k ∈ done)

/-- The spawns of `cmds` have distinct ids, none of them live in `s`. -/
def Fresh (s : System β E) (cmds : List (Command β E)) : Prop :=
  (Command.idsAll cmds).Nodup ∧ ∀ i ∈ Command.idsAll cmds, s.registry.contains i = false

theorem shaped_new (root : ActorRef) (clock : Clock) (hook : Bool) (options : Options) :
    Shaped root (System.new root clock hook options : System β E) := by
  refine ⟨rfl, Registry.tree_ofRoot root, fun k => ?_⟩
  simp only [new, cell?, cell?.lookupCell, Option.isSome_none, Registry.contains, Registry.entry?_ofRoot]
  split <;> simp_all

theorem Shaped.live_of_cell? {root : ActorRef} {s : System β E} (h : Shaped root s) {k : ActorId} {c : β}
    (hk : s.cell? k = some c) : s.registry.contains k = true ∧ k ≠ root.id := by
  have hlive := h.cells k
  rw [hk, Option.isSome_some, eq_comm, Bool.and_eq_true, bne_iff_ne] at hlive
  exact hlive

/-- An instance belongs to a live actor, filed under the actor's id. -/
theorem Shaped.actor?_of_cell? {root : ActorRef} {s : System β E} (h : Shaped root s) {k : ActorId} {c : β}
    (hk : s.cell? k = some c) : ∃ a, s.registry.actor? k = some a ∧ a.id = k := by
  obtain ⟨e, he⟩ := Option.isSome_iff_exists.1 (h.live_of_cell? hk).1
  exact ⟨e.actor, by simp [Registry.actor?, he], h.tree.keyed k e (Registry.mem_of_entry_eq he)⟩

section Primitives

variable {root : ActorRef} {used done : List ActorId} {b : Behaviour ν β E}

theorem Shaped.of_eq {s s' : System β E} (h : Shaped root s) (hr : s'.root = s.root)
    (hreg : s'.registry = s.registry) (hc : s'.cells = s.cells) : Shaped root s' := by
  have hcell : ∀ k, s'.cell? k = s.cell? k := fun k => by unfold cell?; rw [hc]
  exact ⟨hr.trans h.root_eq, hreg ▸ h.tree, fun k => by rw [hcell, hreg, h.cells]⟩

theorem Within.of_eq {s s' : System β E} (h : Within used s) (hreg : s'.registry = s.registry) :
    Within used s' :=
  fun k hk => h k (hreg ▸ hk)

theorem Within.mono {s : System β E} {used' : List ActorId} (h : Within used s) (hsub : used ⊆ used') :
    Within used' s :=
  fun k hk => hsub (h k hk)

theorem Within.not_contains {s : System β E} (h : Within used s) {k : ActorId} (hk : k ∉ used) :
    s.registry.contains k = false :=
  Bool.eq_false_iff.2 fun hlive => hk (h k hlive)

/-- A spawn's id, distinct from the ids in use and from those spawned below
it, is not the root's; the ids in use grow by it. -/
theorem fresh_spawn {a : ActorId} {ids : List ActorId} (hroot : root.id ∈ used) (hnd : (used ++ a :: ids).Nodup) :
    a ∉ used ∧ a ≠ root.id ∧ (used ++ [a] ++ ids).Nodup := by
  have hnew : a ∉ used := fun hin => (List.nodup_append.1 hnd).2.2 _ hin _ List.mem_cons_self rfl
  exact ⟨hnew, fun h => hnew (h ▸ hroot), by simpa using hnd⟩

theorem Settled.of_eq {s s' : System β E} (h : Settled b done s) (hc : s'.cells = s.cells) :
    Settled b done s' := by
  intro k c hk
  unfold cell? at hk
  rw [hc] at hk
  exact h k c hk

theorem commitSend_actors [Event E] (origin : ActorId) (target : Target) (event : E)
    (delay : Option Duration) (s : System β E) (l : Ledger ν) :
    let s' := (((commitSend origin target event delay : Sys ν β E Unit).run s).run l).1.2
    s'.root = s.root ∧ s'.registry = s.registry ∧ s'.cells = s.cells := by
  rcases commitSend_state origin target event delay s l with hs | ⟨_, _, hs⟩ | ⟨_, hs⟩ <;>
    rw [hs] <;> exact ⟨rfl, rfl, rfl⟩

/-- Stopping the actors `removed` with a registry that keeps live exactly the
others keeps the instances those of the live actors. -/
theorem Shaped.without {s : System β E} (h : Shaped root s) {registry : Registry} {removed : List ActorRef}
    (hlive : ∀ k, registry.contains k = (Registry.outside removed k && s.registry.contains k))
    (htree : registry.Tree root) :
    Shaped root (({ s with registry } : System β E).without removed) := by
  refine ⟨h.root_eq, htree, fun k => ?_⟩
  rw [cell?_without]
  change (if _ then s.cell? k else none).isSome = (registry.contains k && _)
  rw [hlive, Bool.and_assoc, ← h.cells k]
  split <;> simp_all

/-- Stopping an actor other than the root keeps the shape. -/
theorem stopActor_shaped {id : ActorId} (hid : id ≠ root.id) :
    Spec (Shaped root) (stopActor id : Sys ν β E Unit) fun _ => Shaped root :=
  Spec.of_state (stopActor_state id) fun _ s h =>
    h.without (Registry.contains_removeSubtree s.registry id) (h.tree.removeSubtree hid)

theorem stopActor_within (id : ActorId) :
    Spec (Within used) (stopActor id : Sys ν β E Unit) fun _ => Within used := by
  refine Spec.of_state (stopActor_state id) fun _ s h k hk => h k ?_
  change (s.registry.removeSubtree id).1.contains k = true at hk
  rw [Registry.contains_removeSubtree, Bool.and_eq_true] at hk
  exact hk.2

theorem stopActor_settled (id : ActorId) :
    Spec (Settled b done) (stopActor id : Sys ν β E Unit) fun _ => Settled b done := by
  refine Spec.of_state (stopActor_state id) fun _ s h k c hk => h k c ?_
  rw [cell?_without] at hk
  split at hk
  · exact hk
  · cases hk

theorem stopActor_gone (id : ActorId) :
    Spec (fun s => s.registry.Keyed) (stopActor id : Sys ν β E Unit) fun _ s => s.registry.contains id = false :=
  Spec.of_state (stopActor_state id) fun _ s h => by
    simp [Registry.contains, h.entry?_removeSubtree_self id]

/-- Stopping an actor other than the root drops its instance, so it no longer
needs to be among the done ones. -/
theorem stopActor_drops {id : ActorId} (hid : id ≠ root.id) :
    Spec (fun s => Shaped root s ∧ Settled b (id :: done) s) (stopActor id : Sys ν β E Unit)
      fun _ => Settled b done := by
  let P := fun s : System β E => Shaped root s ∧ Settled b (id :: done) s
  have hstop : Spec P (stopActor id : Sys ν β E Unit) fun _ s => Shaped root s ∧
      s.registry.contains id = false ∧ Settled b (id :: done) s :=
    Spec.and (Spec.pre (stopActor_shaped hid) fun _ h => h.1) <|
      Spec.and (Spec.pre (stopActor_gone id) fun _ h => h.1.tree.keyed)
        (Spec.pre (stopActor_settled id) fun _ h => h.2)
  refine hstop.mono fun _ s ⟨hs, hgone, hset⟩ k c hk => ?_
  obtain ⟨hrun, hdone⟩ := hset k c hk
  refine ⟨hrun, fun hd => ?_⟩
  rcases List.mem_cons.1 (hdone hd) with rfl | hk'
  · -- the stopped actor is no longer live, so it has no instance
    have hlive := hs.cells k
    simp [hk, hgone] at hlive
  · exact hk'

/-- A committed stop keeps what setting the root's stop request keeps and
what stopping an actor other than the root keeps. -/
theorem commitStop_keeps [Event E] {P : System β E → Prop} (origin : ActorId) (target : Target)
    (hflag : ∀ s, P s → P { s with rootStopRequested := true })
    (hstop : ∀ id, Spec (fun s => P s ∧ id ≠ s.root.id) (stopActor id : Sys ν β E Unit) fun _ => P) :
    Spec P (commitStop origin target : Sys ν β E Unit) fun _ => P := by
  intro s l h
  rcases commitStop_state origin target s l with hs | ⟨id, hid, hs⟩ | hs <;> rw [hs]
  · exact hflag s h
  · exact hstop id s l ⟨h, hid⟩
  · exact h

theorem shaped_spawn {s : System β E} {origin : ActorId} {actor : ActorRef} {registry : Registry} {cell : β}
    (h : Shaped root s) (hreg : s.registry.register origin actor = .ok registry)
    (hfresh : s.registry.contains actor.id = false) :
    Shaped root (({ s with registry } : System β E).putCell actor.id cell) := by
  have hnone : s.registry.entry? actor.id = none := by simpa [Registry.contains] using hfresh
  have hne : actor.id ≠ root.id := fun heq => by
    obtain ⟨re, hre, -⟩ := h.tree.rooted
    rw [heq, hre] at hnone
    cases hnone
  refine ⟨h.root_eq, h.tree.register hreg hnone, fun k => ?_⟩
  rw [cell?_putCell]
  change _ = (registry.contains k && _)
  rw [Registry.contains_register hreg]
  by_cases hk : k = actor.id
  · subst hk
    simp [hne]
  · have hold : (({ s with registry } : System β E).cell? k) = s.cell? k := rfl
    rw [if_neg hk, hold, h.cells k, beq_false_of_ne hk, Bool.or_false]

theorem within_spawn {s : System β E} {origin : ActorId} {actor : ActorRef} {registry : Registry} {cell : β}
    (h : Within used s) (hreg : s.registry.register origin actor = .ok registry) :
    Within (used ++ [actor.id]) (({ s with registry } : System β E).putCell actor.id cell) := by
  intro k hk
  change registry.contains k = true at hk
  rw [Registry.contains_register hreg, Bool.or_eq_true, beq_iff_eq] at hk
  rcases hk with hk | rfl
  · exact List.mem_append_left _ (h k hk)
  · exact List.mem_append_right _ (List.mem_singleton_self _)

theorem Settled.mono {s : System β E} {done' : List ActorId} (h : Settled b done s) (hsub : done ⊆ done') :
    Settled b done' s :=
  fun k c hk => ⟨(h k c hk).1, fun hd => hsub ((h k c hk).2 hd)⟩

/-- Storing an instance that runs, and is done only if among the done ones,
keeps every instance running. -/
theorem Settled.putCell {s : System β E} (h : Settled b done s) {id : ActorId} {c : β}
    (hrun : b.status c = .running) (hdone : b.isDone c = true → id ∈ done) : Settled b done (s.putCell id c) := by
  intro k c' hk
  rw [cell?_putCell] at hk
  split at hk
  · next hka =>
    cases hk
    exact ⟨hrun, hka ▸ hdone⟩
  · exact h k c' hk

/-- A spawned instance that runs keeps every instance running; when it is
already done, it joins the done ones. -/
theorem settled_spawn {s : System β E} {registry : Registry} {actor : ActorRef} {cell : β}
    (h : Settled b done s) (hrun : b.status cell = .running) :
    Settled b (if b.isDone cell then actor.id :: done else done)
      (({ s with registry } : System β E).putCell actor.id cell) := by
  refine Settled.putCell (h.mono fun k hk => ?_) hrun fun hd => by simp [hd]
  split
  · exact List.mem_cons_of_mem _ hk
  · exact hk

theorem Shaped.putCell {s : System β E} (h : Shaped root s) {id : ActorId} (hid : (s.cell? id).isSome)
    (c : β) : Shaped root (s.putCell id c) := by
  refine ⟨h.root_eq, h.tree, fun k => ?_⟩
  rw [cell?_putCell]
  show _ = (s.registry.contains k && k != root.id)
  split
  · next hk =>
    subst hk
    rw [← h.cells, hid]
    rfl
  · exact h.cells k

/-- The registered ids are in use, the root's among them; fresh spawns add
distinct ids to them. -/
theorem Shaped.keys {s : System β E} (h : Shaped root s) :
    Within (s.registry.entries.map (·.1)) s ∧ root.id ∈ s.registry.entries.map (·.1) := by
  refine ⟨fun k hk => ?_, ?_⟩
  · obtain ⟨e, he⟩ := Option.isSome_iff_exists.1 hk
    exact List.mem_map.2 ⟨(k, e), Registry.mem_of_entry_eq he, rfl⟩
  · obtain ⟨re, hre, -⟩ := h.tree.rooted
    exact List.mem_map.2 ⟨(root.id, re), Registry.mem_of_entry_eq hre, rfl⟩

theorem Shaped.nodup_keys {s : System β E} (h : Shaped root s) {cmds : List (Command β E)}
    (hf : Fresh s cmds) : (s.registry.entries.map (·.1) ++ Command.idsAll cmds).Nodup := by
  refine List.nodup_append.2 ⟨h.tree.nodup, hf.1, fun k hk k' hk' hkk => ?_⟩
  have hdead : s.registry.entry? k' = none := Option.not_isSome_iff_eq_none.1 (Bool.eq_false_iff.1 (hf.2 k' hk'))
  exact Registry.not_mem_keys hdead (hkk ▸ hk)

theorem stopIfDone_keeps {P Q : System β E → Prop} {x : Sys ν β E (Except RuntimeError Unit)} {c : β}
    {id : ActorId} (hx : Spec P x fun _ => Q) (hstop : Spec Q (stopActor id : Sys ν β E Unit) fun _ => Q) :
    Spec P (x >>= fun committed => if b.isDone c then stopActor id >>= fun _ => pure committed
      else pure committed) fun _ => Q := by
  refine Spec.bind hx fun committed => ?_
  split
  · exact Spec.bind hstop fun _ => Spec.pure fun _ h => h
  · exact Spec.pure fun _ h => h

theorem stopIfDone_settles {P : System β E → Prop} {x : Sys ν β E (Except RuntimeError Unit)} {c : β}
    {id : ActorId} (hid : id ≠ root.id)
    (hx : Spec P x fun _ s => Shaped root s ∧ Settled b (if b.isDone c then id :: done else done) s) :
    Spec P (x >>= fun committed => if b.isDone c then stopActor id >>= fun _ => pure committed
      else pure committed) fun _ => Settled b done := by
  refine Spec.bind hx fun committed => ?_
  split
  · next hd =>
    refine Spec.bind (Spec.pre (stopActor_drops hid) fun _ h => ⟨h.1, ?_⟩) fun _ => Spec.pure fun _ h => h
    simpa [hd] using h.2
  · next hd => exact Spec.pure fun _ h => by simpa [hd] using h.2

/-! ## Shutting down -/

theorem shutdown_shaped [Event E] : Spec (Shaped root) (shutdown : Sys ν β E Unit) fun _ => Shaped root :=
  Spec.of_state shutdown_state fun _ s h => by
    have hwithout := h.without (Registry.contains_removeDescendants s.registry s.root.id)
      (h.root_eq ▸ h.tree.removeDescendants)
    exact hwithout.of_eq rfl rfl rfl

theorem shutdown_settled [Event E] : Spec (Settled b done) (shutdown : Sys ν β E Unit) fun _ => Settled b done :=
  Spec.of_state shutdown_state fun _ s h k c hk => by
    change (({ s with registry := _ } : System β E).without _).cell? k = some c at hk
    rw [cell?_without] at hk
    split at hk
    · exact h k c hk
    · cases hk

end Primitives

/-! ## Committing keeps the shape -/

section Commit

variable [Event E] (b : Behaviour ν β E) {root : ActorRef}

theorem commitSend_shaped {used : List ActorId} (origin : ActorId) (target : Target) (event : E)
    (delay : Option Duration) :
    Spec (fun s => Shaped root s ∧ Within used s) (commitSend origin target event delay : Sys ν β E Unit)
      fun _ s => Shaped root s ∧ Within used s := fun s l h => by
  obtain ⟨hr, hreg, hc⟩ := commitSend_actors origin target event delay s l
  exact ⟨h.1.of_eq hr hreg hc, h.2.of_eq hreg⟩

theorem commitStop_shaped {used : List ActorId} (origin : ActorId) (target : Target) :
    Spec (fun s => Shaped root s ∧ Within used s) (commitStop origin target : Sys ν β E Unit)
      fun _ s => Shaped root s ∧ Within used s :=
  commitStop_keeps origin target (fun _ h => ⟨h.1.of_eq rfl rfl rfl, h.2.of_eq rfl⟩)
    fun id s l ⟨h, hid⟩ => ⟨stopActor_shaped (h.1.root_eq ▸ hid) s l h.1, stopActor_within id s l h.2⟩

mutual

/-- Committing commands whose spawns have fresh, distinct ids keeps the shape;
the live actors afterwards were in use or spawned. -/
theorem commit_shaped : ∀ (origin : ActorId) (cmds : List (Command β E)) (used : List ActorId),
    root.id ∈ used → (used ++ Command.idsAll cmds).Nodup →
    Spec (fun s => Shaped root s ∧ Within used s) (commit b origin cmds)
      fun _ s => Shaped root s ∧ Within (used ++ Command.idsAll cmds) s
  | _, [], used, _, _ => Spec.pure fun _ h => by simpa using h
  | origin, c :: cs, used, hroot, hnd => by
    rw [commit]
    have hnd' : (used ++ c.ids ++ Command.idsAll cs).Nodup := by simpa using hnd
    refine Spec.bind (commitOne_shaped origin c used hroot ((List.sublist_append_left _ _).nodup hnd'))
      fun _ => ?_
    refine Spec.bind (commit_shaped origin cs (used ++ c.ids) (List.mem_append_left _ hroot) hnd') fun _ => ?_
    exact Spec.pure fun _ h => by simpa using h

theorem commitOne_shaped : ∀ (origin : ActorId) (c : Command β E) (used : List ActorId),
    root.id ∈ used → (used ++ c.ids).Nodup →
    Spec (fun s => Shaped root s ∧ Within used s) (commitOne b origin c)
      fun _ s => Shaped root s ∧ Within (used ++ c.ids) s
  | origin, .send target event delay, used, _, _ => by
    rw [commitOne]
    exact Spec.bind (commitSend_shaped origin target event delay) fun _ =>
      Spec.pure fun _ h => by simpa [Command.ids, Command.spawns] using h
  | origin, .stop target, used, _, _ => by
    rw [commitOne]
    exact Spec.bind (commitStop_shaped origin target) fun _ =>
      Spec.pure fun _ h => by simpa [Command.ids, Command.spawns] using h
  | origin, .spawn actor cell commands, used, hroot, hnd => by
    rw [commitOne, Command.ids_spawn]
    rw [Command.ids_spawn] at hnd
    obtain ⟨hnew, hne, hnd'⟩ := fresh_spawn hroot hnd
    refine Spec.bind Spec.get fun s => ?_
    split
    · exact Spec.pure fun _ h => ⟨h.2.1, h.2.2.mono (List.subset_append_left _ _)⟩
    · next registry hreg =>
      -- the child joins the registry under its fresh id and its instance is
      -- stored, then what its start produced is committed below it
      have body : Spec (fun s' => s' = { s with registry } ∧ Shaped root s ∧ Within used s)
          (modify (fun s => s.putCell actor.id cell) >>= fun _ => commit b actor.id commands >>=
            fun committed => if b.isDone cell then stopActor actor.id >>= fun _ => pure committed
              else pure committed)
          fun _ s => Shaped root s ∧ Within (used ++ actor.id :: Command.idsAll commands) s := by
        refine Spec.bind (R := fun _ s => Shaped root s ∧ Within (used ++ [actor.id]) s)
          (Spec.modify fun _ hs => ?_) fun _ => ?_
        · obtain ⟨rfl, hs, hw⟩ := hs
          have hfresh := hw.not_contains hnew
          exact ⟨shaped_spawn hs hreg hfresh, within_spawn hw hreg⟩
        rw [show used ++ actor.id :: Command.idsAll commands = used ++ [actor.id] ++ Command.idsAll commands by simp]
        exact stopIfDone_keeps (commit_shaped actor.id commands _ (List.mem_append_left _ hroot) hnd')
          fun s l h => ⟨stopActor_shaped hne s l h.1, stopActor_within actor.id s l h.2⟩
      refine Spec.bind (R := fun _ s' => s' = { s with registry } ∧ Shaped root s ∧ Within used s)
        (Spec.set fun _ hs => ⟨rfl, hs.1 ▸ hs.2⟩) fun _ => ?_
      dsimp only
      split
      · exact Spec.bind (emit_keeps _ _) fun _ => body
      · exact body

end

end Commit

/-! ## Committing keeps every instance running -/

section Settle

variable [Event E] (b : Behaviour ν β E) {root : ActorRef}

mutual

/-- Committing commands whose spawned instances run keeps every instance
running; a spawn already done is stopped once its own commands are committed. -/
theorem commit_settled : ∀ (origin : ActorId) (cmds : List (Command β E)) (used done : List ActorId),
    root.id ∈ used → (used ++ Command.idsAll cmds).Nodup →
    (∀ p ∈ Command.spawnsAll cmds, b.status p.2 = .running) →
    Spec (fun s => Shaped root s ∧ Within used s ∧ Settled b done s) (commit b origin cmds)
      fun _ => Settled b done
  | _, [], _, _, _, _, _ => Spec.pure fun _ h => h.2.2
  | origin, c :: cs, used, done, hroot, hnd, hrun => by
    rw [commit]
    rw [Command.spawnsAll_cons] at hrun
    have hnd' : (used ++ c.ids ++ Command.idsAll cs).Nodup := by simpa using hnd
    have hfirst := Spec.and (Spec.pre (commitOne_shaped b origin c used hroot
        ((List.sublist_append_left _ _).nodup hnd')) fun _ h => ⟨h.1, h.2.1⟩)
      (commitOne_settled origin c used done hroot ((List.sublist_append_left _ _).nodup hnd')
        fun p hp => hrun p (List.mem_append_left _ hp))
    refine Spec.bind hfirst fun _ => ?_
    refine Spec.bind (Spec.pre (commit_settled origin cs (used ++ c.ids) done (List.mem_append_left _ hroot) hnd'
      fun p hp => hrun p (List.mem_append_right _ hp)) fun _ h => ⟨h.1.1, h.1.2, h.2⟩) fun _ => ?_
    exact Spec.pure fun _ h => h

theorem commitOne_settled : ∀ (origin : ActorId) (c : Command β E) (used done : List ActorId),
    root.id ∈ used → (used ++ c.ids).Nodup → (∀ p ∈ c.spawns, b.status p.2 = .running) →
    Spec (fun s => Shaped root s ∧ Within used s ∧ Settled b done s) (commitOne b origin c)
      fun _ => Settled b done
  | origin, .send target event delay, _, _, _, _, _ => by
    rw [commitOne]
    exact Spec.bind (fun s l h => h.2.2.of_eq (commitSend_actors origin target event delay s l).2.2) fun _ =>
      Spec.pure fun _ h => h
  | origin, .stop target, _, done, _, _, _ => by
    rw [commitOne]
    have hstop : Spec (Settled b done) (commitStop origin target : Sys ν β E Unit) fun _ => Settled b done :=
      commitStop_keeps origin target (fun _ h => h.of_eq rfl) fun id =>
        Spec.pre (stopActor_settled id) fun _ h => h.1
    exact Spec.bind (Spec.pre hstop fun _ h => h.2.2) fun _ => Spec.pure fun _ h => h
  | origin, .spawn actor cell commands, used, done, hroot, hnd, hrun => by
    rw [commitOne]
    rw [Command.ids_spawn] at hnd
    rw [Command.spawns_spawn] at hrun
    obtain ⟨hnew, hne, hnd'⟩ := fresh_spawn hroot hnd
    have hcell : b.status cell = .running := hrun (actor, cell) List.mem_cons_self
    refine Spec.bind Spec.get fun s => ?_
    split
    · exact Spec.pure fun _ h => h.2.2.2
    · next registry hreg =>
      let done' := if b.isDone cell then actor.id :: done else done
      have body : Spec (fun s' => s' = { s with registry } ∧ Shaped root s ∧ Within used s ∧ Settled b done s)
          (modify (fun s => s.putCell actor.id cell) >>= fun _ => commit b actor.id commands >>=
            fun committed => if b.isDone cell then stopActor actor.id >>= fun _ => pure committed
              else pure committed)
          fun _ => Settled b done := by
        refine Spec.bind (R := fun _ s => Shaped root s ∧ Within (used ++ [actor.id]) s ∧ Settled b done' s)
          (Spec.modify fun _ hs => ?_) fun _ => ?_
        · obtain ⟨rfl, hs, hw, hset⟩ := hs
          have hfresh := hw.not_contains hnew
          exact ⟨shaped_spawn hs hreg hfresh, within_spawn hw hreg, settled_spawn hset hcell⟩
        have hnested := Spec.and (Spec.pre (commit_shaped b actor.id commands (used ++ [actor.id])
            (List.mem_append_left _ hroot) hnd') fun _ h => ⟨h.1, h.2.1⟩)
          (commit_settled actor.id commands (used ++ [actor.id]) done' (List.mem_append_left _ hroot) hnd'
            fun p hp => hrun p (List.mem_cons_of_mem _ hp))
        -- a child already done is stopped, and its instance goes with it
        exact stopIfDone_settles hne (hnested.mono fun _ _ h => ⟨h.1.1, h.2⟩)
      refine Spec.bind (R := fun _ s' => s' = { s with registry } ∧ Shaped root s ∧ Within used s ∧ Settled b done s)
        (Spec.set fun _ hs => ⟨rfl, hs.1 ▸ hs.2⟩) fun _ => ?_
      dsimp only
      split
      · exact Spec.bind (emit_keeps _ _) fun _ => body
      · exact body

end

end Settle

/-! ## Delivering keeps the shape -/

section Deliver

variable [Event E] (b : Behaviour ν β E) {root : ActorRef}

/-- The instances `cmds` spawns run, as a started instance does. -/
def Started (cmds : List (Command β E)) : Prop :=
  ∀ p ∈ Command.spawnsAll cmds, b.status p.2 = .running

/-- The commands an actor records while it handles `event`. -/
def recorded (s : System β E) (cell : β) (actor : ActorRef) (event : E) (l : Ledger ν) : List (Command β E) :=
  (((b.receive cell event).run (s.scopeFor actor)).run l).1.2.commands.toList

/-- A delivery changes nothing, or stores the instance the actor hands back and,
after a success, commits its commands and stops it if done. -/
theorem deliver_state (id : ActorId) (event : E) (s : System β E) (l : Ledger ν) :
    (((deliver b id event).run s).run l).1.2 = s ∨
      ∃ cell actor, s.cell? id = some cell ∧ s.registry.actor? id = some actor ∧
        let x := (((b.receive cell event).run (s.scopeFor actor)).run l)
        ((∃ e, x.1.1.2 = .error e) ∧ (((deliver b id event).run s).run l).1.2 = s.putCell id x.1.1.1) ∨
        (x.1.1.2 = .ok () ∧ (((deliver b id event).run s).run l).1.2 =
          (((commit b id x.1.2.commands.toList >>= fun committed =>
            if b.isDone x.1.1.1 then stopActor id >>= fun _ => pure committed else pure committed).run
              (s.putCell id x.1.1.1)).run x.2).1.2) := by
  unfold deliver
  rw [run_bind, run_get]
  dsimp only
  split
  · next cell actor hc ha =>
    refine .inr ⟨cell, actor, hc, ha, ?_⟩
    rw [run_bind]
    rcases hq : ((b.receive cell event).run (s.scopeFor actor)).run l with ⟨⟨⟨cell', outcome⟩, sc'⟩, l'⟩
    rw [run_liftM, hq]
    dsimp only
    rw [run_bind]
    cases outcome with
    | error e => exact .inl ⟨⟨e, rfl⟩, rfl⟩
    | ok u => exact .inr ⟨rfl, rfl⟩
  · exact .inl rfl

/-- Delivering a message keeps the shape, when the commands the actor records
spawn fresh ids. -/
theorem deliver_shaped (id : ActorId) (event : E) (s : System β E) (l : Ledger ν) (h : Shaped root s)
    (hfresh : ∀ cell actor, s.cell? id = some cell → s.registry.actor? id = some actor →
      Fresh s (recorded b s cell actor event l)) :
    Shaped root (((deliver b id event).run s).run l).1.2 := by
  rcases deliver_state b id event s l with hs | ⟨cell, actor, hc, ha, ⟨-, hs⟩ | ⟨-, hs⟩⟩ <;> rw [hs]
  · exact h
  · exact h.putCell (by rw [hc]; rfl) _
  · -- the instance is stored, the recorded commands committed, and a done actor stopped
    have hid : id ≠ root.id := (h.live_of_cell? hc).2
    obtain ⟨hwithin, hroot⟩ := h.keys
    have hrun := stopIfDone_keeps (b := b) (c := (((b.receive cell event).run (s.scopeFor actor)).run l).1.1.1)
      (commit_shaped b id _ _ hroot (h.nodup_keys (hfresh cell actor hc ha)))
      fun s l h => ⟨stopActor_shaped hid s l h.1, stopActor_within id s l h.2⟩
    exact (hrun _ _ ⟨h.putCell (by rw [hc]; rfl) _, hwithin.of_eq rfl⟩).1

/-- What the system asks of the actors it runs: handling a message keeps a
running actor running, and a failed one is no more done than before. -/
def Lawful (b : Behaviour ν β E) : Prop :=
  ∀ c event, b.status c = .running → Turn.Returns (b.receive c event) fun p =>
    b.status p.1 = .running ∧ ∀ e, p.2 = .error e → b.isDone p.1 = b.isDone c

/-- Delivering to a lawful actor keeps every instance running and none done,
when its commands spawn fresh ids and started instances. -/
theorem deliver_settled (hb : Lawful b) (id : ActorId) (event : E) (s : System β E) (l : Ledger ν)
    (h : Shaped root s) (hset : Settled b [] s)
    (hfresh : ∀ cell actor, s.cell? id = some cell → s.registry.actor? id = some actor →
      Fresh s (recorded b s cell actor event l) ∧ Started b (recorded b s cell actor event l)) :
    Settled b [] (((deliver b id event).run s).run l).1.2 := by
  rcases deliver_state b id event s l with hs | ⟨cell, actor, hc, ha, ⟨⟨e, herr⟩, hs⟩ | ⟨-, hs⟩⟩ <;> rw [hs]
  · exact hset
  · -- a failed macrostep hands back an instance that runs and is not done
    obtain ⟨hrun, hundone⟩ := hset id cell hc
    obtain ⟨hrun', hsame⟩ := hb cell event hrun (s.scopeFor actor) l
    refine hset.putCell hrun' fun hd => hundone ?_
    rw [← hsame e herr, hd]
  · obtain ⟨hrun, -⟩ := hset id cell hc
    obtain ⟨hrun', -⟩ := hb cell event hrun (s.scopeFor actor) l
    have hid : id ≠ root.id := (h.live_of_cell? hc).2
    obtain ⟨hwithin, hroot⟩ := h.keys
    obtain ⟨hf, hstarted⟩ := hfresh cell actor hc ha
    -- a done instance is among the done ones until the commands are committed
    let c := (((b.receive cell event).run (s.scopeFor actor)).run l).1.1.1
    let done := if b.isDone c then [id] else []
    have hcommit := Spec.and (Spec.pre (commit_shaped b id _ _ hroot (h.nodup_keys hf)) fun _ h => ⟨h.1, h.2.1⟩)
      (commit_settled b id _ _ done hroot (h.nodup_keys hf) hstarted)
    have hrun := stopIfDone_settles (c := c) hid (hcommit.mono fun _ _ h => ⟨h.1.1, h.2⟩)
    refine hrun _ _ ⟨h.putCell (by rw [hc]; rfl) _, hwithin.of_eq rfl, ?_⟩
    refine (hset.mono (List.nil_subset _)).putCell hrun' fun hd => ?_
    show id ∈ (if b.isDone c then [id] else [])
    rw [if_pos hd]
    exact List.mem_singleton_self _

end Deliver

end System

/-! ## Scripted actors are lawful -/

namespace Script

namespace Echo

variable {ν β : Type}

theorem receive_returns (spawnEcho : String → TurnE ν β Signal ActorRef) (e : Echo) (event : Signal) :
    Turn.Returns (e.receive spawnEcho event) fun p => p.1.status = e.status ∧ ∀ err, p.2 = .error err → p.1 = e := by
  unfold receive
  refine (Turn.Returns.trivial _).bind fun s _ => ?_
  split
  · refine (Turn.Returns.trivial _).bind fun r _ => ?_
    split
    · exact .pure ⟨rfl, fun _ _ => rfl⟩
    · exact .pure ⟨rfl, fun _ _ => rfl⟩
  -- the three stops, being done, a send to a child and a delayed send to the parent
  · exact (Turn.Returns.trivial _).bind fun _ _ => .pure ⟨rfl, nofun⟩
  · exact (Turn.Returns.trivial _).bind fun _ _ => .pure ⟨rfl, nofun⟩
  · exact (Turn.Returns.trivial _).bind fun _ _ => .pure ⟨rfl, nofun⟩
  · exact .pure ⟨rfl, nofun⟩
  · exact (Turn.Returns.trivial _).bind fun _ _ => .pure ⟨rfl, nofun⟩
  · exact (Turn.Returns.trivial _).bind fun _ _ => .pure ⟨rfl, nofun⟩
  · -- any other event is echoed to the parent, if there is one
    dsimp only
    split
    · exact (Turn.Returns.trivial _).bind fun _ _ => .pure ⟨rfl, nofun⟩
    · exact .pure ⟨rfl, nofun⟩

theorem start_runs (e : Echo) : Turn.Returns (e.start : Turn ν β Signal _) fun p => p.1.status = .running := by
  unfold start
  exact (Turn.Returns.trivial _).bind fun _ _ => (Turn.Returns.trivial _).bind fun _ _ => .pure rfl

end Echo

/-- A scripted actor that starts successfully runs: this is what a spawn
command of a scripted actor carries. -/
theorem Cell.start_runs (lib : Library) :
    ∀ depth c, Turn.Returns (Cell.start lib depth c) fun p => p.2 = .ok () → Cell.status p.1 = .running
  | 0, _ => by
    rw [Cell.start]
    exact (Turn.Returns.trivial _).bind fun _ _ => .pure nofun
  | _ + 1, .machine rt => by
    rw [Cell.start]
    refine (MachineActor.start_returns _ rt).bind fun ⟨rt', outcome⟩ ⟨_, hok⟩ => .pure fun h => ?_
    obtain ⟨-, -, next, -, hrt⟩ := hok h
    have hrt' : rt' = { next with history := rt'.history, status := .running } := hrt
    change rt'.status = .running
    rw [hrt']
  | _ + 1, .echo e => by
    rw [Cell.start]
    exact (Echo.start_runs e).bind fun _ hrun => .pure fun _ => hrun

/-- Scripted actors are lawful. -/
theorem nursery_lawful (lib : Library) : System.Lawful (nursery lib).behaviour := by
  intro c event hrun
  cases c with
  | machine rt =>
    change rt.status = .running at hrun
    refine (MachineActor.receive_returns (Cell.spawner lib) rt event).bind fun ⟨rt', outcome⟩ ⟨herr, hok⟩ => ?_
    cases outcome with
    | error e =>
      rcases herr e rfl with ⟨hs, -⟩ | ⟨-, rfl⟩
      · exact absurd hrun hs
      · exact .pure ⟨hrun, fun _ _ => rfl⟩
    | ok u =>
      obtain ⟨-, next, hn, hrt⟩ := hok rfl
      refine .pure ⟨?_, nofun⟩
      change rt'.status = .running
      have hrt' : rt' = { next with history := rt'.history } := hrt
      rw [hrt']
      exact hn.status_eq.trans hrun
  | echo e =>
    refine (Echo.receive_returns _ e event).bind fun ⟨e', outcome⟩ ⟨hs, hsame⟩ => ?_
    refine .pure ⟨hs.trans hrun, fun err herr => ?_⟩
    have he' : e' = e := hsame err herr
    change e'.done = e.done
    rw [he']

end Script

namespace System

variable {ν β E : Type}

/-! ## Every reachable system -/

section Reachable

variable [Event E] (b : Behaviour ν β E) (root : ActorRef)

/-- The systems an interpreter rooted at `root` reaches by committing,
delivering, stopping actors and shutting down, with fresh ids and running
spawned instances. -/
inductive Reachable : System β E → Prop
  | new (clock : Clock) (hook : Bool) (options : Options) : Reachable (System.new root clock hook options)
  | commit {s : System β E} (origin : ActorId) (cmds : List (Command β E)) (l : Ledger ν) :
      Reachable s → Fresh s cmds → Started b cmds → Reachable (((commit b origin cmds).run s).run l).1.2
  | deliver {s : System β E} (id : ActorId) (event : E) (l : Ledger ν) : Reachable s →
      (∀ cell actor, s.cell? id = some cell → s.registry.actor? id = some actor →
        Fresh s (recorded b s cell actor event l) ∧ Started b (recorded b s cell actor event l)) →
      Reachable (((deliver b id event).run s).run l).1.2
  | stopActor {s : System β E} (id : ActorId) (l : Ledger ν) : Reachable s → id ≠ root.id →
      Reachable (((stopActor id : Sys ν β E Unit).run s).run l).1.2
  | shutdown {s : System β E} (l : Ledger ν) : Reachable s →
      Reachable (((shutdown : Sys ν β E Unit).run s).run l).1.2

/-- The registry is a tree rooted at the root, the instances are those of the
live actors other than the root, and with lawful actors each runs and is not
done. -/
structure ActorTree (s : System β E) : Prop where
  shaped : Shaped root s
  found : ∀ k c, s.cell? k = some c → ∃ a, s.registry.actor? k = some a ∧ a.id = k
  running : Lawful b → ∀ k c, s.cell? k = some c → b.status c = .running ∧ b.isDone c = false

variable {b root}

theorem Reachable.shaped {s : System β E} (h : Reachable b root s) :
    Shaped root s ∧ (Lawful b → Settled b [] s) := by
  induction h with
  | new clock hook options =>
    exact ⟨shaped_new root clock hook options, fun _ k c hk => by cases hk⟩
  | commit origin cmds l _ hf hstarted ih =>
    obtain ⟨hs, hset⟩ := ih
    obtain ⟨hwithin, hroot⟩ := hs.keys
    refine ⟨(commit_shaped b origin cmds _ hroot (hs.nodup_keys hf) _ l ⟨hs, hwithin⟩).1, fun hb => ?_⟩
    exact commit_settled b origin cmds _ [] hroot (hs.nodup_keys hf) hstarted _ l ⟨hs, hwithin, hset hb⟩
  | deliver id event l _ hfresh ih =>
    obtain ⟨hs, hset⟩ := ih
    refine ⟨deliver_shaped b id event _ l hs fun cell actor hc ha => (hfresh cell actor hc ha).1,
      fun hb => deliver_settled b hb id event _ l hs (hset hb) hfresh⟩
  | stopActor id l _ hid ih =>
    exact ⟨stopActor_shaped hid _ l ih.1, fun hb => stopActor_settled id _ l (ih.2 hb)⟩
  | shutdown l _ ih =>
    exact ⟨shutdown_shaped _ l ih.1, fun hb => shutdown_settled _ l (ih.2 hb)⟩

/-- Every reachable system is an actor tree. -/
theorem actor_tree_invariant {s : System β E} (h : Reachable b root s) : ActorTree b root s := by
  obtain ⟨hs, hset⟩ := h.shaped
  refine ⟨hs, fun k c hk => hs.actor?_of_cell? hk, fun hb k c hk => ?_⟩
  obtain ⟨hrun, hdone⟩ := hset hb k c hk
  exact ⟨hrun, Bool.eq_false_iff.2 fun hd => nomatch hdone hd⟩

end Reachable

end System

/-- A root that spawns a running echo: the system it reaches is an actor tree,
and since scripted actors are lawful, its one instance runs and is not done. -/
theorem spawned_echo_actor_tree :
    let b := (Script.nursery []).behaviour
    let s := (((System.commit b 0 [.spawn ⟨1, "kid"⟩ (.echo { status := .running }) []]).run
      (System.new ⟨0, "m"⟩ (.manual 0) false {})).run {}).1.2
    System.ActorTree b ⟨0, "m"⟩ s ∧ ∀ k c, s.cell? k = some c → b.status c = .running ∧ b.isDone c = false :=
  have h := System.actor_tree_invariant
    (System.Reachable.commit 0 _ {} (.new (.manual 0) false {}) ⟨by decide, by decide⟩
      (by unfold System.Started; decide))
  ⟨h, h.running (Script.nursery_lawful [])⟩

end Statechart
