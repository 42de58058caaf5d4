import Statechart.Proofs.Actor.ActorTree
/-!
# Child names

A live child holds the name its parent gave it. The scope refuses a spawn under
a name it counts live (`Scope.spawn`), and the registry refuses a name already
in the parent's table or a child whose parent is gone (`Registry.register`).

The scope's count never falls short of the registry's table
(`Registry.NamesIn`): the stops the scope does not see only take names out of
tables. So committing what a scope recorded fails only when a spawn finds its
parent gone (`commit_fails_only_for_gone_parent`). The commands a scope records
are described by `Command.Recorded`, kept by every operation (`Scope.Tracks`).
-/
namespace Statechart

/-! ## What a scope records -/

namespace Command

variable {β E : Type}

/-- The names a scope counts live after recording `c`, from `live` before. -/
def liveAfter (live : List String) : Command β E → List String
  | .spawn actor _ _ => live ++ [actor.name]
  | .stop (.child name) => live.filter (· != name)
  | _ => live

def liveAfterAll (live : List String) (cmds : List (Command β E)) : List String :=
  cmds.foldl liveAfter live

mutual

/-- Commands recorded by a scope that counted `live`: each spawn takes a name
not counted live at that point, and the child's commands were recorded by a
scope of its own. -/
def Recorded : List String → List (Command β E) → Prop
  | _, [] => True
  | live, c :: cs => RecordedOne live c ∧ Recorded (liveAfter live c) cs

/-- One command recorded by a scope that counted `live`. -/
def RecordedOne : List String → Command β E → Prop
  | live, .spawn actor _ commands => actor.name ∉ live ∧ Recorded [] commands
  | _, .send _ _ _ => True
  | _, .stop _ => True

end

mutual

/-- The actors the spawns of `c` are registered under, when `origin` commits
it: `origin` for `c` itself, the child for the spawns of its start. -/
def spawners (origin : ActorId) : Command β E → List ActorId
  | .spawn actor _ commands => origin :: spawnersAll actor.id commands
  | .send _ _ _ => []
  | .stop _ => []

/-- The actors the spawns of `cmds` are registered under. -/
def spawnersAll (origin : ActorId) : List (Command β E) → List ActorId
  | [] => []
  | c :: cs => spawners origin c ++ spawnersAll origin cs

end

mutual

theorem spawners_subset : ∀ (origin : ActorId) (c : Command β E), spawners origin c ⊆ origin :: c.ids
  | origin, .spawn actor cell commands => by
    rw [spawners, ids_spawn]
    intro p hp
    rcases List.mem_cons.1 hp with rfl | hp
    · exact List.mem_cons_self
    · exact List.mem_cons_of_mem _ (spawnersAll_subset actor.id commands hp)
  | _, .send _ _ _ => by simp [spawners]
  | _, .stop _ => by simp [spawners]

theorem spawnersAll_subset : ∀ (origin : ActorId) (cmds : List (Command β E)),
    spawnersAll origin cmds ⊆ origin :: idsAll cmds
  | _, [] => by simp [spawnersAll]
  | origin, c :: cs => by
    rw [spawnersAll, idsAll_cons]
    intro p hp
    rcases List.mem_append.1 hp with hp | hp
    · rcases List.mem_cons.1 (spawners_subset origin c hp) with rfl | hp
      · exact List.mem_cons_self
      · exact List.mem_cons_of_mem _ (List.mem_append_left _ hp)
    · rcases List.mem_cons.1 (spawnersAll_subset origin cs hp) with rfl | hp
      · exact List.mem_cons_self
      · exact List.mem_cons_of_mem _ (List.mem_append_right _ hp)

end

theorem recorded_append (live : List String) (cs : List (Command β E)) (c : Command β E) :
    Recorded live (cs ++ [c]) ↔ Recorded live cs ∧ RecordedOne (liveAfterAll live cs) c := by
  induction cs generalizing live with
  | nil => simp [Recorded, liveAfterAll]
  | cons c' cs ih => simp only [List.cons_append, Recorded, ih, liveAfterAll, List.foldl_cons, and_assoc]

end Command

/-! ## Scopes record what `Command.Recorded` describes -/

namespace TurnE

variable {ν β E α γ : Type}

theorem run_get_bind (f : Scope β E → TurnE ν β E α) (sc : Scope β E) (l : Ledger ν) :
    (((get >>= f : TurnE ν β E α).run.run sc).run l) = (((f sc).run.run sc).run l) := rfl

theorem run_liftM_bind (j : Journal ν γ) (f : γ → TurnE ν β E α) (sc : Scope β E) (l : Ledger ν) :
    (((liftM j >>= f : TurnE ν β E α).run.run sc).run l) = (((f (j.run l).1).run.run sc).run (j.run l).2) := rfl

end TurnE

namespace Scope

variable {ν β E : Type} {live : List String}

/-- The scope recorded its commands from the count `live`, as
`Command.Recorded` describes, and counts live what they leave live. -/
def Tracks (live : List String) (sc : Scope β E) : Prop :=
  Command.Recorded live sc.commands.toList ∧ sc.children = Command.liveAfterAll live sc.commands.toList

/-- The scope the system makes for an actor tracks its live children. -/
theorem tracks_scopeFor [Event E] (s : System β E) (actor : ActorRef) :
    (s.scopeFor actor).Tracks ((s.registry.children actor.id).map (·.name)) :=
  ⟨trivial, rfl⟩

theorem Tracks.push {sc : Scope β E} (h : sc.Tracks live) {c : Command β E} (hc : Command.RecordedOne sc.children c) :
    ({ sc with children := Command.liveAfter sc.children c, commands := sc.commands.push c } : Scope β E).Tracks live := by
  obtain ⟨hrec, hch⟩ := h
  rw [hch] at hc ⊢
  refine ⟨?_, ?_⟩
  · rw [Array.toList_push]
    exact (Command.recorded_append live _ c).2 ⟨hrec, hc⟩
  · simp only [Array.toList_push, Command.liveAfterAll, List.foldl_append, List.foldl_cons, List.foldl_nil]

theorem sendAfter_tracks (target : Target) (event : E) (delay : Option Duration) (sc : Scope β E) (l : Ledger ν)
    (h : sc.Tracks live) : (((sendAfter target event delay : Turn ν β E Unit).run sc).run l).1.2.Tracks live :=
  h.push (c := .send target event delay) trivial

theorem stop_tracks (target : Target) (sc : Scope β E) (l : Ledger ν) (h : sc.Tracks live) :
    (((stop target : Turn ν β E Unit).run sc).run l).1.2.Tracks live := by
  cases target <;> exact h.push (c := .stop _) trivial

/-- A spawn either leaves the scope as it was, or its child started in a scope
of its own and the scope counts the child and records its spawn. -/
theorem spawn_state (start : β → Turn ν β E (β × Except RuntimeError Unit)) (name : String) (cell : β)
    (sc : Scope β E) (l : Ledger ν) :
    (((spawn start name cell).run sc).run l).1.2 = sc ∨
      ∃ (actor : ActorRef) (l' : Ledger ν), actor.name = name ∧ sc.children.contains name = false ∧
        let child := ((start cell).run
          { actor := actor, parent := some sc.actor, children := [], hook := sc.hook, options := sc.options }).run l'
        child.1.1.2 = .ok () ∧
        (((spawn start name cell).run sc).run l).1.2 =
          { sc with
            children := sc.children ++ [name]
            commands := sc.commands.push (.spawn actor child.1.1.1 child.1.2.commands.toList) } := by
  unfold spawn
  erw [TurnE.run_get_bind]
  dsimp only
  cases hc : sc.children.contains name
  · rw [if_neg Bool.false_ne_true]
    erw [TurnE.run_liftM_bind, TurnE.run_liftM_bind]
    split
    · exact .inl rfl
    · next hok => exact .inr ⟨_, _, rfl, rfl, hok, rfl⟩
  · rw [if_pos rfl]
    exact .inl rfl

/-- A spawn keeps the record when the child's start keeps it from a scope of
its own, which counts no child. -/
theorem spawn_tracks (start : β → Turn ν β E (β × Except RuntimeError Unit))
    (hstart : ∀ cell sc l, sc.Tracks [] → (((start cell).run sc).run l).1.2.Tracks [])
    (name : String) (cell : β) (sc : Scope β E) (l : Ledger ν) (h : sc.Tracks live) :
    (((spawn start name cell).run sc).run l).1.2.Tracks live := by
  rcases spawn_state start name cell sc l with hs | ⟨actor, l', rfl, hfree, -, hs⟩
  · rw [hs]
    exact h
  · rw [hs]
    -- the scope did not count the name, and the child's start recorded from a scope counting no child
    refine h.push (c := .spawn actor _ _) ⟨by simpa using hfree, ?_⟩
    exact (hstart cell _ l' (by exact ⟨trivial, rfl⟩)).1

end Scope

/-! ## Names in the registry's tables -/

namespace Registry

/-- Every name in the table of `id` is among `live`. -/
def NamesIn (r : Registry) (id : ActorId) (live : List String) : Prop :=
  ∀ e, r.entry? id = some e → ∀ c ∈ e.children, c.1 ∈ live

/-- A failure names one of `parents`, and that parent is gone. -/
def FailsGone (r : Registry) (parents : List ActorId) (result : Except RuntimeError Unit) : Prop :=
  ∀ e, result = .error e → ∃ p ∈ parents, e = .parentGone p ∧ r.contains p = false

variable {r r' : Registry} {p k : ActorId} {child : ActorRef} {live : List String}

theorem NamesIn.mono (h : r.NamesIn k live) {live' : List String} (hsub : live ⊆ live') : r.NamesIn k live' :=
  fun e he c hc => hsub (h e he c hc)

theorem FailsGone.mono {parents parents' : List ActorId} {result : Except RuntimeError Unit}
    (h : r.FailsGone parents result) (hsub : parents ⊆ parents') : r.FailsGone parents' result := by
  intro e he
  obtain ⟨q, hq, rfl, hgone⟩ := h e he
  exact ⟨q, hsub hq, rfl, hgone⟩

theorem NamesIn.removeSubtree (h : r.NamesIn k live) (id : ActorId) : (r.removeSubtree id).1.NamesIn k live := by
  intro e' he' c hc
  obtain ⟨e, he, -, hsub⟩ := entry?_removeSubtree r id k he'
  exact h e he c (hsub hc)

theorem NamesIn.register_other (h : r.NamesIn k live) (hreg : r.register p child = .ok r') (hpk : p ≠ k) :
    r'.NamesIn k live := by
  obtain ⟨pe, -, -, rfl⟩ := register_eq hreg
  intro e' he' c hc
  rw [entry?_append] at he'
  change (Registry.entry? (r.modifyEntry p _) k).or _ = _ at he'
  rw [entry?_modifyEntry, if_neg (Ne.symm hpk)] at he'
  cases he : r.entry? k with
  | some e =>
    rw [he, Option.some_or] at he'
    cases he'
    exact h _ he c hc
  | none =>
    -- only a child registered under the id `k` has an entry there now, with an empty table
    rw [he, Option.none_or] at he'
    split at he'
    · cases he'
      simp at hc
    · cases he'

theorem NamesIn.register_self (h : r.NamesIn p live) (hreg : r.register p child = .ok r')
    (hfresh : r.entry? child.id = none) : r'.NamesIn p (live ++ [child.name]) := by
  obtain ⟨pe, hpe, hfree, -⟩ := register_eq hreg
  have hpc : p ≠ child.id := fun hpc => by rw [hpc, hfresh] at hpe; cases hpe
  intro e' he' c hc
  rw [entry?_register hreg hpe hfresh, if_neg hpc, if_pos rfl] at he'
  cases he'
  rcases List.mem_cons.1 ((insertByName_perm hfree).mem_iff.1 hc) with rfl | hc
  · exact List.mem_append_right _ (List.mem_singleton_self _)
  · exact List.mem_append_left _ (h pe hpe c hc)

theorem namesIn_register_child (hreg : r.register p child = .ok r') (hfresh : r.entry? child.id = none) :
    r'.NamesIn child.id [] := by
  obtain ⟨pe, hpe, -, -⟩ := register_eq hreg
  intro e' he' c hc
  rw [entry?_register hreg hpe hfresh, if_pos rfl] at he'
  cases he'
  simp at hc

/-- With every name of the parent's table counted live, a name not counted
live is free: the registry refuses the child only when its parent is gone. -/
theorem register_error_of_namesIn {e : RuntimeError} (h : r.NamesIn p live) (hname : child.name ∉ live)
    (hreg : r.register p child = .error e) : e = .parentGone p ∧ r.contains p = false := by
  unfold register at hreg
  split at hreg
  · next hnone =>
    cases hreg
    exact ⟨rfl, by simp [contains, hnone]⟩
  · next pe hpe =>
    split at hreg
    · next hany =>
      obtain ⟨c, hc, hcn⟩ := List.any_eq_true.1 hany
      exact absurd (beq_iff_eq.1 hcn ▸ h pe hpe c hc) hname
    · cases hreg

/-! ### Children by name -/

variable {name : String} {id : ActorId}

theorem child?_eq_some (h : r.child? p name = some id) : ∃ e, r.entry? p = some e ∧ (name, id) ∈ e.children := by
  unfold child? at h
  obtain ⟨e, he, hfind⟩ := Option.bind_eq_some_iff.1 h
  obtain ⟨c, hc, rfl⟩ := Option.map_eq_some_iff.1 hfind
  have hcn : c.1 = name := by simpa using List.find?_some hc
  refine ⟨e, he, ?_⟩
  rw [← hcn]
  exact List.mem_of_find?_eq_some hc

theorem child?_eq_none (h : r.child? p name = none) : ∀ e, r.entry? p = some e → ∀ c ∈ e.children, c.1 ≠ name := by
  intro e he c hc hcn
  unfold child? at h
  rw [he, Option.bind_some, Option.map_eq_none_iff, List.find?_eq_none] at h
  exact h c hc (beq_iff_eq.2 hcn)

theorem NamesIn.filter_of_child?_eq_none (h : r.NamesIn p live) (hc : r.child? p name = none) :
    r.NamesIn p (live.filter (· != name)) :=
  fun e he c hmem => List.mem_filter.2 ⟨h e he c hmem, bne_iff_ne.2 (child?_eq_none hc e he c hmem)⟩

section Tree

variable {root : ActorRef}

theorem Tree.child?_ne_root (ht : r.Tree root) (h : r.child? p name = some id) : id ≠ root.id := by
  obtain ⟨e, he, hc⟩ := child?_eq_some h
  obtain ⟨ce, hce, hcp, -⟩ := ht.down p e he _ hc
  obtain ⟨re, hre, -, hrp⟩ := ht.rooted
  intro hid
  rw [hid, hre] at hce
  cases hce
  rw [hrp] at hcp
  cases hcp

theorem Tree.namesIn_removeSubtree_child (ht : r.Tree root) (h : r.NamesIn p live) (hc : r.child? p name = some id) :
    (r.removeSubtree id).1.NamesIn p (live.filter (· != name)) := by
  obtain ⟨d, hd⟩ := ht.depth
  obtain ⟨e, he, hmem⟩ := child?_eq_some hc
  obtain ⟨ie, hie, hip, hin⟩ := ht.down p e he _ hmem
  intro e' he' c hc'
  obtain ⟨-, hu, -⟩ := ht.entry?_removeSubtree_some hd he'
  -- the parent's table lost exactly the stopped child's name
  rw [entry?_unlink_parent hie hip, if_pos rfl, he] at hu
  cases hu
  obtain ⟨hce, hne⟩ := List.mem_filter.1 hc'
  have hname : ie.actor.name = name := hin
  rw [hname] at hne
  exact List.mem_filter.2 ⟨h e he c hce, hne⟩

/-- The scope of an actor counts live every name in its table. -/
theorem Tree.namesIn_children (ht : r.Tree root) (a : ActorId) : r.NamesIn a ((r.children a).map (·.name)) := by
  intro e he c hc
  obtain ⟨ce, hce, -, hname⟩ := ht.down a e he c hc
  refine List.mem_map.2 ⟨ce.actor, ?_, hname⟩
  unfold children
  rw [he]
  exact List.mem_filterMap.2 ⟨c, hc, by simp [actor?, hce]⟩

end Tree

/-! ### Properties kept apart from some registrations -/

/-- A property of registries that removing any subtree keeps, and so does
registering a child whose parent passes `parent` and whose id passes `child`. -/
structure Stable (Q : Registry → Prop) (parent child : ActorId → Prop) : Prop where
  remove : ∀ r id, Q r → Q (r.removeSubtree id).1
  register : ∀ r p c r', parent p → child c.id → Q r → r.register p c = .ok r' → Q r'

theorem stable_namesIn (k : ActorId) (live : List String) : Stable (·.NamesIn k live) (· ≠ k) fun _ => True :=
  ⟨fun _ id h => h.removeSubtree id, fun _ _ _ _ hp _ h hreg => h.register_other hreg hp⟩

theorem stable_failsGone (parents : List ActorId) (result : Except RuntimeError Unit) :
    Stable (·.FailsGone parents result) (fun _ => True) (· ∉ parents) := by
  refine ⟨fun r id h e he => ?_, fun r p c r' _ hc h hreg e he => ?_⟩
  · obtain ⟨q, hq, rfl, hgone⟩ := h e he
    refine ⟨q, hq, rfl, ?_⟩
    rw [contains_removeSubtree, hgone, Bool.and_false]
  · obtain ⟨q, hq, rfl, hgone⟩ := h e he
    refine ⟨q, hq, rfl, ?_⟩
    rw [contains_register hreg, hgone, Bool.false_or, beq_eq_false_iff_ne]
    exact fun hqc => hc (hqc ▸ hq)

end Registry

/-! ## Committing keeps the count -/

namespace System

variable {ν β E : Type} (b : Behaviour ν β E)

section Stable

variable {Q : Registry → Prop} {parent child : ActorId → Prop}

theorem stopActor_stable (h : Registry.Stable Q parent child) (id : ActorId) :
    Spec (fun s => Q s.registry) (stopActor id : Sys ν β E Unit) fun _ s => Q s.registry :=
  Spec.of_state (stopActor_state id) fun _ s hs => h.remove s.registry id hs

variable [Event E]

theorem commitStop_stable (h : Registry.Stable Q parent child) (origin : ActorId) (target : Target) :
    Spec (fun s => Q s.registry) (commitStop origin target : Sys ν β E Unit) fun _ s => Q s.registry :=
  commitStop_keeps origin target (fun _ hs => hs) fun id s l hs => stopActor_stable h id s l hs.1

mutual

/-- Committing keeps what removing a subtree and registering a passing child
keep, when the committing actor and every spawned id pass. -/
theorem commit_stable (h : Registry.Stable Q parent child) : ∀ (origin : ActorId) (cmds : List (Command β E)),
    parent origin → (∀ i ∈ Command.idsAll cmds, parent i ∧ child i) →
    Spec (fun s => Q s.registry) (commit b origin cmds) fun _ s => Q s.registry
  | _, [], _, _ => Spec.pure fun _ hs => hs
  | origin, c :: cs, ho, hids => by
    rw [commit]
    rw [Command.idsAll_cons] at hids
    refine Spec.bind (commitOne_stable h origin c ho fun i hi => hids i (List.mem_append_left _ hi)) fun _ => ?_
    exact Spec.bind (commit_stable h origin cs ho fun i hi => hids i (List.mem_append_right _ hi)) fun _ =>
      Spec.pure fun _ hs => hs

theorem commitOne_stable (h : Registry.Stable Q parent child) : ∀ (origin : ActorId) (c : Command β E),
    parent origin → (∀ i ∈ c.ids, parent i ∧ child i) →
    Spec (fun s => Q s.registry) (commitOne b origin c) fun _ s => Q s.registry
  | origin, .send target event delay, _, _ => by
    rw [commitOne]
    refine Spec.bind (fun s l hs => ?_) fun _ => Spec.pure fun _ hs => hs
    rw [(commitSend_actors origin target event delay s l).2.1]
    exact hs
  | origin, .stop target, _, _ => by
    rw [commitOne]
    exact Spec.bind (commitStop_stable h origin target) fun _ => Spec.pure fun _ hs => hs
  | origin, .spawn actor cell commands, ho, hids => by
    rw [commitOne]
    rw [Command.ids_spawn] at hids
    have hactor := hids actor.id List.mem_cons_self
    refine Spec.bind Spec.get fun s => ?_
    split
    · exact Spec.pure fun _ hs => hs.2
    · next registry hreg =>
      have body : Spec (fun s => Q s.registry)
          (modify (fun s => s.putCell actor.id cell) >>= fun _ => commit b actor.id commands >>=
            fun committed => if b.isDone cell then stopActor actor.id >>= fun _ => pure committed
              else pure committed) fun _ s => Q s.registry :=
        Spec.bind (Spec.modify fun _ hs => hs) fun _ =>
          stopIfDone_keeps (commit_stable h actor.id commands hactor.1 fun i hi => hids i (List.mem_cons_of_mem _ hi))
            (stopActor_stable h actor.id)
      refine Spec.bind (R := fun _ s => Q s.registry)
        (Spec.set fun _ hs => h.register _ origin actor registry ho hactor.2 (hs.1 ▸ hs.2) hreg) fun _ => ?_
      dsimp only
      split
      · exact Spec.bind (emit_keeps _ _) fun _ => body
      · exact body

end

end Stable

variable [Event E]

/-- A stop of a child by name takes the name out of the committing actor's
table; any other stop only takes names out of tables. -/
theorem commitStop_namesIn {root : ActorRef} (origin : ActorId) (target : Target) (live : List String) :
    Spec (fun s => Shaped root s ∧ s.registry.NamesIn origin live) (commitStop origin target : Sys ν β E Unit)
      fun _ s => s.registry.NamesIn origin (Command.liveAfter live (.stop target : Command β E)) := by
  cases target with
  | child name =>
    unfold commitStop
    refine Spec.bind Spec.get fun s => ?_
    split
    · next id hc =>
      -- the address of a child resolves to the live child of that name
      change s.registry.child? origin name = some id at hc
      split
      · next hroot =>
        refine Spec.set fun _ ⟨hs, hshape, _⟩ => ?_
        subst hs
        have hid : id = root.id := (beq_iff_eq.1 hroot).trans (congrArg ActorRef.id hshape.root_eq)
        exact absurd hid (hshape.tree.child?_ne_root hc)
      · refine Spec.of_state (stopActor_state id) fun _ _ ⟨hs, hshape, hn⟩ => ?_
        subst hs
        exact hshape.tree.namesIn_removeSubtree_child hn hc
    · next hc =>
      change s.registry.child? origin name = none at hc
      refine Spec.pure fun _ ⟨hs, _, hn⟩ => ?_
      subst hs
      exact hn.filter_of_child?_eq_none hc
  | itself => exact Spec.pre (commitStop_stable (Registry.stable_namesIn origin live) origin _) fun _ hs => hs.2
  | parent => exact Spec.pre (commitStop_stable (Registry.stable_namesIn origin live) origin _) fun _ hs => hs.2
  | actor ref => exact Spec.pre (commitStop_stable (Registry.stable_namesIn origin live) origin _) fun _ hs => hs.2

section Count

variable {root : ActorRef}

mutual

/-- Committing recorded commands keeps the committing actor's table within the
scope's count, and a failure names a gone parent of one of the spawns. -/
theorem commit_namesIn : ∀ (origin : ActorId) (cmds : List (Command β E)) (live : List String)
    (used : List ActorId), Command.Recorded live cmds → root.id ∈ used → origin ∈ used →
    (used ++ Command.idsAll cmds).Nodup →
    Spec (fun s => Shaped root s ∧ Within used s ∧ s.registry.NamesIn origin live) (commit b origin cmds)
      fun r s => s.registry.NamesIn origin (Command.liveAfterAll live cmds) ∧
        s.registry.FailsGone (Command.spawnersAll origin cmds) r
  | _, [], _, _, _, _, _, _ => Spec.pure fun _ hs => ⟨hs.2.2, fun _ he => by cases he⟩
  | origin, c :: cs, live, used, hrec, hroot, ho, hnd => by
    rw [commit, Command.spawnersAll]
    rw [Command.Recorded] at hrec
    have hnd' : (used ++ c.ids ++ Command.idsAll cs).Nodup := by simpa using hnd
    have hnd₁ := (List.sublist_append_left _ _).nodup hnd'
    refine Spec.bind (Spec.and (Spec.pre (commitOne_shaped b origin c used hroot hnd₁) fun _ hs => ⟨hs.1, hs.2.1⟩)
      (commitOne_namesIn origin c live used hrec.1 hroot ho hnd₁)) fun first => ?_
    -- no later spawn takes the id of a parent the first command may name
    have hapart : ∀ i ∈ Command.idsAll cs, True ∧ i ∉ c.spawners origin := fun i hi => ⟨trivial, fun hin =>
      List.disjoint_of_nodup_append hnd' (List.mem_cons.1 (Command.spawners_subset origin c hin) |>.elim
        (fun h => h ▸ List.mem_append_left _ ho) (List.mem_append_right _)) hi⟩
    refine Spec.bind (Spec.and
      (Spec.pre (commit_namesIn origin cs (Command.liveAfter live c) (used ++ c.ids) hrec.2
        (List.mem_append_left _ hroot) (List.mem_append_left _ ho) hnd') fun _ hs => ⟨hs.1.1, hs.1.2, hs.2.1⟩)
      (Spec.pre (commit_stable b (Registry.stable_failsGone _ first) origin cs trivial hapart)
        fun _ hs => hs.2.2)) fun rest => Spec.pure fun _ hs => ⟨hs.1.1, ?_⟩
    rcases first with e | ⟨⟩
    · exact hs.2.mono (List.subset_append_left _ _)
    · exact hs.1.2.mono (List.subset_append_right _ _)

theorem commitOne_namesIn : ∀ (origin : ActorId) (c : Command β E) (live : List String) (used : List ActorId),
    Command.RecordedOne live c → root.id ∈ used → origin ∈ used → (used ++ c.ids).Nodup →
    Spec (fun s => Shaped root s ∧ Within used s ∧ s.registry.NamesIn origin live) (commitOne b origin c)
      fun r s => s.registry.NamesIn origin (Command.liveAfter live c) ∧ s.registry.FailsGone (c.spawners origin) r
  | origin, .send target event delay, live, _, _, _, _, _ => by
    rw [commitOne]
    refine Spec.bind (fun s l hs => ?_) fun _ => Spec.pure fun _ hs => ⟨hs, fun _ he => by cases he⟩
    rw [(commitSend_actors origin target event delay s l).2.1]
    exact hs.2.2
  | origin, .stop target, live, _, _, _, _, _ => by
    rw [commitOne]
    exact Spec.bind (Spec.pre (commitStop_namesIn origin target live) fun _ hs => ⟨hs.1, hs.2.2⟩) fun _ =>
      Spec.pure fun _ hs => ⟨hs, fun _ he => by cases he⟩
  | origin, .spawn actor cell commands, live, used, hrec, hroot, ho, hnd => by
    rw [commitOne, Command.liveAfter, Command.spawners]
    rw [Command.ids_spawn] at hnd
    rw [Command.RecordedOne] at hrec
    obtain ⟨hnew, -, hnd'⟩ := fresh_spawn hroot hnd
    have hne : actor.id ≠ origin := fun h => hnew (h ▸ ho)
    refine Spec.bind Spec.get fun s => ?_
    split
    · next e hreg =>
      -- the scope counted the name free, so the registry refused a parent that is gone
      refine Spec.pure fun _ ⟨hs, _, _, hn⟩ => ?_
      subst hs
      obtain ⟨rfl, hgone⟩ := Registry.register_error_of_namesIn hn hrec.1 hreg
      exact ⟨hn.mono (List.subset_append_left _ _), fun _ he => by
        cases he
        exact ⟨origin, List.mem_cons_self, rfl, hgone⟩⟩
    · next registry hreg =>
      -- the child joins its parent's table with an empty table of its own; what
      -- its start produced is committed below it and only takes names out of
      -- the parent's table
      have body : Spec (fun s' => s' = { s with registry } ∧ Shaped root s ∧ Within used s ∧
            s.registry.NamesIn origin live)
          (modify (fun s => s.putCell actor.id cell) >>= fun _ => commit b actor.id commands >>=
            fun committed => if b.isDone cell then stopActor actor.id >>= fun _ => pure committed
              else pure committed)
          fun r s => s.registry.NamesIn origin (live ++ [actor.name]) ∧
            s.registry.FailsGone (origin :: Command.spawnersAll actor.id commands) r := by
        refine Spec.bind (R := fun _ s => (Shaped root s ∧ Within (used ++ [actor.id]) s ∧
            s.registry.NamesIn actor.id []) ∧ s.registry.NamesIn origin (live ++ [actor.name]))
          (Spec.modify fun _ hs => ?_) fun _ => ?_
        · obtain ⟨rfl, hs, hw, hn⟩ := hs
          have hfresh := hw.not_contains hnew
          have hnone : s.registry.entry? actor.id = none := by simpa [Registry.contains] using hfresh
          exact ⟨⟨shaped_spawn hs hreg hfresh, within_spawn hw hreg, Registry.namesIn_register_child hreg hnone⟩,
            hn.register_self hreg hnone⟩
        refine Spec.bind (Spec.and
          (Spec.pre (commit_namesIn actor.id commands [] (used ++ [actor.id]) hrec.2 (List.mem_append_left _ hroot)
            (List.mem_append_right _ (List.mem_singleton_self _)) hnd') fun _ hs => hs.1)
          (Spec.pre (commit_stable b (Registry.stable_namesIn origin (live ++ [actor.name])) actor.id commands hne
            fun i hi => ⟨fun h => List.disjoint_of_nodup_append hnd' (List.mem_append_left _ (h ▸ ho))
              (h ▸ hi), trivial⟩) fun _ hs => hs.2)) fun committed => ?_
        split
        · refine Spec.bind (Spec.and (Spec.pre (stopActor_stable (Registry.stable_namesIn origin _) actor.id)
            fun _ hs => hs.2) (Spec.pre (stopActor_stable (Registry.stable_failsGone _ committed) actor.id)
              fun _ hs => hs.1.2)) fun _ => Spec.pure fun _ hs => ⟨hs.1, hs.2.mono (List.subset_cons_self _ _)⟩
        · exact Spec.pure fun _ hs => ⟨hs.2, hs.1.2.mono (List.subset_cons_self _ _)⟩
      refine Spec.bind (R := fun _ s' => s' = { s with registry } ∧ Shaped root s ∧ Within used s ∧
          s.registry.NamesIn origin live) (Spec.set fun _ hs => ⟨rfl, hs.1 ▸ hs.2⟩) fun _ => ?_
      dsimp only
      split
      · exact Spec.bind (emit_keeps _ _) fun _ => body
      · exact body

end

end Count

/-- In a reachable system, committing what a live actor's scope recorded fails
only with `parentGone` of the actor itself or of an actor the commit spawned. -/
theorem commit_fails_only_for_gone_parent {root : ActorRef} {s : System β E} {a : ActorId}
    {cmds : List (Command β E)} (hreach : Reachable b root s) (ha : s.registry.contains a = true)
    (hrec : Command.Recorded ((s.registry.children a).map (·.name)) cmds) (hfresh : Fresh s cmds)
    (l : Ledger ν) (e : RuntimeError) (he : (((commit b a cmds).run s).run l).1.1 = .error e) :
    ∃ p, e = .parentGone p ∧ p ∈ Command.spawnersAll a cmds ∧ (p = a ∨ p ∈ Command.idsAll cmds) ∧
      (((commit b a cmds).run s).run l).1.2.registry.contains p = false := by
  obtain ⟨hs, -⟩ := hreach.shaped
  obtain ⟨hwithin, hroot⟩ := hs.keys
  obtain ⟨-, hfail⟩ := commit_namesIn b a cmds _ _ hrec hroot (hwithin a ha) (hs.nodup_keys hfresh) s l
    ⟨hs, hwithin, hs.tree.namesIn_children a⟩
  obtain ⟨p, hp, rfl, hgone⟩ := hfail e he
  exact ⟨p, rfl, hp, List.mem_cons.1 (Command.spawnersAll_subset a cmds hp), hgone⟩

end System

/-- A child that stops itself in its start leaves the child it spawns there
without a parent: committing fails, naming the first child, which is gone. -/
theorem orphaned_spawn_fails :
    let b := (Script.nursery []).behaviour
    let s : System Script.Cell Script.Signal := System.new ⟨0, "m"⟩ (.manual 0) false {}
    let cmds : List (Command Script.Cell Script.Signal) := [.spawn ⟨1, "kid"⟩ (.echo { status := .running })
      [.stop .itself, .spawn ⟨2, "grandkid"⟩ (.echo { status := .running }) []]]
    System.Reachable b ⟨0, "m"⟩ s ∧ s.registry.contains 0 = true ∧
      Command.Recorded ((s.registry.children 0).map (·.name)) cmds ∧ System.Fresh s cmds ∧
      (((System.commit b 0 cmds).run s).run {}).1.1 = .error (.parentGone 1) ∧
      (((System.commit b 0 cmds).run s).run {}).1.2.registry.contains 1 = false := by
  intro b s cmds
  have hreach : System.Reachable b ⟨0, "m"⟩ s := .new (.manual 0) false {}
  have hlive : s.registry.contains 0 = true := by decide
  have hnone : s.registry.children 0 = [] := Registry.children_ofRoot ⟨0, "m"⟩
  have hrec : Command.Recorded ((s.registry.children 0).map (·.name)) cmds := by
    simp [hnone, cmds, Command.Recorded, Command.RecordedOne, Command.liveAfter]
  have hfresh : System.Fresh s cmds := ⟨by decide, by decide⟩
  have hfail : (((System.commit b 0 cmds).run s).run {}).1.1 = .error (.parentGone 1) := by decide
  obtain ⟨p, hp, -, -, hgone⟩ :=
    System.commit_fails_only_for_gone_parent b hreach hlive hrec hfresh {} _ hfail
  cases hp
  exact ⟨hreach, hlive, hrec, hfresh, hfail, hgone⟩

end Statechart
