import Statechart.Proofs.Tree.Shape
/-!
# Adding the transitions

After the states, the builder gives each node the candidates its configuration
lists, resolving every target against the tree built so far; a target that
does not resolve is a problem and its candidate is left out. Adding candidates
changes nothing else (`SameStates`), so resolution gives the same answers
throughout, and when no target fails each node ends up with exactly its
configured candidates, resolved from it (`ResolvedFrom`).
-/
namespace Statechart

/-- The configured candidates of a state for a trigger, in order: the `on` lists
under its key, then the eventless list for the eventless trigger. -/
def StateConfig.candidatesFor (c : StateConfig) (trigger : Trigger) : List CandidateConfig :=
  ((c.on.filter fun e => Trigger.ofKey e.1 == trigger).map Prod.snd).flatten ++
    if trigger = .always then c.always else []

namespace StateTree

/-- The built candidate `c` is the configured candidate `cc`, its target
resolved as seen from `source`. -/
def ResolvedFrom (t : StateTree) (source : Nat) (cc : CandidateConfig) (c : Candidate) : Prop :=
  c.guard = cc.guard ∧ c.actions = cc.actions ∧ cc.target.map (t.resolve source) = c.target.map some

/-- `t'` has the nodes and ids of `t`, except perhaps for their candidates. -/
structure SameStates (t t' : StateTree) : Prop where
  size : t'.nodes.size = t.nodes.size
  ids : t'.ids = t.ids
  node : ∀ i, t'.node i = { t.node i with on := (t'.node i).on, always := (t'.node i).always }

namespace SameStates

variable {t t' t'' : StateTree}

theorem refl (t : StateTree) : SameStates t t := ⟨rfl, rfl, fun _ => rfl⟩

theorem trans (h : SameStates t t') (h' : SameStates t' t'') : SameStates t t'' := by
  refine ⟨h'.size.trans h.size, h'.ids.trans h.ids, fun i => ?_⟩
  rw [h'.node i, h.node i]

theorem key (h : SameStates t t') (i : Nat) : (t'.node i).key = (t.node i).key := by
  rw [h.node i]

theorem id (h : SameStates t t') (i : Nat) : (t'.node i).id = (t.node i).id := by
  rw [h.node i]

theorem path (h : SameStates t t') (i : Nat) : (t'.node i).path = (t.node i).path := by
  rw [h.node i]

theorem parent (h : SameStates t t') (i : Nat) : (t'.node i).parent = (t.node i).parent := by
  rw [h.node i]

theorem kind (h : SameStates t t') (i : Nat) : (t'.node i).kind = (t.node i).kind := by
  rw [h.node i]

theorem initial (h : SameStates t t') (i : Nat) : (t'.node i).initial = (t.node i).initial := by
  rw [h.node i]

theorem children (h : SameStates t t') (i : Nat) :
    (t'.node i).children = (t.node i).children := by
  rw [h.node i]

theorem entry (h : SameStates t t') (i : Nat) : (t'.node i).entry = (t.node i).entry := by
  rw [h.node i]

theorem exit (h : SameStates t t') (i : Nat) : (t'.node i).exit = (t.node i).exit := by
  rw [h.node i]

theorem byId (h : SameStates t t') : t'.byId = t.byId := by
  funext id
  simp only [StateTree.byId, h.ids]

theorem childByKey (h : SameStates t t') : t'.childByKey = t.childByKey := by
  funext p k
  simp only [StateTree.childByKey, h.children, h.key]

theorem resolve (h : SameStates t t') : t'.resolve = t.resolve := by
  funext s text
  simp only [StateTree.resolve, h.byId, StateTree.descend, h.childByKey, h.parent]

theorem resolvedFrom (h : SameStates t t') {source : Nat} {cc : CandidateConfig}
    {c : Candidate} : t'.ResolvedFrom source cc c ↔ t.ResolvedFrom source cc c := by
  unfold ResolvedFrom
  rw [h.resolve]

theorem wellShaped (h : SameStates t t') (hw : t.WellShaped) : t'.WellShaped := by
  obtain ⟨hroot, hrp, hrpath, hplt, hhas, hmem, hpath, hnodup, hvalid, hfinal, hcomp, hinit,
    hleaf, hbyid, hnode⟩ := hw
  refine ⟨?_, ?_, ?_, ?_, ?_, ?_, ?_, ?_, ?_, ?_, ?_, ?_, ?_, ?_, ?_⟩ <;>
    simp only [h.size, h.key, h.id, h.path, h.parent, h.kind, h.initial, h.children, h.byId]
  all_goals assumption

end SameStates

theorem Node.candidates_of_empty {n : Node} (hon : n.on = []) (halways : n.always = [])
    (trigger : Trigger) : n.candidates trigger = [] := by
  cases trigger <;> simp [Node.candidates, hon, halways]

private theorem lookup_map (l : List (String × List Candidate)) (e e' : String) (c : Candidate) :
    (((l.map fun x => if (x.fst == e) = true then (x.fst, x.snd ++ [c]) else (x.fst, x.snd)).find?
        fun x => x.fst == e').map Prod.snd).getD [] =
      ((l.find? fun x => x.fst == e').map Prod.snd).getD [] ++
        if e = e' ∧ (l.any fun x => x.fst == e) = true then [c] else [] := by
  induction l with
  | nil => simp
  | cons x l ih =>
    obtain ⟨k, cs⟩ := x
    by_cases hk : k = e'
    · -- the head is the entry looked up
      subst hk
      by_cases he : k = e
      · subst he
        simp
      · simp [he, Ne.symm he]
    · have hk' : (k == e') = false := by simpa using hk
      have hhead : ((if (k == e) = true then (k, cs ++ [c]) else (k, cs)).fst == e') = false := by
        split <;> exact hk'
      simp only [List.map_cons, List.find?_cons, hhead, hk', List.any_cons, ih]
      by_cases he : k = e
      · subst he
        simp [hk]
      · have he' : (k == e) = false := by simpa using he
        simp only [he', Bool.false_or]

private theorem lookup_append (l : List (String × List Candidate)) (e e' : String)
    (c : Candidate) :
    (((l ++ [(e, [c])]).find? fun x => x.fst == e').map Prod.snd).getD [] =
      ((l.find? fun x => x.fst == e').map Prod.snd).getD [] ++
        if e = e' ∧ (l.any fun x => x.fst == e) = false then [c] else [] := by
  induction l with
  | nil => by_cases h : e = e' <;> simp [h]
  | cons x l ih =>
    obtain ⟨k, cs⟩ := x
    by_cases hk : k = e'
    · subst hk
      by_cases he : k = e
      · subst he
        simp
      · simp [he, Ne.symm he]
    · have hk' : (k == e') = false := by simpa using hk
      simp only [List.cons_append, List.find?_cons, hk', List.any_cons, ih]
      by_cases he : k = e
      · subst he
        simp [hk]
      · have he' : (k == e) = false := by simpa using he
        simp only [he', Bool.false_or]

/-- Adding a candidate for a trigger appends it to that trigger's candidates
and leaves every other trigger's as they were. -/
theorem Node.candidates_addCandidate (n : Node) (trigger : Trigger) (c : Candidate)
    (trigger' : Trigger) :
    (n.addCandidate trigger c).candidates trigger' =
      n.candidates trigger' ++ if trigger = trigger' then [c] else [] := by
  cases trigger with
  | always => cases trigger' <;> simp [Node.addCandidate, Node.candidates]
  | event e =>
    cases trigger' with
    | always =>
      simp only [Node.addCandidate, Node.candidates]
      split <;> simp
    | event e' =>
      simp only [Node.addCandidate, Node.candidates]
      by_cases hany : (n.on.any fun x => x.fst == e) = true
      · rw [if_pos hany, lookup_map]
        simp [hany]
      · rw [if_neg hany, lookup_append]
        simp [hany]

/-- `t'` is `t` with `added trigger` appended to the candidates of node `source`
for every trigger, and nothing else changed. -/
structure GainsCandidates (t : StateTree) (source : Nat) (added : Trigger → List Candidate)
    (t' : StateTree) : Prop where
  same : SameStates t t'
  frame : ∀ i, i ≠ source → t'.node i = t.node i
  candidates : ∀ trigger,
    (t'.node source).candidates trigger = (t.node source).candidates trigger ++ added trigger

namespace GainsCandidates

variable {t t' t'' : StateTree} {source : Nat}

theorem refl (t : StateTree) (source : Nat) : GainsCandidates t source (fun _ => []) t :=
  ⟨SameStates.refl t, fun _ _ => rfl, fun _ => (List.append_nil _).symm⟩

theorem trans {f g added : Trigger → List Candidate} (h : GainsCandidates t source f t')
    (h' : GainsCandidates t' source g t'')
    (hadded : ∀ trigger, added trigger = f trigger ++ g trigger) :
    GainsCandidates t source added t'' := by
  refine ⟨h.same.trans h'.same, fun i hi => ?_, fun trigger => ?_⟩
  · rw [h'.frame i hi, h.frame i hi]
  · rw [h'.candidates, h.candidates, hadded, List.append_assoc]

end GainsCandidates

theorem gainsCandidates_modify {t : StateTree} {source : Nat} (hs : source < t.nodes.size)
    (trigger : Trigger) (c : Candidate) :
    GainsCandidates t source (fun trigger' => if trigger = trigger' then [c] else [])
      { t with nodes := t.nodes.modify source fun n => n.addCandidate trigger c } := by
  have hnode : ∀ i, ({ t with nodes := t.nodes.modify source fun n => n.addCandidate trigger c } :
      StateTree).node i = if source = i then (t.node i).addCandidate trigger c else t.node i := by
    intro i
    simp only [StateTree.node, Array.getElem?_modify]
    by_cases hi : source = i
    · subst hi
      simp [Array.getElem?_eq_getElem hs]
    · simp [hi]
  refine ⟨⟨by simp, rfl, fun i => ?_⟩, fun i hi => ?_, fun trigger' => ?_⟩
  · rw [hnode i]
    split
    · -- adding a candidate changes only the candidate lists of the node
      cases trigger with
      | event e =>
        simp only [Node.addCandidate]
        split <;> rfl
      | always => rfl
    · rfl
  · rw [hnode i, if_neg (Ne.symm hi)]
  · rw [hnode source, if_pos rfl, Node.candidates_addCandidate]

/-- Trees with the same states agree on every `ResolvedFrom`. -/
theorem SameStates.forall₂_resolvedFrom {t t' : StateTree} (h : SameStates t t') {source : Nat}
    {ccs : List CandidateConfig} {cs : List Candidate}
    (hf : List.Forall₂ (t'.ResolvedFrom source) ccs cs) :
    List.Forall₂ (t.ResolvedFrom source) ccs cs :=
  hf.imp fun _ _ hr => h.resolvedFrom.1 hr

end StateTree

namespace TreeBuilder

open StateTree

/-- A candidate resolves exactly when its target, if any, resolves from its
state. -/
theorem resolveCandidate_eq_ok {t : StateTree} {source : Nat} {trigger : Trigger}
    {cc : CandidateConfig} {c : Candidate} :
    resolveCandidate t source trigger cc = .ok c ↔ t.ResolvedFrom source cc c := by
  obtain ⟨guard, actions, target⟩ := c
  unfold resolveCandidate ResolvedFrom
  cases htarget : cc.target with
  | none => cases target <;> simp [eq_comm]
  | some text =>
    cases hr : t.resolve source text with
    | none => cases target <;> simp [hr]
    | some r => cases target <;> simp [hr, eq_comm]

theorem errors_prefix_addCandidates (source : Nat) (trigger : Trigger) :
    ∀ (ccs : List CandidateConfig) (t : StateTree) (errs : List ConfigError),
      errs <+: (addCandidates source trigger ccs (t, errs)).2
  | [], _, _ => List.prefix_refl _
  | cc :: ccs, t, errs => by
    unfold addCandidates
    split
    · exact errors_prefix_addCandidates source trigger ccs _ errs
    · exact (List.prefix_append errs _).trans (errors_prefix_addCandidates source trigger ccs _ _)

/-- When no target of a list fails, its candidates are appended, resolved and in
order, to the source's candidates for the trigger. -/
theorem addCandidates_clean (source : Nat) (trigger : Trigger) :
    ∀ (ccs : List CandidateConfig) (t : StateTree) (errs : List ConfigError),
      source < t.nodes.size → (addCandidates source trigger ccs (t, errs)).2 = errs →
      ∃ cs, List.Forall₂ (t.ResolvedFrom source) ccs cs ∧
        t.GainsCandidates source (fun trigger' => if trigger = trigger' then cs else [])
          (addCandidates source trigger ccs (t, errs)).1
  | [], t, _, _, _ => ⟨[], .nil, by simpa [addCandidates] using GainsCandidates.refl t source⟩
  | cc :: ccs, t, errs, hs, herr => by
    unfold addCandidates at herr ⊢
    split at herr
    · rename_i c hc
      have hstep := gainsCandidates_modify hs trigger c
      obtain ⟨cs, hcs, hgains⟩ := addCandidates_clean source trigger ccs _ errs
        (by rw [hstep.same.size]; exact hs) herr
      refine ⟨c :: cs, .cons (resolveCandidate_eq_ok.1 hc) (hstep.same.forall₂_resolvedFrom hcs),
        hstep.trans hgains fun trigger' => ?_⟩
      split <;> simp
    · -- a failed target is recorded, so the problems grew
      rename_i e _
      have hlen := (errors_prefix_addCandidates source trigger ccs t (errs ++ [e])).length_le
      rw [herr, List.length_append, List.length_singleton] at hlen
      omega

/-- One step of the fold over the `on` entries: the entry's list, under the
trigger its key stands for. -/
def addEntry (index : Nat) (acc : StateTree × List ConfigError)
    (entry : String × List CandidateConfig) : StateTree × List ConfigError :=
  addCandidates index (Trigger.ofKey entry.1) entry.2 acc

theorem addTransitions_eq (acc : StateTree × List ConfigError) (index : Nat)
    (config : StateConfig) :
    addTransitions acc (index, config) =
      addCandidates index .always config.always (config.on.foldl (addEntry index) acc) := rfl

theorem errors_prefix_foldl_on (index : Nat) :
    ∀ (on : List (String × List CandidateConfig)) (acc : StateTree × List ConfigError),
      acc.2 <+: (on.foldl (addEntry index) acc).2
  | [], _ => List.prefix_refl _
  | e :: on, (t, errs) => by
    rw [List.foldl_cons]
    exact (errors_prefix_addCandidates index _ e.2 t errs).trans
      (errors_prefix_foldl_on index on _)

/-- When no target of the `on` entries fails, each trigger gains the lists of
the entries whose key stands for it, in order, resolved. -/
theorem foldl_on_clean (index : Nat) :
    ∀ (on : List (String × List CandidateConfig)) (t : StateTree) (errs : List ConfigError),
      index < t.nodes.size → (on.foldl (addEntry index) (t, errs)).2 = errs →
      ∃ added : Trigger → List Candidate,
        (∀ trigger, List.Forall₂ (t.ResolvedFrom index)
          ((on.filter fun e => Trigger.ofKey e.1 == trigger).map Prod.snd).flatten
          (added trigger)) ∧
        t.GainsCandidates index added (on.foldl (addEntry index) (t, errs)).1
  | [], t, _, _, _ => ⟨fun _ => [], fun _ => by simp, GainsCandidates.refl t index⟩
  | (event, ccs) :: on, t, errs, hs, herr => by
    rw [List.foldl_cons] at herr ⊢
    dsimp only [addEntry] at herr ⊢
    generalize hstep : addCandidates index (Trigger.ofKey event) ccs (t, errs) = acc at herr ⊢
    obtain ⟨t₁, errs₁⟩ := acc
    -- neither the entry nor the rest recorded a problem
    have h₁ : errs <+: errs₁ := by
      simpa [hstep] using errors_prefix_addCandidates index (Trigger.ofKey event) ccs t errs
    have h₂ : errs₁ <+: errs := herr ▸ errors_prefix_foldl_on index on (t₁, errs₁)
    have he : errs₁ = errs := h₂.sublist.antisymm h₁.sublist
    subst he
    obtain ⟨cs, hcs, hgains⟩ := addCandidates_clean index (Trigger.ofKey event) ccs t errs₁ hs
      (by rw [hstep])
    rw [hstep] at hgains
    obtain ⟨added, hadded, hgains'⟩ := foldl_on_clean index on t₁ errs₁
      (by rw [hgains.same.size]; exact hs) herr
    refine ⟨fun trigger => (if Trigger.ofKey event = trigger then cs else []) ++ added trigger,
      fun trigger => ?_, hgains.trans hgains' fun _ => rfl⟩
    have hrest := hgains.same.forall₂_resolvedFrom (hadded trigger)
    by_cases hkey : Trigger.ofKey event = trigger
    · simpa [List.filter_cons, hkey] using List.rel_append hcs hrest
    · simpa [List.filter_cons, hkey] using hrest

theorem errors_prefix_addTransitions (acc : StateTree × List ConfigError)
    (source : Nat × StateConfig) : acc.2 <+: (addTransitions acc source).2 := by
  obtain ⟨index, config⟩ := source
  rw [addTransitions_eq]
  have hfold := errors_prefix_foldl_on index config.on acc
  generalize config.on.foldl (addEntry index) acc = acc' at hfold ⊢
  obtain ⟨t, errs⟩ := acc'
  exact hfold.trans (errors_prefix_addCandidates index .always config.always t errs)

/-- When none of its targets fails, a state gains exactly its configured
candidates for every trigger, resolved from it. -/
theorem addTransitions_clean (t : StateTree) (errs : List ConfigError) (index : Nat)
    (config : StateConfig) (hs : index < t.nodes.size)
    (herr : (addTransitions (t, errs) (index, config)).2 = errs) :
    ∃ added : Trigger → List Candidate,
      (∀ trigger, List.Forall₂ (t.ResolvedFrom index) (config.candidatesFor trigger)
        (added trigger)) ∧
      t.GainsCandidates index added (addTransitions (t, errs) (index, config)).1 := by
  rw [addTransitions_eq] at herr ⊢
  generalize hfold : config.on.foldl (addEntry index) (t, errs) = acc at herr ⊢
  obtain ⟨t₁, errs₁⟩ := acc
  -- neither the `on` entries nor the eventless list recorded a problem
  have h₁ : errs <+: errs₁ := by
    simpa [hfold] using errors_prefix_foldl_on index config.on (t, errs)
  have h₂ : errs₁ <+: errs :=
    herr ▸ errors_prefix_addCandidates index .always config.always t₁ errs₁
  have he : errs₁ = errs := h₂.sublist.antisymm h₁.sublist
  subst he
  obtain ⟨added, hadded, hgains⟩ := foldl_on_clean index config.on t errs₁ hs (by rw [hfold])
  rw [hfold] at hgains
  obtain ⟨cs, hcs, hgains'⟩ := addCandidates_clean index .always config.always t₁ errs₁
    (by rw [hgains.same.size]; exact hs) herr
  refine ⟨fun trigger => added trigger ++ if Trigger.always = trigger then cs else [],
    fun trigger => ?_, hgains.trans hgains' fun _ => rfl⟩
  have hcs' := hgains.same.forall₂_resolvedFrom hcs
  unfold StateConfig.candidatesFor
  cases trigger with
  | always => simpa using List.rel_append (hadded .always) hcs'
  | event e => simpa using hadded (.event e)

/-! ## All the states -/

/-- `t'` is `t` with each state of `srcs` given its configured candidates,
resolved in `t`, and every other state as it was. -/
structure TransitionsAdded (t : StateTree) (srcs : List (Nat × StateConfig)) (t' : StateTree) :
    Prop where
  same : SameStates t t'
  frame : ∀ i, i ∉ srcs.map Prod.fst → t'.node i = t.node i
  candidates : ∀ p ∈ srcs, ∀ trigger, List.Forall₂ (t.ResolvedFrom p.1) (p.2.candidatesFor trigger)
    ((t'.node p.1).candidates trigger)

theorem errors_prefix_foldl_addTransitions :
    ∀ (srcs : List (Nat × StateConfig)) (acc : StateTree × List ConfigError),
      acc.2 <+: (srcs.foldl addTransitions acc).2
  | [], _ => List.prefix_refl _
  | source :: srcs, acc => by
    rw [List.foldl_cons]
    exact (errors_prefix_addTransitions acc source).trans
      (errors_prefix_foldl_addTransitions srcs _)

/-- When no target fails, the fold over the sources gives each of them, distinct
states without candidates yet, exactly its configured candidates. -/
theorem foldl_addTransitions_clean :
    ∀ (srcs : List (Nat × StateConfig)) (t : StateTree) (errs : List ConfigError),
      (srcs.map Prod.fst).Nodup → (∀ p ∈ srcs, p.1 < t.nodes.size) →
      (∀ p ∈ srcs, ∀ trigger, (t.node p.1).candidates trigger = []) →
      (srcs.foldl addTransitions (t, errs)).2 = errs →
      TransitionsAdded t srcs (srcs.foldl addTransitions (t, errs)).1
  | [], t, _, _, _, _, _ => ⟨SameStates.refl t, fun _ _ => rfl, nofun⟩
  | (index, config) :: srcs, t, errs, hnodup, hlt, hempty, herr => by
    rw [List.foldl_cons] at herr ⊢
    generalize hstep : addTransitions (t, errs) (index, config) = acc at herr ⊢
    obtain ⟨t₁, errs₁⟩ := acc
    -- the first state recorded no problem, nor did the rest
    have h₁ : errs <+: errs₁ := by
      simpa [hstep] using errors_prefix_addTransitions (t, errs) (index, config)
    have h₂ : errs₁ <+: errs := herr ▸ errors_prefix_foldl_addTransitions srcs (t₁, errs₁)
    have he : errs₁ = errs := h₂.sublist.antisymm h₁.sublist
    subst he
    obtain ⟨hfresh, hnodup⟩ := List.nodup_cons.1 hnodup
    obtain ⟨added, hadded, hgains⟩ := addTransitions_clean t errs₁ index config
      (hlt _ List.mem_cons_self) (by rw [hstep])
    rw [hstep] at hgains
    have hne : ∀ p ∈ srcs, p.1 ≠ index := fun p hp h =>
      hfresh (List.mem_map.2 ⟨p, hp, h⟩)
    have ih := foldl_addTransitions_clean srcs t₁ errs₁ hnodup
      (fun p hp => by rw [hgains.same.size]; exact hlt p (List.mem_cons_of_mem _ hp))
      (fun p hp => by rw [hgains.frame _ (hne p hp)]; exact hempty p (List.mem_cons_of_mem _ hp))
      herr
    refine ⟨hgains.same.trans ih.same, fun i hi => ?_, fun p hp trigger => ?_⟩
    · simp only [List.map_cons, List.mem_cons, not_or] at hi
      rw [ih.frame i hi.2, hgains.frame i hi.1]
    · rcases List.mem_cons.1 hp with rfl | hp
      · -- the first state keeps what it gained: no later source is it
        rw [ih.frame _ hfresh, hgains.candidates, hempty _ List.mem_cons_self, List.nil_append]
        exact hadded trigger
      · exact hgains.same.forall₂_resolvedFrom (ih.candidates p hp trigger)

end TreeBuilder

namespace StateTree

end StateTree

end Statechart
