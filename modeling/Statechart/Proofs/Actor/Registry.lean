import Statechart.Actor.Registry
/-!
# Looking up the registry

An entry is found by the first pair filed under its id. Every way the
registry changes keeps or drops all the pairs under one id together (a
filter by id, a map that rewrites the entries under one id) or appends a new
pair, so a lookup after a change is the lookup before it, rewritten
(`entry?_filter`, `entry?_modifyEntry`, `entry?_append`).

A registry is `Keyed` when every entry is filed under its own actor's id;
every registry the system builds is. In a keyed registry, removing a subtree
removes the actor it starts from, and removing the descendants of an actor
leaves it with no live child (`children_removeDescendants`).
-/
namespace Statechart

namespace Registry

/-! ## Lookups after a change -/

theorem lookupId_cons (i : ActorId) (e : RegistryEntry) (rest : List (ActorId × RegistryEntry))
    (k : ActorId) : entry?.lookupId ((i, e) :: rest) k =
      if i = k then some e else entry?.lookupId rest k := by
  simp [Registry.entry?.lookupId]

theorem mem_of_lookupId {es : List (ActorId × RegistryEntry)} {k : ActorId} {e : RegistryEntry}
    (h : entry?.lookupId es k = some e) : (k, e) ∈ es := by
  induction es with
  | nil => cases h
  | cons p rest ih =>
    obtain ⟨i, e'⟩ := p
    rw [lookupId_cons] at h
    split at h
    · cases h
      subst i
      exact List.mem_cons_self
    · exact List.mem_cons_of_mem _ (ih h)

theorem mem_of_entry_eq {r : Registry} {k : ActorId} {e : RegistryEntry} (h : r.entry? k = some e) :
    (k, e) ∈ r.entries :=
  mem_of_lookupId h

theorem lookupId_filter (keep : ActorId → Bool) (es : List (ActorId × RegistryEntry))
    (k : ActorId) : entry?.lookupId (es.filter fun p => keep p.1) k =
      if keep k then entry?.lookupId es k else none := by
  induction es with
  | nil => simp [Registry.entry?.lookupId]
  | cons p rest ih =>
    obtain ⟨i, e⟩ := p
    simp only [List.filter_cons]
    by_cases hik : i = k
    · subst hik
      by_cases hi : keep i <;> simp [hi, lookupId_cons, ih]
    · by_cases hi : keep i <;> simp [hi, hik, lookupId_cons, ih]

/-- Dropping the pairs filed under some ids hides exactly those ids. -/
theorem entry?_filter (r : Registry) (keep : ActorId → Bool) (k : ActorId) :
    Registry.entry? { entries := r.entries.filter fun p => keep p.1 } k =
      if keep k then r.entry? k else none :=
  lookupId_filter keep r.entries k

/-- Rewriting the entries under one id rewrites what a lookup of that id finds. -/
theorem entry?_modifyEntry (r : Registry) (p : ActorId) (f : RegistryEntry → RegistryEntry)
    (k : ActorId) : Registry.entry? (r.modifyEntry p f) k = if k = p then (r.entry? k).map f else r.entry? k := by
  unfold modifyEntry entry?
  induction r.entries with
  | nil => simp [Registry.entry?.lookupId]
  | cons q rest ih =>
    obtain ⟨i, e⟩ := q
    simp only [List.map_cons, beq_iff_eq] at ih ⊢
    by_cases hip : i = p <;> by_cases hik : i = k
    · subst hip hik
      simp [lookupId_cons]
    · subst hip
      have hki : k ≠ i := Ne.symm hik
      simp [hik, hki, lookupId_cons, ih]
    · subst hik
      simp [hip, lookupId_cons]
    · simp [hip, hik, lookupId_cons, ih]

/-- A pair appended at the end is found only when no earlier pair has its id. -/
theorem entry?_append (es : List (ActorId × RegistryEntry)) (i : ActorId) (e : RegistryEntry)
    (k : ActorId) : Registry.entry? { entries := es ++ [(i, e)] } k =
      (Registry.entry?.lookupId es k).or (if i = k then some e else none) := by
  unfold entry?
  induction es with
  | nil => simp [Registry.entry?.lookupId]
  | cons q rest ih =>
    obtain ⟨j, e'⟩ := q
    simp only [List.cons_append, lookupId_cons, ih]
    split <;> simp

/-! ## Entries filed under their own id -/

/-- Every entry is filed under its actor's id. -/
def Keyed (r : Registry) : Prop :=
  ∀ k e, (k, e) ∈ r.entries → e.actor.id = k

theorem keyed_ofRoot (root : ActorRef) : (ofRoot root).Keyed := by
  intro k e h
  simp only [ofRoot, List.mem_singleton, Prod.mk.injEq] at h
  obtain ⟨rfl, rfl⟩ := h
  rfl

theorem children_ofRoot (root : ActorRef) : (ofRoot root).children root.id = [] := by
  simp [children, ofRoot, entry?, entry?.lookupId]

theorem Keyed.actor?_id {r : Registry} (h : r.Keyed) {k : ActorId} {a : ActorRef}
    (ha : r.actor? k = some a) : a.id = k := by
  obtain ⟨e, he, rfl⟩ := Option.map_eq_some_iff.1 ha
  exact h k e (mem_of_entry_eq he)

theorem Keyed.modifyEntry {r : Registry} (h : r.Keyed) (p : ActorId)
    (f : RegistryEntry → RegistryEntry) (hf : ∀ e, (f e).actor = e.actor) : (r.modifyEntry p f).Keyed := by
  intro k e hk
  obtain ⟨⟨i, e'⟩, hi, he⟩ := List.mem_map.1 hk
  by_cases hip : i = p
  · simp only [hip, beq_self_eq_true, ↓reduceIte, Prod.mk.injEq] at he
    obtain ⟨rfl, rfl⟩ := he
    rw [hf]
    exact h _ _ (hip ▸ hi)
  · have hip' : (i == p) = false := by simpa using hip
    simp only [hip', Bool.false_eq_true, ↓reduceIte, Prod.mk.injEq] at he
    obtain ⟨rfl, rfl⟩ := he
    exact h _ _ hi

theorem Keyed.filter {r : Registry} (h : r.Keyed) (keep : ActorId → Bool) :
    ({ entries := r.entries.filter fun p => keep p.1 } : Registry).Keyed :=
  fun k e hk => h k e (List.mem_filter.1 hk).1

theorem Keyed.register {r r' : Registry} (h : r.Keyed) {parent : ActorId} {child : ActorRef}
    (hr : r.register parent child = .ok r') : r'.Keyed := by
  unfold Registry.register at hr
  split at hr
  · cases hr
  · split at hr
    · cases hr
    · cases hr
      intro k e hk
      rcases List.mem_append.1 hk with hk | hk
      · exact (h.modifyEntry parent
          (fun e => { e with children := insertByName child.name child.id e.children })
          fun _ => rfl) k e hk
      · simp only [List.mem_singleton, Prod.mk.injEq] at hk
        obtain ⟨rfl, rfl⟩ := hk
        rfl

/-! ## Removing subtrees -/

/-- What removing a subtree leaves: the parent's table loses the actor's name. -/
def unlink (r : Registry) (id : ActorId) : Registry :=
  match r.parent? id, r.actor? id with
  | some p, some a => r.modifyEntry p fun e => { e with children := e.children.filter (·.1 != a.name) }
  | _, _ => r

/-- Whether an id is none of the removed actors'. -/
def outside (removed : List ActorRef) (i : ActorId) : Bool := !removed.any (·.id == i)

theorem outside_iff (removed : List ActorRef) (i : ActorId) :
    outside removed i = true ↔ ∀ a ∈ removed, a.id ≠ i := by
  simp [outside]

theorem removeSubtree_eq (r : Registry) (id : ActorId) :
    r.removeSubtree id =
      ({ entries := (r.unlink id).entries.filter fun p => outside (r.postOrder r.entries.length id) p.1 },
        r.postOrder r.entries.length id) := rfl

theorem entry?_unlink (r : Registry) (id k : ActorId) :
    ∃ f : RegistryEntry → RegistryEntry,
      (∀ e, (f e).actor = e.actor ∧ (f e).parent = e.parent ∧ (f e).children.Sublist e.children) ∧
      Registry.entry? (r.unlink id) k = (r.entry? k).map f := by
  unfold unlink
  split
  · next p a _ _ =>
    refine ⟨fun e => if k = p then { e with children := e.children.filter (·.1 != a.name) } else e,
      fun e => ?_, ?_⟩
    · split
      · exact ⟨rfl, rfl, List.filter_sublist⟩
      · exact ⟨rfl, rfl, List.Sublist.refl _⟩
    · rw [entry?_modifyEntry]
      split <;> simp_all
  · exact ⟨fun e => e, fun _ => ⟨rfl, rfl, List.Sublist.refl _⟩, by simp⟩

theorem Keyed.unlink {r : Registry} (h : r.Keyed) (id : ActorId) : (r.unlink id).Keyed := by
  unfold Registry.unlink
  split
  · exact h.modifyEntry _ _ fun _ => rfl
  · exact h

theorem Keyed.removeSubtree {r : Registry} (h : r.Keyed) (id : ActorId) :
    (r.removeSubtree id).1.Keyed := by
  rw [removeSubtree_eq]
  exact (h.unlink id).filter _

/-- Whatever removing a subtree finds was found before, its table cut down to a
sublist. -/
theorem entry?_removeSubtree_sublist (r : Registry) (id k : ActorId) {e' : RegistryEntry}
    (h : Registry.entry? (r.removeSubtree id).1 k = some e') :
    ∃ e, r.entry? k = some e ∧ e'.actor = e.actor ∧ e'.children.Sublist e.children := by
  rw [removeSubtree_eq, entry?_filter] at h
  split at h
  · obtain ⟨f, hf, hk⟩ := entry?_unlink r id k
    rw [hk] at h
    obtain ⟨e, he, rfl⟩ := Option.map_eq_some_iff.1 h
    exact ⟨e, he, (hf e).1, (hf e).2.2⟩
  · cases h

theorem entry?_removeSubtree (r : Registry) (id k : ActorId) {e' : RegistryEntry}
    (h : Registry.entry? (r.removeSubtree id).1 k = some e') :
    ∃ e, r.entry? k = some e ∧ e'.actor = e.actor ∧ e'.children ⊆ e.children := by
  obtain ⟨e, he, hactor, hsub⟩ := entry?_removeSubtree_sublist r id k h
  exact ⟨e, he, hactor, hsub.subset⟩

theorem entry?_removeSubtree_of_none {r : Registry} (id : ActorId) {k : ActorId}
    (h : r.entry? k = none) : Registry.entry? (r.removeSubtree id).1 k = none := by
  cases h' : Registry.entry? (r.removeSubtree id).1 k with
  | none => rfl
  | some e' =>
    obtain ⟨e, he, -⟩ := entry?_removeSubtree r id k h'
    rw [h] at he
    cases he

theorem mem_postOrder_self {r : Registry} {id : ActorId} {e : RegistryEntry} (h : r.entry? id = some e)
    (fuel : Nat) : e.actor ∈ r.postOrder (fuel + 1) id := by
  simp [postOrder, h]

/-- In a keyed registry, removing a subtree removes the actor it starts from. -/
theorem Keyed.entry?_removeSubtree_self {r : Registry} (h : r.Keyed) (id : ActorId) :
    Registry.entry? (r.removeSubtree id).1 id = none := by
  cases he : r.entry? id with
  | none => exact entry?_removeSubtree_of_none id he
  | some e =>
    -- the registry holds the entry, so the depth bound is at least one
    obtain ⟨n, hn⟩ : ∃ n, r.entries.length = n + 1 :=
      Nat.exists_eq_add_one_of_ne_zero (List.ne_nil_of_mem (mem_of_entry_eq he) |> mt List.length_eq_zero_iff.1)
    have hself : e.actor ∈ r.postOrder r.entries.length id := hn ▸ mem_postOrder_self he n
    have hid : e.actor.id = id := h id e (mem_of_entry_eq he)
    rw [removeSubtree_eq, entry?_filter]
    have : outside (r.postOrder r.entries.length id) id = false := by
      simpa [outside] using ⟨e.actor, hself, hid⟩
    simp [this]

/-! ## Removing descendants -/

/-- One round of `removeDescendants`. -/
def removeStep (acc : Registry × List ActorRef) (kid : String × ActorId) : Registry × List ActorRef :=
  let (r, removed) := acc.1.removeSubtree kid.2
  (r, acc.2 ++ removed)

theorem removeDescendants_eq (r : Registry) (id : ActorId) :
    r.removeDescendants id = ((((r.entry? id).map (·.children)).getD []).foldl removeStep (r, [])) :=
  rfl

/-- The rounds of `removeDescendants` keep the registry keyed, keep removed what
they removed, and leave no entry more children than it had. -/
theorem removeStep_foldl {r : Registry} (h : r.Keyed) (kids : List (String × ActorId))
    (removed : List ActorRef) :
    let r' := (kids.foldl removeStep (r, removed)).1
    r'.Keyed ∧ (∀ kid ∈ kids, r'.entry? kid.2 = none) ∧
      (∀ k, r.entry? k = none → r'.entry? k = none) ∧
      ∀ k e', r'.entry? k = some e' → ∃ e, r.entry? k = some e ∧ e'.children ⊆ e.children := by
  induction kids generalizing r removed with
  | nil => exact ⟨h, nofun, fun _ hk => hk, fun k e' he' => ⟨e', he', List.Subset.refl _⟩⟩
  | cons kid kids ih =>
    simp only [List.foldl_cons]
    have hstep := h.removeSubtree kid.2
    obtain ⟨hk, hkids, hgone, hsub⟩ := ih (r := (r.removeSubtree kid.2).1) hstep (removed ++ _)
    refine ⟨hk, ?_, fun k hn => hgone k (entry?_removeSubtree_of_none kid.2 hn), ?_⟩
    · intro kid' hkid'
      rcases List.mem_cons.1 hkid' with rfl | hkid'
      · exact hgone _ (h.entry?_removeSubtree_self kid'.2)
      · exact hkids kid' hkid'
    · intro k e' he'
      obtain ⟨e₁, he₁, hsub₁⟩ := hsub k e' he'
      obtain ⟨e, he, -, hsub₂⟩ := entry?_removeSubtree r kid.2 k he₁
      exact ⟨e, he, List.Subset.trans hsub₁ hsub₂⟩

/-- In a keyed registry, an actor whose descendants were removed has no live child. -/
theorem Keyed.children_removeDescendants {r : Registry} (h : r.Keyed) (id : ActorId) :
    (r.removeDescendants id).1.children id = [] := by
  rw [removeDescendants_eq]
  obtain ⟨-, hkids, -, hsub⟩ := removeStep_foldl h (((r.entry? id).map (·.children)).getD []) []
  unfold children
  split
  · next e' he' =>
    obtain ⟨e, he, hsube⟩ := hsub id e' he'
    rw [List.filterMap_eq_nil_iff]
    intro kid hkid
    have hmem : kid ∈ ((r.entry? id).map (·.children)).getD [] := by
      rw [he]
      exact hsube hkid
    simp [actor?, hkids kid hmem]
  · rfl

theorem Keyed.removeDescendants {r : Registry} (h : r.Keyed) (id : ActorId) :
    (r.removeDescendants id).1.Keyed := by
  rw [removeDescendants_eq]
  exact (removeStep_foldl h _ []).1

end Registry

end Statechart
