import Statechart.Proofs.Json.Room
import Statechart.Proofs.Config.ReadBack
/-!
# Configurations nest at most 64 levels of states

The reader refuses a text once it nests 128 levels deep, and every level of
states takes two: the state's object and the object of its children. So every
configuration the reader gives has at most 64 levels of states
(`levels_of_ofJson?`), and one with more has no text that reads back as it.
With the read-back of written texts this gives the round trip as far as the
reader's limit allows (`written_text_reads_back`).
-/
namespace Statechart

open Json

namespace StateConfig

/-- The levels of states in a state: one for itself, and one more for each
level of child states below it. -/
def levels : StateConfig → Nat
  | ⟨_, _, _, _, _, _, _, states⟩ => levelsChildren states + 1
where
  /-- The most levels among some child states. -/
  levelsChildren : List (String × StateConfig) → Nat
    | [] => 0
    | (_, s) :: rest => max (levels s) (levelsChildren rest)

theorem levelsChildren_le {m : Nat} :
    ∀ {states : List (String × StateConfig)}, (∀ p ∈ states, 2 * p.2.levels ≤ m) →
      2 * levels.levelsChildren states ≤ m
  | [], _ => Nat.zero_le _
  | (k, s) :: rest, h => by
    have hs : 2 * s.levels ≤ m := h (k, s) List.mem_cons_self
    have hrest := levelsChildren_le fun p hp => h p (List.mem_cons_of_mem _ hp)
    simp only [levels.levelsChildren]
    omega

end StateConfig

namespace ConfigReader

/-- The child states read so far all have `Q`. -/
def ChildrenWith (Q : StateConfig → Prop) (f : Fields) : Prop := ∀ p ∈ f.states.getD [], Q p.2

section Readers

variable {n : Nat}

theorem mismatch_refuses {α : Type} {expected : String} : Refuses (mismatch expected : Reader α) := by
  unfold mismatch
  refine Refuses.bind fun b => ?_
  dsimp only
  split
  any_goals exact Refuses.bind fun _ => Refuses.bind fun _ => Refuses.bind fun _ => failHere_refuses
  any_goals exact Refuses.bind fun _ => failHere_refuses
  -- a digit starts a number, which is read before the failure
  split
  · exact Refuses.bind fun _ => Refuses.bind fun _ => failHere_refuses
  · exact Refuses.bind fun _ => failHere_refuses

theorem string_within {expected : String} : Within n (string expected) fun _ => True := by
  unfold string
  refine fixPlace_within (Within.bind peekValue_within fun b _ => ?_)
  split
  · exact Within.of_refuses failNext_refuses
  · exact Within.bind advance_within fun _ _ => stringBody_within
  · exact Within.of_refuses mismatch_refuses

theorem option_within {α : Type} {some_ : Reader α} (h : Within n some_ fun _ => True) :
    Within n (option some_) fun _ => True := by
  unfold option
  refine Within.bind peekValue_within fun b _ => ?_
  split
  · exact Within.bind advance_within fun _ _ => Within.bind (keyword_within _) fun _ _ => Within.pure trivial
  · exact Within.bind h fun _ _ => Within.pure trivial

theorem unit_within : Within n unit fun _ => True := by
  unfold unit
  refine fixPlace_within (Within.bind peekValue_within fun b _ => ?_)
  split
  · exact Within.of_refuses failNext_refuses
  · exact Within.bind advance_within fun _ _ => keyword_within _
  · exact Within.of_refuses mismatch_refuses

theorem variant_within : Within n (do
    let name ← string "variant identifier"
    match StateKind.ofName? name with
    | some k => pure k
    | none => fixPlace (failWith (unknownVariant name (StateKind.all.map StateKind.name)))) fun _ => True := by
  refine Within.bind string_within fun name _ => ?_
  split
  · exact Within.pure trivial
  · exact fixPlace_within (Within.of_refuses failWith_refuses)

theorem kind_within : Within n kind fun _ => True := by
  unfold kind
  dsimp only
  refine Within.bind peekValue_within fun b _ => ?_
  split
  · -- the object form: one variant name mapped to null, one level down
    refine Within.bind (nested_keeps (Within.bind (P := fun _ => True)
      (Within.bind (Q := fun _ => True) peekValue_within fun b _ => ?_)
      fun _ _ => Within.bind colon_within fun _ _ => Within.bind unit_within fun _ _ =>
        Within.pure trivial)) fun _ _ => Within.bind peekValue_within fun b _ => ?_
    · split
      · exact variant_within
      · exact variant_within
      all_goals exact Within.of_refuses failNext_refuses
    · split
      · exact Within.bind advance_within fun _ _ => Within.pure trivial
      all_goals exact Within.of_refuses failHere_refuses
  · exact variant_within
  all_goals exact Within.of_refuses failNext_refuses

theorem actions_within : Within n actions fun _ => True := by
  unfold actions
  refine Within.bind (read_within _ _) fun c _ => ?_
  split
  · exact Within.pure trivial
  · exact Within.of_refuses failWith_refuses

theorem candidates_within : Within n candidates fun _ => True := by
  unfold candidates
  refine Within.bind (read_within _ _) fun c _ => ?_
  split
  · exact Within.pure trivial
  · exact Within.of_refuses failWith_refuses

theorem entries_within {α : Type} {value : Reader α} {Q : α → Prop} (h : Within (n - 1) value Q) :
    Within n (entries value) fun l => ∀ p ∈ l, Q p.2 := by
  unfold entries
  refine fixPlace_within (Within.bind peekValue_within fun b _ => ?_)
  split
  · exact Within.of_refuses failNext_refuses
  · exact closedBy_within (Within.mono (nested_within (members_within key_within fun _ => h))
      fun _ h => h.2) closeObject_within
  · exact Within.of_refuses mismatch_refuses

/-- Reading a field keeps the child states read so far and adds only states
that `child` gave, one level down. -/
theorem field_within {child : Reader StateConfig} {Q : StateConfig → Prop} (h : Within (n - 1) child Q)
    {f : Fields} (hf : ChildrenWith Q f) (name : String) :
    Within n (field child f name) (ChildrenWith Q) := by
  unfold field
  split
  · exact Within.bind (option_within string_within) fun _ _ => Within.pure hf
  · exact Within.bind (option_within kind_within) fun _ _ => Within.pure hf
  · exact Within.bind (option_within string_within) fun _ _ => Within.pure hf
  · exact Within.bind actions_within fun _ _ => Within.pure hf
  · exact Within.bind actions_within fun _ _ => Within.pure hf
  · exact Within.bind (Within.mono (entries_within (Q := fun _ => True) candidates_within)
      fun _ _ => trivial) fun _ _ => Within.pure hf
  · exact Within.bind candidates_within fun _ _ => Within.pure hf
  · exact Within.bind (entries_within h) fun _ hl => Within.pure hl
  · exact Within.pure hf

theorem stateMembers_go_within {child : Reader StateConfig} {Q : StateConfig → Prop}
    (h : Within (n - 1) child Q) :
    ∀ fuel first f, ChildrenWith Q f → Within n (stateMembers.go child fuel first f) (ChildrenWith Q)
  | 0, _, _, hf => Within.pure hf
  | fuel + 1, first, f, hf => by
    unfold stateMembers.go
    refine Within.bind moreMembers_within fun b _ => ?_
    split
    · refine Within.bind key_within fun name _ => ?_
      -- an unknown or repeated field fails; any other is read by its field reader
      dsimp only
      split
      · exact Within.of_refuses (Refuses.bind_left failWith_refuses)
      split
      · exact Within.of_refuses (Refuses.bind_left failWith_refuses)
      exact Within.bind colon_within fun _ _ => Within.bind (field_within h hf name) fun f' hf' =>
        stateMembers_go_within h fuel false f' hf'
    · exact Within.pure hf

theorem stateItems_go_within {child : Reader StateConfig} {Q : StateConfig → Prop}
    (h : Within (n - 1) child Q) :
    ∀ names first f, ChildrenWith Q f → Within n (stateItems.go child names first f) (ChildrenWith Q)
  | [], _, _, hf => Within.pure hf
  | name :: rest, first, f, hf => by
    unfold stateItems.go
    refine Within.bind moreElements_within fun b _ => ?_
    split
    · exact Within.bind (field_within h hf name) fun f' hf' => stateItems_go_within h rest false f' hf'
    · exact Within.pure hf

theorem finish_within : Within n finish fun _ => True := by
  unfold finish
  refine Within.bind peekValue_within fun b _ => ?_
  split
  · exact Within.of_refuses failNext_refuses
  · exact Within.pure trivial

/-- A state read with `n` levels of room has at most `n / 2` levels of states. -/
theorem state_within : ∀ (depth n : Nat), Within n (state depth) fun s => 2 * s.levels ≤ n
  | 0, _ => Within.of_refuses failNext_refuses
  | depth + 1, n => by
    unfold state
    refine fixPlace_within (Within.bind peekValue_within fun b _ => ?_)
    have hchildren : ∀ f, 2 ≤ n ∧ ChildrenWith (fun s => 2 * s.levels ≤ n - 1 - 1) f →
        2 * f.toState.levels ≤ n := by
      intro f ⟨hn, hf⟩
      have hle := StateConfig.levelsChildren_le hf
      show 2 * (StateConfig.levels.levelsChildren (f.states.getD []) + 1) ≤ n
      omega
    split
    · exact Within.of_refuses failNext_refuses
    · exact Within.bind (closedBy_within (nested_within (stateItems_go_within (state_within depth _) _ true {}
        fun _ h => by cases h)) closeList_within) fun f hf => Within.pure (hchildren f hf)
    · exact Within.bind (closedBy_within (nested_within (Within.get_bind fun _ _ =>
        stateMembers_go_within (state_within depth _) _ true {} fun _ h => by cases h))
        closeObject_within) fun f hf => Within.pure (hchildren f hf)
    · exact Within.of_refuses mismatch_refuses

end Readers

end ConfigReader

namespace MachineConfig

/-- No text reads as a configuration whose states nest more than 64 levels deep. -/
theorem levels_of_ofJson? {text : String} {m : MachineConfig} (h : ofJson? text = .ok m) :
    m.root.levels ≤ 64 := by
  unfold ofJson? at h
  dsimp only at h
  split at h
  · next s hrun =>
    cases h
    -- run from the fresh cursor, whose room is 128
    have hbound : Json.Within 128 (do
        let s ← ConfigReader.state 200
        ConfigReader.finish
        pure s) fun s => 2 * s.levels ≤ 128 :=
      Json.Within.bind (ConfigReader.state_within 200 128) fun _ hs =>
        Json.Within.bind ConfigReader.finish_within fun _ _ => Json.Within.pure hs
    rcases hres : StateT.run (ExceptT.run (do
        let s ← ConfigReader.state 200
        ConfigReader.finish
        pure s)) ({ bytes := text.toUTF8 } : Json.Cursor) with ⟨res, c'⟩
    rw [hres] at hrun
    cases hrun
    have := (hbound _ s c' (Nat.le_refl _) hres).2
    show s.levels ≤ 64
    omega
  · cases h

/-- A written configuration nesting less than 128 levels reads back as itself
unless a state maps an event type to an empty list; one with more than 64 levels
of states never does. -/
theorem written_text_reads_back (m : MachineConfig) :
    (m.root.toPretty.depth < 128 → [] ∉ m.root.onLists → ofJson? m.toJson = .ok m) ∧
    (64 < m.root.levels → ∀ text, ofJson? text ≠ .ok m) := by
  refine ⟨fun hdepth hlists => (ofJson?_toJson_eq_iff m hdepth).2.2 hlists, ?_⟩
  intro hdeep text h
  have hread := levels_of_ofJson? h
  omega

/-- A door that opens when unlocked: nested states, guarded and targetless
candidates, entry and exit actions, and a final state. -/
def door : MachineConfig :=
  ⟨{ id := some "door", initial := some "closed",
     states := [("closed", { entry := ["lock"],
                             on := [("OPEN", [{ target := some "opened", guard := some "unlocked",
                                                actions := ["creak"] }, { actions := ["rattle"] }])] }),
                ("opened", { initial := some "wide", exit := ["shut"],
                             on := [("CLOSE", [{ target := some "closed" }])],
                             states := [("wide", {}), ("gone", { kind := some .final })] })] }⟩

theorem door_reads_back :
    (door.root.toPretty.depth < 128 ∧ [] ∉ door.root.onLists) ∧ ofJson? door.toJson = .ok door := by
  have hdepth : door.root.toPretty.depth < 128 := by decide
  have hlists : [] ∉ door.root.onLists := by decide
  exact ⟨⟨hdepth, hlists⟩, (written_text_reads_back door).1 hdepth hlists⟩

/-- A chain of `n` states below the root, each the initial state of the one above. -/
def nestedStates : Nat → StateConfig
  | 0 => {}
  | n + 1 => { initial := some "s", states := [("s", nestedStates n)] }

theorem levels_nestedStates : ∀ n, (nestedStates n).levels = n + 1
  | 0 => rfl
  | n + 1 => by
    show StateConfig.levels.levelsChildren [("s", nestedStates n)] + 1 = n + 1 + 1
    simp only [StateConfig.levels.levelsChildren, levels_nestedStates n]
    omega

/-- A configuration with 65 levels of states does not read back from its
written text, which nests 129 levels deep. -/
theorem deep_states_do_not_read_back :
    ofJson? (⟨nestedStates 64⟩ : MachineConfig).toJson ≠ .ok ⟨nestedStates 64⟩ := by
  intro h
  have hread : (nestedStates 64).levels ≤ 64 := levels_of_ofJson? h
  rw [levels_nestedStates] at hread
  omega

end MachineConfig

end Statechart
