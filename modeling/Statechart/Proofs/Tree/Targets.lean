import Mathlib
import Statechart.Proofs.State.Dotted
import Statechart.Proofs.Tree.Plans
import Statechart.Proofs.Tree.Values
/-!
# Resolving transition targets

A target text is resolved from a source state in one of three ways: `#x` names
a node by id, trying the splits of `x` at its dots from the longest id down
(`resolve_hash_eq_some_iff`); `.r` follows the keys of `r` down from the source
(`resolve_dot_eq_some_iff`); any other text follows its keys down from the
source's parent, or from the root for the root
(`resolve_sibling_eq_some_iff`). In a well-shaped tree sibling keys are
distinct and hold no dot, so every node is found by each form that can reach it
(`WellShaped.resolve_sound_and_complete`).
-/
namespace Statechart

namespace StateTree

variable {t : StateTree}

/-! ## Descents and their keys -/

@[simp] theorem descends_nil_iff {a b : Nat} : t.Descends a [] b ↔ a = b := by
  constructor
  · intro h
    cases h
    rfl
  · rintro rfl
    exact .nil a

@[simp] theorem descends_cons_iff {a b c : Nat} {l : List Nat} :
    t.Descends a (c :: l) b ↔ c ∈ (t.node a).children ∧ t.Descends c l b := by
  constructor
  · intro h
    cases h with
    | cons hc h => exact ⟨hc, h⟩
  · rintro ⟨hc, h⟩
    exact .cons hc h

theorem Descends.above_of_ne_nil (hw : t.WellShaped) {a b : Nat} {l : List Nat}
    (h : t.Descends a l b) (hl : l ≠ []) : t.Above a b := by
  have hb : b ∈ l := by
    rw [← h.isChain.2, List.getLast_cons hl]
    exact List.getLast_mem hl
  exact h.above_of_mem hw hb

theorem validKey_eq_true_iff {k : String} :
    validKey k = true ↔ k ≠ "" ∧ '.' ∉ k.toList ∧ '#' ∉ k.toList := by
  simp [validKey, String.isEmpty_eq_false_iff, and_assoc]

theorem Descends.validKeys (hw : t.WellShaped) {a b : Nat} {l : List Nat} (h : t.Descends a l b) :
    ∀ k ∈ t.keysOf l, validKey k = true := by
  induction h with
  | nil => simp
  | cons hc _ ih =>
    intro k hk
    rcases List.mem_cons.1 hk with rfl | hk
    · exact hw.key_valid hc
    · exact ih k hk

theorem Descends.splitDots_keys (hw : t.WellShaped) {a b : Nat} {l : List Nat}
    (h : t.Descends a l b) (hl : l ≠ []) : splitDots (".".intercalate (t.keysOf l)) = t.keysOf l := by
  have hdots : ∀ k ∈ t.keysOf l, '.' ∉ k.toList := fun k hk =>
    (validKey_eq_true_iff.1 (h.validKeys hw k hk)).2.1
  rw [splitDots_intercalate hdots, if_neg (by simpa [keysOf] using hl)]

theorem Descends.keysOf_eq_drop (hw : t.WellShaped) {a b : Nat} {l : List Nat}
    (h : t.Descends a l b) : (t.node b).path.drop (t.node a).path.length = t.keysOf l := by
  rw [hw.path_of_descends h, List.drop_left]

theorem lt_size_of_parent_eq_some {n p : Nat} (h : (t.node n).parent = some p) : n < t.nodes.size := by
  by_contra hn
  rw [node, Array.getElem?_eq_none (by omega), Option.getD_none] at h
  cases h

theorem lt_size_of_above {a n : Nat} (h : t.Above a n) : n < t.nodes.size := by
  obtain ⟨p, hp, -⟩ := parent_of_above h
  exact lt_size_of_parent_eq_some hp

/-! ## Following keys down -/

theorem descend_nil (a : Nat) : t.descend a [] = some a := rfl

theorem descend_cons (a : Nat) (k : String) (ks : List String) :
    t.descend a (k :: ks) = (t.childByKey a k).bind fun c => t.descend c ks := rfl

/-- Sibling keys are distinct, so following keys down succeeds exactly along
the descent whose nodes carry them. -/
theorem WellShaped.descend_eq_some_iff (hw : t.WellShaped) :
    ∀ {keys : List String} {a b : Nat},
      t.descend a keys = some b ↔ ∃ l, t.Descends a l b ∧ t.keysOf l = keys
  | [], a, b => by
    rw [descend_nil, Option.some.injEq]
    constructor
    · rintro rfl
      exact ⟨[], .nil a, rfl⟩
    · rintro ⟨l, hl, hkeys⟩
      obtain rfl : l = [] := List.map_eq_nil_iff.1 hkeys
      exact descends_nil_iff.1 hl
  | k :: ks, a, b => by
    rw [descend_cons, Option.bind_eq_some_iff]
    constructor
    · rintro ⟨c, hc, hrest⟩
      obtain ⟨hmem, hkey⟩ := hw.childByKey_eq_some_iff.1 hc
      obtain ⟨l, hl, hkeys⟩ := (descend_eq_some_iff hw).1 hrest
      exact ⟨c :: l, .cons hmem hl, by rw [keysOf_cons, hkey, hkeys]⟩
    · rintro ⟨l, hl, hkeys⟩
      cases l with
      | nil => simp at hkeys
      | cons c l =>
        rw [keysOf_cons, List.cons.injEq] at hkeys
        obtain ⟨hmem, hrest⟩ := descends_cons_iff.1 hl
        exact ⟨c, hw.childByKey_eq_some_iff.2 ⟨hmem, hkeys.1⟩,
          (descend_eq_some_iff hw).2 ⟨l, hrest, hkeys.2⟩⟩

/-! ## The three forms of target -/

theorem findSome?_range_reverse_eq_some_iff {α : Type} (f : Nat → Option α) (a : α) :
    ∀ n, (List.range n).reverse.findSome? f = some a ↔
      ∃ k < n, f k = some a ∧ ∀ j, k < j → j < n → f j = none
  | 0 => by simp
  | n + 1 => by
    rw [List.range_succ, List.reverse_append, List.reverse_singleton, List.singleton_append,
      List.findSome?_cons]
    cases hn : f n with
    | some b =>
      -- `n` answers, so it is the largest index that does
      constructor
      · rintro ⟨⟩
        exact ⟨n, n.lt_succ_self, hn, fun j hj hj' => absurd hj' (by omega)⟩
      · rintro ⟨k, hk, hfk, hnone⟩
        rcases Nat.lt_succ_iff_lt_or_eq.1 hk with hk | rfl
        · rw [hnone n hk n.lt_succ_self] at hn
          cases hn
        · rw [hn] at hfk
          exact hfk
    | none =>
      simp only
      rw [findSome?_range_reverse_eq_some_iff f a n]
      constructor
      · rintro ⟨k, hk, hfk, hnone⟩
        refine ⟨k, by omega, hfk, fun j hj hj' => ?_⟩
        by_cases hjn : j = n
        · exact hjn ▸ hn
        · exact hnone j hj (by omega)
      · rintro ⟨k, hk, hfk, hnone⟩
        have hkn : k ≠ n := fun h => by rw [h, hn] at hfk; cases hfk
        exact ⟨k, by omega, hfk, fun j hj hj' => hnone j hj (by omega)⟩

/-- The node a `#` target names when split after its first `k` pieces: the id
made of those pieces, then the remaining pieces followed down as keys. -/
def absoluteAt (t : StateTree) (segs : List String) (k : Nat) : Option Nat :=
  (t.byId (".".intercalate (segs.take k))).bind fun base => t.descend base (segs.drop k)

theorem resolve_hash (t : StateTree) (s : Nat) (x : String) :
    t.resolve s ("#" ++ x) =
      ((List.range (splitDots x).length).reverse.findSome? fun i =>
        t.absoluteAt (splitDots x) (i + 1)).map fun n => ⟨n, false⟩ := by
  simp [resolve, absoluteAt]

theorem resolve_sibling (t : StateTree) (s : Nat) {r : String} (hhash : r.toList.head? ≠ some '#')
    (hdot : r.toList.head? ≠ some '.') :
    t.resolve s r = (t.descend ((t.node s).parent.getD s) (splitDots r)).map fun n => ⟨n, false⟩ := by
  unfold resolve
  split
  · next h => simp [h] at hhash
  · next h => simp [h] at hdot
  · rfl

/-- `#x` gives the node of the longest split of `x` that works, never internal. -/
theorem resolve_hash_eq_some_iff (t : StateTree) (s : Nat) (x : String) (res : Resolved) :
    t.resolve s ("#" ++ x) = some res ↔ res.internal = false ∧
      ∃ k, 0 < k ∧ k ≤ (splitDots x).length ∧ t.absoluteAt (splitDots x) k = some res.node ∧
        ∀ j, k < j → j ≤ (splitDots x).length → t.absoluteAt (splitDots x) j = none := by
  rw [resolve_hash, Option.map_eq_some_iff]
  constructor
  · rintro ⟨n, hn, rfl⟩
    obtain ⟨i, hi, hfi, hnone⟩ := (findSome?_range_reverse_eq_some_iff _ n _).1 hn
    refine ⟨rfl, i + 1, by omega, by omega, hfi, fun j hj hj' => ?_⟩
    obtain ⟨j, rfl⟩ : ∃ j', j = j' + 1 := ⟨j - 1, by omega⟩
    exact hnone j (by omega) (by omega)
  · rintro ⟨hint, k, hk, hkn, hfk, hnone⟩
    obtain ⟨k, rfl⟩ : ∃ k', k = k' + 1 := ⟨k - 1, by omega⟩
    refine ⟨res.node, (findSome?_range_reverse_eq_some_iff _ _ _).2
      ⟨k, by omega, hfk, fun j hj hj' => hnone (j + 1) (by omega) (by omega)⟩, ?_⟩
    cases res
    simp_all

/-- `#x` gives nothing exactly when no split of `x` works. -/
theorem resolve_hash_eq_none_iff (t : StateTree) (s : Nat) (x : String) :
    t.resolve s ("#" ++ x) = none ↔
      ∀ k, 0 < k → k ≤ (splitDots x).length → t.absoluteAt (splitDots x) k = none := by
  rw [resolve_hash, Option.map_eq_none_iff, List.findSome?_eq_none_iff]
  simp only [List.mem_reverse, List.mem_range]
  constructor
  · intro h k hk hkn
    obtain ⟨k, rfl⟩ : ∃ k', k = k' + 1 := ⟨k - 1, by omega⟩
    exact h k (by omega)
  · intro h i hi
    exact h (i + 1) (by omega) (by omega)

/-- `.r` gives an internal target: where the keys of `r` lead from the source, unless
that is the source itself. -/
theorem resolve_dot_eq_some_iff' (t : StateTree) (s : Nat) (r : String) (res : Resolved) :
    t.resolve s ("." ++ r) = some res ↔
      res.internal = true ∧ res.node ≠ s ∧ t.descend s (splitDots r) = some res.node := by
  obtain ⟨node, internal⟩ := res
  simp only [resolve, String.toList_append, String.reduceToList, List.cons_append, List.nil_append,
    String.ofList_toList]
  cases hd : t.descend s (splitDots r) with
  | none => simp
  | some n =>
    by_cases hns : n = s
    · subst hns
      simp only [beq_self_eq_true, ↓reduceIte, reduceCtorEq, false_iff, not_and, Option.some.injEq]
      exact fun _ h h' => h h'.symm
    · simp only [beq_iff_eq, hns, ↓reduceIte, Option.some.injEq, Resolved.mk.injEq]
      grind

theorem head?_intercalate {k : String} (ks : List String) (hk : k ≠ "") :
    (".".intercalate (k :: ks)).toList.head? = k.toList.head? := by
  obtain ⟨c, cs, hc⟩ := List.exists_cons_of_ne_nil (by simpa using hk : k.toList ≠ [])
  cases ks with
  | nil => simp
  | cons k' ks => simp [String.intercalate_cons_cons, hc]

theorem head?_intercalate_ne {ks : List String} (hks : ∀ k ∈ ks, validKey k = true) (hne : ks ≠ []) :
    (".".intercalate ks).toList.head? ≠ some '#' ∧ (".".intercalate ks).toList.head? ≠ some '.' := by
  obtain ⟨k, ks, rfl⟩ := List.exists_cons_of_ne_nil hne
  obtain ⟨hk, hkdot, hkhash⟩ := validKey_eq_true_iff.1 (hks k List.mem_cons_self)
  rw [head?_intercalate ks hk]
  exact ⟨fun h => hkhash (List.mem_of_mem_head? h), fun h => hkdot (List.mem_of_mem_head? h)⟩

/-! ## In a well-shaped tree -/

/-- Any other text gives the node its keys lead to from the source's parent, or
from the root for the root; never an internal target. -/
theorem WellShaped.resolve_sibling_eq_some_iff (hw : t.WellShaped) (s : Nat) {r : String}
    (hhash : r.toList.head? ≠ some '#') (hdot : r.toList.head? ≠ some '.') (res : Resolved) :
    t.resolve s r = some res ↔ res.internal = false ∧
      ∃ l, t.Descends ((t.node s).parent.getD s) l res.node ∧ t.keysOf l = splitDots r := by
  rw [resolve_sibling t s hhash hdot, Option.map_eq_some_iff]
  constructor
  · rintro ⟨n, hn, rfl⟩
    exact ⟨rfl, hw.descend_eq_some_iff.1 hn⟩
  · rintro ⟨hint, hdesc⟩
    refine ⟨res.node, hw.descend_eq_some_iff.2 hdesc, ?_⟩
    obtain ⟨node, internal⟩ := res
    simp_all

/-- `.r` gives an internal target exactly where the keys of `r` lead down from
the source through at least one node. -/
theorem WellShaped.resolve_dot_eq_some_iff (hw : t.WellShaped) (s : Nat) (r : String) (res : Resolved) :
    t.resolve s ("." ++ r) = some res ↔ res.internal = true ∧
      ∃ l, l ≠ [] ∧ t.Descends s l res.node ∧ t.keysOf l = splitDots r := by
  rw [resolve_dot_eq_some_iff', hw.descend_eq_some_iff]
  constructor
  · rintro ⟨hint, -, l, hl, hkeys⟩
    refine ⟨hint, l, ?_, hl, hkeys⟩
    rintro rfl
    exact splitDots_ne_nil r hkeys.symm
  · rintro ⟨hint, l, hne, hl, hkeys⟩
    -- the target lies strictly below the source, so it is not the source
    refine ⟨hint, fun hs => ?_, l, hl, hkeys⟩
    exact hw.not_above_self s (hs ▸ hl.above_of_ne_nil hw hne)

theorem WellShaped.above_of_resolve_dot (hw : t.WellShaped) {s : Nat} {r : String} {res : Resolved}
    (h : t.resolve s ("." ++ r) = some res) : t.Above s res.node := by
  obtain ⟨-, l, hne, hl, -⟩ := (hw.resolve_dot_eq_some_iff s r res).1 h
  exact hl.above_of_ne_nil hw hne

/-- Every node is found from anywhere by `#` and its id. -/
theorem WellShaped.resolve_hash_id (hw : t.WellShaped) (s : Nat) {m : Nat} (hm : m < t.nodes.size) :
    t.resolve s ("#" ++ (t.node m).id) = some ⟨m, false⟩ := by
  have hlen : 0 < (splitDots (t.node m).id).length := List.length_pos_iff.2 (splitDots_ne_nil _)
  -- the longest split is the whole id, which names `m` with no key left to follow
  have hall : t.absoluteAt (splitDots (t.node m).id) (splitDots (t.node m).id).length = some m := by
    simp [absoluteAt, intercalate_splitDots, hw.byId_node hm, descend_nil]
  exact (resolve_hash_eq_some_iff t s _ _).2
    ⟨rfl, _, hlen, le_rfl, hall, fun j hj hj' => absurd hj' (by omega)⟩

theorem WellShaped.pathBetween_ne_nil (hw : t.WellShaped) {a m : Nat} (h : t.Above a m) :
    t.pathBetween a m ≠ [] := by
  intro hnil
  have hd := hw.descends_pathBetween (lt_size_of_above h) (.inr h)
  rw [hnil, descends_nil_iff] at hd
  subst hd
  exact hw.not_above_self a h

/-- Every strict descendant of the source is found by `.` and its keys below the source. -/
theorem WellShaped.resolve_dot_path (hw : t.WellShaped) {s m : Nat} (h : t.Above s m) :
    t.resolve s ("." ++ ".".intercalate ((t.node m).path.drop (t.node s).path.length)) =
      some ⟨m, true⟩ := by
  have hd := hw.descends_pathBetween (lt_size_of_above h) (.inr h)
  have hne := hw.pathBetween_ne_nil h
  rw [hd.keysOf_eq_drop hw, hw.resolve_dot_eq_some_iff]
  exact ⟨rfl, _, hne, hd, (hd.splitDots_keys hw hne).symm⟩

/-- Every strict descendant of the source's parent (of the root, for the root)
is found by its keys below that node. -/
theorem WellShaped.resolve_sibling_path (hw : t.WellShaped) (s : Nat) {m : Nat}
    (h : t.Above ((t.node s).parent.getD s) m) :
    t.resolve s (".".intercalate
      ((t.node m).path.drop (t.node ((t.node s).parent.getD s)).path.length)) = some ⟨m, false⟩ := by
  have hd := hw.descends_pathBetween (lt_size_of_above h) (.inr h)
  have hne := hw.pathBetween_ne_nil h
  rw [hd.keysOf_eq_drop hw]
  -- the keys are valid, so the text is of the third form
  obtain ⟨hhash, hdot⟩ := head?_intercalate_ne (hd.validKeys hw) (by simpa [keysOf] using hne)
  rw [hw.resolve_sibling_eq_some_iff s hhash hdot]
  exact ⟨rfl, _, hd, (hd.splitDots_keys hw hne).symm⟩


/-! ## Soundness and completeness -/

/-- How target texts resolve from the source `s`: what each of the three forms
gives, and that every node is given by each form that can reach it. -/
structure ResolvesFrom (t : StateTree) (s : Nat) : Prop where
  /-- `#x`: the longest split of `x` whose id names a node and whose remaining keys lead down. -/
  hash : ∀ x res, t.resolve s ("#" ++ x) = some res ↔ res.internal = false ∧
    ∃ k, 0 < k ∧ k ≤ (splitDots x).length ∧ t.absoluteAt (splitDots x) k = some res.node ∧
      ∀ j, k < j → j ≤ (splitDots x).length → t.absoluteAt (splitDots x) j = none
  hash_none : ∀ x, t.resolve s ("#" ++ x) = none ↔
    ∀ k, 0 < k → k ≤ (splitDots x).length → t.absoluteAt (splitDots x) k = none
  /-- `.r`: internal, where the keys of `r` lead down from the source, at least one step. -/
  dot : ∀ r res, t.resolve s ("." ++ r) = some res ↔ res.internal = true ∧
    ∃ l, l ≠ [] ∧ t.Descends s l res.node ∧ t.keysOf l = splitDots r
  dot_below : ∀ r res, t.resolve s ("." ++ r) = some res → t.Above s res.node
  /-- Any other text: where its keys lead down from the source's parent, or the root for the root. -/
  sibling : ∀ r, r.toList.head? ≠ some '#' → r.toList.head? ≠ some '.' → ∀ res,
    t.resolve s r = some res ↔ res.internal = false ∧
      ∃ l, t.Descends ((t.node s).parent.getD s) l res.node ∧ t.keysOf l = splitDots r
  by_id : ∀ m < t.nodes.size, t.resolve s ("#" ++ (t.node m).id) = some ⟨m, false⟩
  by_path_below : ∀ m, t.Above s m →
    t.resolve s ("." ++ ".".intercalate ((t.node m).path.drop (t.node s).path.length)) =
      some ⟨m, true⟩
  by_path_beside : ∀ m, t.Above ((t.node s).parent.getD s) m →
    t.resolve s (".".intercalate
      ((t.node m).path.drop (t.node ((t.node s).parent.getD s)).path.length)) = some ⟨m, false⟩

/-- In a well-shaped tree, targets resolve from every source as the three forms
say, and every node is found by each form that can reach it. -/
theorem WellShaped.resolve_sound_and_complete (hw : t.WellShaped) (s : Nat) : t.ResolvesFrom s where
  hash := resolve_hash_eq_some_iff t s
  hash_none := resolve_hash_eq_none_iff t s
  dot := hw.resolve_dot_eq_some_iff s
  dot_below _ _ h := hw.above_of_resolve_dot h
  sibling _ hhash hdot := hw.resolve_sibling_eq_some_iff s hhash hdot
  by_id _ hm := hw.resolve_hash_id s hm
  by_path_below _ h := hw.resolve_dot_path h
  by_path_beside _ h := hw.resolve_sibling_path s h

end StateTree

namespace MachineBuilder

/-- A machine with a compound state `a`, holding `x` and `y`, beside a state `b`. -/
def nestedStates : MachineBuilder Unit Empty Empty :=
  { config := { root := { initial := some "a",
                          states := [("a", { initial := some "x", states := [("x", {}), ("y", {})] }),
                            ("b", {})] } },
    context := () }

/-- Targets resolve as `resolve_sound_and_complete` says from the compound state of
a built machine. -/
theorem nestedStates_resolves_from :
    ∃ mach : Machine Unit Empty Empty, nestedStates.build = .ok mach ∧
      mach.tree.WellShaped ∧ mach.tree.ResolvesFrom 1 := by
  have hok : nestedStates.build.isOk = true := by cbv
  cases hb : nestedStates.build with
  | ok mach =>
    have hw := (wellFormed_of_build_eq_ok hb).toWellShaped
    exact ⟨mach, rfl, hw, hw.resolve_sound_and_complete 1⟩
  | error e =>
    rw [hb] at hok
    cases hok

end MachineBuilder

end Statechart
