import Mathlib.Data.List.Nodup
import Statechart.Proofs.Tree.Chains
/-!
# State values and the configurations they name

A state value names a state by the keys on the way down from the root. In a
well-shaped tree sibling keys are distinct, so a key picks out at most one
child and a list of keys at most one descent from the root. Reading a value
back (`configurationFor`) follows that descent and completes it by initial
children: it succeeds exactly when the keys name a descent, and the value of
what it returns is the given value followed by the keys of the completion.

A chain from the root to a leaf needs no completion, so it is read back from
its own value (`configurationFor_value`).
-/
namespace Statechart

namespace StateTree

variable {t : StateTree}

/-- The keys of some nodes, in order. -/
def keysOf (t : StateTree) (ns : List Nat) : List String := ns.map fun n => (t.node n).key

@[simp] theorem keysOf_nil : t.keysOf [] = [] := rfl

@[simp] theorem keysOf_cons (n : Nat) (ns : List Nat) :
    t.keysOf (n :: ns) = (t.node n).key :: t.keysOf ns := rfl

@[simp] theorem keysOf_append (ns ms : List Nat) : t.keysOf (ns ++ ms) = t.keysOf ns ++ t.keysOf ms :=
  List.map_append

theorem initialDescent_go_none (fuel : Nat) : initialDescent.go t none fuel = [] := by
  cases fuel <;> rfl

namespace WellShaped

/-- Sibling keys are distinct, so a key picks out the one child that has it. -/
theorem childByKey_eq_some_iff (hw : t.WellShaped) {p c : Nat} {k : String} :
    t.childByKey p k = some c ↔ c ∈ (t.node p).children ∧ (t.node c).key = k := by
  constructor
  · intro h
    exact ⟨mem_children_of_childByKey h, by simpa using List.find?_some h⟩
  · rintro ⟨hc, rfl⟩
    obtain ⟨c', hc'⟩ : ∃ c', t.childByKey p (t.node c).key = some c' :=
      Option.isSome_iff_exists.1 (List.find?_isSome.2 ⟨c, hc, by simp⟩)
    have hkey : (t.node c').key = (t.node c).key := by simpa using List.find?_some hc'
    rw [hc', List.inj_on_of_nodup_map (hw.keys_nodup p) (mem_children_of_childByKey hc') hc hkey]

theorem initialDescent_of_leaf (hw : t.WellShaped) {n : Nat} (h : (t.node n).children = []) :
    t.initialDescent n = [] := by
  have hk : (t.node n).kind ≠ .compound := fun hc => hw.compound_iff.1 hc h
  rw [initialDescent, hw.initial_leaf hk, initialDescent_go_none]

theorem lt_size_of_descends (hw : t.WellShaped) {a b : Nat} {l : List Nat} (h : t.Descends a l b)
    (ha : a < t.nodes.size) : b < t.nodes.size := by
  induction h with
  | nil => exact ha
  | cons hc _ ih => exact ih (hw.child_lt hc).2

theorem path_of_descends (hw : t.WellShaped) {a b : Nat} {l : List Nat} (h : t.Descends a l b) :
    (t.node b).path = (t.node a).path ++ t.keysOf l := by
  induction h with
  | nil => simp
  | cons hc _ ih => rw [ih, hw.path_child hc, keysOf_cons, List.append_assoc, List.singleton_append]

theorem configurationFor_go_of_descends (hw : t.WellShaped) {a b : Nat} {l : List Nat}
    (h : t.Descends a l b) :
    configurationFor.go t a (t.keysOf l) = some (a :: (l ++ t.initialDescent b)) := by
  induction h with
  | nil a => simp [configurationFor.go]
  | @cons a c b l hc _ ih =>
    rw [keysOf_cons, configurationFor.go, (hw.childByKey_eq_some_iff).2 ⟨hc, rfl⟩]
    simp [ih]

theorem descends_of_configurationFor_go (hw : t.WellShaped) :
    ∀ {keys : List String} {a : Nat} {c : List Nat}, configurationFor.go t a keys = some c →
      ∃ l b, t.Descends a l b ∧ t.keysOf l = keys ∧ c = a :: (l ++ t.initialDescent b)
  | [], a, c, h => by
    simp only [configurationFor.go, Option.some.injEq] at h
    exact ⟨[], a, .nil a, rfl, by simp [h]⟩
  | k :: ks, a, c, h => by
    simp only [configurationFor.go, Option.bind_eq_some_iff, Option.map_eq_some_iff] at h
    obtain ⟨x, hx, c', hrest, rfl⟩ := h
    obtain ⟨hmem, hkey⟩ := (hw.childByKey_eq_some_iff).1 hx
    obtain ⟨l, b, hd, hkeys, rfl⟩ := descends_of_configurationFor_go hw hrest
    exact ⟨x :: l, b, .cons hmem hd, by rw [keysOf_cons, hkey, hkeys], rfl⟩

/-- A value names a configuration exactly when its keys name a descent from
the root; the configuration is that descent completed by initial children. -/
theorem configurationFor_eq_some_iff (hw : t.WellShaped) {v : StateValue} {c : List Nat} :
    t.configurationFor v = some c ↔
      ∃ l n, t.Descends root l n ∧ t.keysOf l = v.path ∧ c = root :: (l ++ t.initialDescent n) := by
  constructor
  · exact hw.descends_of_configurationFor_go
  · rintro ⟨l, n, hd, hkeys, rfl⟩
    rw [configurationFor, ← hkeys]
    exact hw.configurationFor_go_of_descends hd

/-- The value of a descent from the root completed by initial children: its
keys, then the keys of the completion. -/
theorem value_of_descends (hw : t.WellShaped) {l : List Nat} {n : Nat} (h : t.Descends root l n) :
    t.value (root :: (l ++ t.initialDescent n)) = ⟨t.keysOf l ++ t.keysOf (t.initialDescent n)⟩ := by
  obtain ⟨leaf, hdown, -⟩ := hw.descends_initialDescent (hw.lt_size_of_descends h hw.root_lt)
  have hall := h.append hdown
  have hlast := hall.isChain.2
  rw [value, List.getLast?_eq_some_getLast (List.cons_ne_nil _ _), hlast]
  simp only [Option.map_some, Option.getD_some, hw.path_of_descends hall, hw.root_path,
    keysOf_append, List.nil_append]

/-- A chain from the root to a leaf is what its own value names. -/
theorem configurationFor_value (hw : t.WellShaped) {c : List Nat} (hc : t.RootToLeaf c) :
    t.configurationFor (t.value c) = some c := by
  obtain ⟨l, leaf, rfl, hd, hleaf⟩ := hc.descends
  have hinit := hw.initialDescent_of_leaf hleaf
  have hv : t.value (root :: l) = ⟨t.keysOf l⟩ := by
    simpa [hinit] using hw.value_of_descends hd
  rw [hv, hw.configurationFor_eq_some_iff]
  exact ⟨l, leaf, hd, rfl, by rw [hinit, List.append_nil]⟩

end WellShaped

end StateTree

end Statechart
