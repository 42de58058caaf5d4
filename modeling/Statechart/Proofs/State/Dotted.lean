import Mathlib.Data.List.Infix
import Statechart.State
/-!
# Dotted paths

A dotted path is split at every dot, empty pieces kept (`splitDots`, the
library's `String.split`). Joining the pieces gives the text back, and
splitting dot-free keys joined with dots gives the keys back
(`splitDots_intercalate`). A value matches a dotted path when the path's
non-empty segments are a non-empty prefix of it (`matchesPath_iff_prefix`), and
a value written with dots reads back as itself when no key is empty or holds a
dot (`ofPath_render`).
-/
namespace Statechart

theorem splitDots_eq (s : String) : splitDots s = (s.toList.splitOn '.').map String.ofList :=
  String.toList_split_char

theorem splitDots_ne_nil (s : String) : splitDots s ≠ [] := by
  simp [splitDots_eq]

theorem intercalate_splitDots (s : String) : ".".intercalate (splitDots s) = s := by
  apply String.toList_inj.1
  rw [splitDots_eq, String.toList_intercalate, List.map_map]
  simp only [String.reduceToList, String.toList_comp_ofList, List.map_id_fun, id_eq,
    List.intercalate_splitOn]

/-- Keys without dots, joined with dots, split back into the keys; no key at
all is one empty piece. -/
theorem splitDots_intercalate {l : List String} (hl : ∀ k ∈ l, '.' ∉ k.toList) :
    splitDots (".".intercalate l) = if l = [] then [""] else l :=
  String.toList_split_intercalate hl

namespace StateValue

/-! ## Matching a dotted path -/

theorem drop_eq_cons_iff {path : List String} {n : Nat} {seg : String} :
    (∃ rest, path.drop n = seg :: rest) ↔ path[n]? = some seg := by
  constructor
  · rintro ⟨rest, h⟩
    simpa [h] using (List.head?_drop (l := path) (i := n)).symm
  · intro h
    obtain ⟨hn, rfl⟩ := List.getElem?_eq_some_iff.1 h
    exact ⟨_, List.drop_eq_getElem_cons hn⟩

/-- The matching loop from position `n` runs to the end exactly when the
segments are a prefix of the keys from `n`, counting them all. -/
theorem foldlM_matchStep (path : List String) :
    ∀ (segs : List String) (n len : Nat),
      (segs.zipIdx n).foldlM (matchStep path) len =
        if segs <+: path.drop n then some (len + segs.length) else none
  | [], n, len => by simp
  | seg :: segs, n, len => by
    rw [List.zipIdx_cons, List.foldlM_cons]
    by_cases hn : path[n]? = some seg
    · -- the segment is the key at `n`: counted, and the loop goes on from `n + 1`
      obtain ⟨rest, hrest⟩ := drop_eq_cons_iff.2 hn
      have htail : path.drop (n + 1) = rest := by
        rw [← List.drop_drop, hrest, List.drop_one, List.tail_cons]
      simp [matchStep, hn, foldlM_matchStep path segs (n + 1) (len + 1), hrest, htail,
        List.cons_prefix_cons, Nat.add_assoc, Nat.add_comm 1]
    · have hnot : ¬ (seg :: segs <+: path.drop n) := by
        rintro ⟨t, ht⟩
        exact hn (drop_eq_cons_iff.1 ⟨segs ++ t, ht.symm⟩)
      simp [matchStep, hn, hnot]

/-- A dotted path names an active state exactly when its non-empty segments are a
non-empty prefix of the active keys. -/
theorem matchesPath_iff_prefix (v : StateValue) (p : String) :
    v.matchesPath p = true ↔ segments p ≠ [] ∧ segments p <+: v.path := by
  rw [matchesPath, foldlM_matchStep v.path (segments p) 0 0, List.drop_zero]
  by_cases hp : segments p <+: v.path
  · simp [hp, List.length_pos_iff]
  · simp [hp]

/-! ## Reading a written value back -/

/-- A value written with dots reads back as itself when every key is non-empty and dot-free. -/
theorem ofPath_render (v : StateValue) (h : ∀ k ∈ v.path, k ≠ "" ∧ '.' ∉ k.toList) :
    ofPath (render v) = v := by
  obtain ⟨path⟩ := v
  have hsplit := splitDots_intercalate fun k hk => (h k hk).2
  simp only [ofPath, render, segments, hsplit, mk.injEq]
  split
  · next hnil => simp [hnil]
  · exact List.filter_eq_self.2 fun k hk => by simpa using (h k hk).1

theorem playEvaluate_reads_back :
    (∀ k ∈ ["play", "evaluate"], k ≠ "" ∧ '.' ∉ k.toList) ∧
      ofPath (render ⟨["play", "evaluate"]⟩) = ⟨["play", "evaluate"]⟩ :=
  ⟨by decide, ofPath_render _ (by decide)⟩

end StateValue

end Statechart
