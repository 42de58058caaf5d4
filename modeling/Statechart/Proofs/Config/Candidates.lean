import Mathlib
import Statechart.Proofs.Config.ReadBack
/-!
# Candidate lists written as arrays

The value of an `on` entry or of `always` is buffered whole and tried in two
ways: first as one candidate, then as an array of candidates. A candidate may
itself be written as an array of its fields (target, guard, actions), so an
array of candidates that also has that shape is read as one candidate. For
arrays of target strings and candidate objects this happens exactly for the
empty array, which is the candidate without fields, and for two or three
target strings, which are one candidate whose guard (and action) are the later
strings. Every other such array is read as its candidates, in order
(`candidates_array`).
-/
namespace Statechart

open Json Json.Pretty

namespace ConfigReader

/-- A value that stands for one candidate: a target string, or an object of fields. -/
def IsCandidateValue (x : Content) : Prop := (∃ s, x = .string s) ∨ ∃ ms, x = .map ms

/-- What an array of candidate values with candidates `cs` reads as. -/
def arrayReading (items : List Content) (cs : List CandidateConfig) : List CandidateConfig :=
  match items with
  | [] => [CandidateConfig.targetless]
  | [.string t, .string g] => [{ target := some t, guard := some g }]
  | [.string t, .string g, .string a] => [{ target := some t, guard := some g, actions := [a] }]
  | _ => cs

theorem fieldsOfItems_of_map {items : List Content} {ms : List (String × Content)}
    (h : Content.map ms ∈ items) : fieldsOfItems items = none := by
  rcases items with _ | ⟨x, _ | ⟨y, _ | ⟨z, _ | ⟨w, rest⟩⟩⟩⟩
  · cases h
  · rw [List.mem_singleton] at h
    subst h
    rfl
  · simp only [List.mem_cons, List.not_mem_nil, or_false] at h
    rcases h with rfl | rfl
    · rfl
    · simp [fieldsOfItems, Content.optString?]
  · simp only [List.mem_cons, List.not_mem_nil, or_false] at h
    rcases h with rfl | rfl | rfl
    · rfl
    · simp [fieldsOfItems, Content.optString?]
    · simp [fieldsOfItems, actionsOf?]
  · rfl

theorem arrayReading_of_map {items : List Content} {ms : List (String × Content)}
    (h : Content.map ms ∈ items) (cs : List CandidateConfig) : arrayReading items cs = cs := by
  unfold arrayReading
  split
  · cases h
  · simp at h
  · simp at h
  · rfl

theorem mapM_candidateOf?_strings (ss : List String) :
    (ss.map Content.string).mapM candidateOf? = some (ss.map CandidateConfig.toward) := by
  induction ss with
  | nil => rfl
  | cons s ss ih => simp [List.mapM_cons, candidateOf?, ih]

/-- An array of target strings reads as its targets, but for the empty array
and for two or three strings. -/
theorem candidatesOf?_strings (ss : List String) :
    candidatesOf? (.seq (ss.map Content.string)) =
      some (arrayReading (ss.map Content.string) (ss.map CandidateConfig.toward)) := by
  rcases ss with _ | ⟨a, _ | ⟨b, _ | ⟨c, _ | ⟨d, rest⟩⟩⟩⟩
  · rfl
  · rfl
  · rfl
  · rfl
  · exact mapM_candidateOf?_strings (a :: b :: c :: d :: rest)

theorem eq_map_string {items : List Content} (hvals : ∀ x ∈ items, IsCandidateValue x)
    (h : ∀ ms, Content.map ms ∉ items) : ∃ ss : List String, items = ss.map Content.string := by
  induction items with
  | nil => exact ⟨[], rfl⟩
  | cons x items ih =>
    obtain ⟨ss, hss⟩ := ih (fun y hy => hvals y (List.mem_cons_of_mem x hy))
      fun ms hm => h ms (List.mem_cons_of_mem x hm)
    rcases hvals x List.mem_cons_self with ⟨s, rfl⟩ | ⟨ms, rfl⟩
    · exact ⟨s :: ss, by rw [hss]; rfl⟩
    · exact absurd List.mem_cons_self (h ms)

theorem candidatesOf?_array {items : List Content} {cs : List CandidateConfig}
    (hvals : ∀ x ∈ items, IsCandidateValue x) (hparse : items.mapM candidateOf? = some cs) :
    candidatesOf? (.seq items) = some (arrayReading items cs) := by
  by_cases hobj : ∃ ms, Content.map ms ∈ items
  · -- an object among the items: only the array of candidates fits
    obtain ⟨ms, hms⟩ := hobj
    unfold candidatesOf?
    rw [candidateOf?, fieldsOfItems_of_map hms, arrayReading_of_map hms]
    exact hparse
  · obtain ⟨ss, rfl⟩ := eq_map_string hvals fun ms hm => hobj ⟨ms, hm⟩
    rw [mapM_candidateOf?_strings, Option.some.injEq] at hparse
    rw [← hparse]
    exact candidatesOf?_strings ss

/-- An array of candidate values reads as its own candidates exactly when it is
neither empty nor two or three strings. -/
theorem arrayReading_eq_self_iff {items : List Content} {cs : List CandidateConfig}
    (hvals : ∀ x ∈ items, IsCandidateValue x) (hparse : items.mapM candidateOf? = some cs) :
    arrayReading items cs = cs ↔
      items ≠ [] ∧ ¬ (2 ≤ items.length ∧ items.length ≤ 3 ∧ ∀ x ∈ items, ∃ s, x = .string s) := by
  by_cases hobj : ∃ ms, Content.map ms ∈ items
  · obtain ⟨ms, hms⟩ := hobj
    refine iff_of_true (arrayReading_of_map hms cs) ⟨List.ne_nil_of_mem hms, fun h => ?_⟩
    obtain ⟨s, hs⟩ := h.2.2 _ hms
    cases hs
  · obtain ⟨ss, rfl⟩ := eq_map_string hvals fun ms hm => hobj ⟨ms, hm⟩
    rw [mapM_candidateOf?_strings, Option.some.injEq] at hparse
    subst hparse
    rcases ss with _ | ⟨a, _ | ⟨b, _ | ⟨c, _ | ⟨d, rest⟩⟩⟩⟩ <;>
      simp [arrayReading, CandidateConfig.toward, CandidateConfig.targetless]

/-- An array of target strings and candidate objects reads as its candidates in
order, except the empty array and two or three strings, which read as one
candidate. -/
theorem candidates_array {c c' : Cursor} {items : List Content} {cs : List CandidateConfig}
    (hread : Gives (Content.read contentDepth) c (.seq items) c')
    (hvals : ∀ x ∈ items, IsCandidateValue x) (hparse : items.mapM candidateOf? = some cs) :
    Gives candidates c (arrayReading items cs) c' ∧
      (arrayReading items cs = cs ↔
        items ≠ [] ∧ ¬ (2 ≤ items.length ∧ items.length ≤ 3 ∧ ∀ x ∈ items, ∃ s, x = .string s)) := by
  refine ⟨?_, arrayReading_eq_self_iff hvals hparse⟩
  unfold candidates
  refine Gives.bind hread ?_
  rw [candidatesOf?_array hvals hparse]
  exact Gives.pure

/-- Two target strings, written as an indented array, read as one candidate
to `a` guarded by `b`. -/
theorem twoTargets_read_as_one :
    let bytes := (render 0 (.arr [.str "a", .str "b"])).toUTF8
    let items := [Content.string "a", .string "b"]
    let cs := [CandidateConfig.toward "a", .toward "b"]
    Gives (Content.read contentDepth) ⟨bytes, 0, 128⟩ (.seq items) ⟨bytes, bytes.size, 128⟩ ∧
      (∀ x ∈ items, IsCandidateValue x) ∧ items.mapM candidateOf? = some cs ∧
      (Gives candidates ⟨bytes, 0, 128⟩ (arrayReading items cs) ⟨bytes, bytes.size, 128⟩ ∧
        (arrayReading items cs = cs ↔
          items ≠ [] ∧ ¬ (2 ≤ items.length ∧ items.length ≤ 3 ∧ ∀ x ∈ items, ∃ s, x = .string s))) := by
  intro bytes items cs
  have hread : Gives (Content.read contentDepth) ⟨bytes, 0, 128⟩ (.seq items) ⟨bytes, bytes.size, 128⟩ :=
    (read_render contentDepth (.arr [.str "a", .str "b"]) 0 128 (by decide) (by decide) bytes 0 []
      (spans_data bytes) (fun b hb => by cases hb)).congr rfl (by simp [bytes, utf8])
  have hvals : ∀ x ∈ items, IsCandidateValue x := by
    simp [items, IsCandidateValue]
  have hparse : items.mapM candidateOf? = some cs := rfl
  exact ⟨hread, hvals, hparse, candidates_array hread hvals hparse⟩

/-- The candidates `["a", "b"]` of an event are one candidate, to `a` guarded
by `b`, not two candidates to `a` and to `b`. -/
theorem ofJson?_twoTargets :
    MachineConfig.ofJson? "\x7b\"on\":\x7b\"E\":[\"a\",\"b\"]\x7d\x7d" =
      .ok ⟨{ on := [("E", [{ target := some "a", guard := some "b" }])] }⟩ := by
  cbv

end ConfigReader

end Statechart

