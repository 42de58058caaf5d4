import Statechart.Proofs.Actor.TimerRounds
/-!
# The manual clock

An advance of a manual clock takes its span as a 64-bit count of nanoseconds,
saturating, and adds it to the shared count with wrap-around. So a fresh clock
reads the saturated spans summed modulo `2^64` (`advanceAll_manual`), an
advance moves it back exactly when it overflows (`now_advance_lt_iff`), and
while the sum stays below `2^64` the clock never moves back
(`manual_advances_reading`). Past that a timer that was due can stop being due
(`largest_advance_then_one_wraps`).
-/
namespace Statechart

namespace TimerQueue

variable {E : Type}

/-- A later reading of the clock finds every timer that was due still due. -/
theorem dueAt_subset_of_le (q : TimerQueue E) {now now' : Instant} (h : now ≤ now') :
    q.dueAt now ⊆ q.dueAt now' := by
  intro x hx
  rw [mem_dueAt] at hx ⊢
  exact ⟨hx.1, Nat.le_trans hx.2 h⟩

end TimerQueue

namespace Clock

/-- The nanoseconds an advance of a manual clock adds: the span as a 64-bit
count, saturating at the largest one. -/
def wordNanos (d : Duration) : Nat := min d.nanos (wordSize - 1)

/-- The clock after advancing by each span in turn. -/
def advanceAll (c : Clock) (ds : List Duration) : Clock := ds.foldl advance c

theorem wordNanos_lt (d : Duration) : wordNanos d < wordSize := by
  unfold wordNanos wordSize
  omega

@[simp] theorem now_manual (e : Nat) : (manual e).now.nanos = e := rfl

theorem advance_manual (e : Nat) (d : Duration) :
    (manual e).advance d = manual ((e + wordNanos d) % wordSize) := rfl

@[simp] theorem advanceAll_nil (c : Clock) : c.advanceAll [] = c := rfl

theorem advanceAll_cons (c : Clock) (d : Duration) (ds : List Duration) :
    c.advanceAll (d :: ds) = (c.advance d).advanceAll ds := rfl

theorem advanceAll_append (c : Clock) (p q : List Duration) :
    c.advanceAll (p ++ q) = (c.advanceAll p).advanceAll q :=
  List.foldl_append

/-! ## One advance -/

theorem advance_manual_eq {e : Nat} (he : e < wordSize) (d : Duration) :
    (manual e).advance d =
      if e + wordNanos d < wordSize then manual (e + wordNanos d)
      else manual (e + wordNanos d - wordSize) := by
  have hw := wordNanos_lt d
  rw [advance_manual]
  split
  · next h => rw [Nat.mod_eq_of_lt h]
  · next h => rw [Nat.mod_eq_sub_mod (by omega), Nat.mod_eq_of_lt (by omega)]

/-- An advance moves a manual clock back exactly when its count overflows. -/
theorem now_advance_lt_iff {e : Nat} (he : e < wordSize) (d : Duration) :
    ((manual e).advance d).now.nanos < e ↔ wordSize ≤ e + wordNanos d := by
  have hw := wordNanos_lt d
  rw [advance_manual_eq he]
  split <;> simp only [now_manual] <;> omega

/-! ## A run of advances -/

/-- Advancing a 64-bit count by each span in turn adds the saturated spans
modulo the word. -/
theorem advanceAll_manual {e : Nat} (he : e < wordSize) (ds : List Duration) :
    (manual e).advanceAll ds = manual ((e + (ds.map wordNanos).sum) % wordSize) := by
  induction ds generalizing e with
  | nil => rw [advanceAll_nil, List.map_nil, List.sum_nil, Nat.add_zero, Nat.mod_eq_of_lt he]
  | cons d ds ih =>
    -- after each advance the count is again below the word
    rw [advanceAll_cons, advance_manual, ih (Nat.mod_lt _ (by decide)), Nat.mod_add_mod,
      List.map_cons, List.sum_cons, Nat.add_assoc]

theorem advanceAll_manual_of_lt {e : Nat} {ds : List Duration}
    (h : e + (ds.map wordNanos).sum < wordSize) :
    (manual e).advanceAll ds = manual (e + (ds.map wordNanos).sum) := by
  rw [advanceAll_manual (by omega), Nat.mod_eq_of_lt h]

/-- While the saturated spans sum below the word, their sum is the sum of the
spans capped at the largest count. -/
theorem sum_wordNanos_of_lt {ds : List Duration} (h : (ds.map wordNanos).sum < wordSize) :
    (ds.map wordNanos).sum = min (ds.map (·.nanos)).sum (wordSize - 1) := by
  induction ds with
  | nil => rfl
  | cons d ds ih =>
    simp only [List.map_cons, List.sum_cons] at h ⊢
    have hs := ih (by omega)
    rw [hs] at h ⊢
    unfold wordNanos at h ⊢
    omega

theorem now_le_advanceAll_append {e : Nat} (p q : List Duration)
    (h : e + ((p ++ q).map wordNanos).sum < wordSize) :
    ((manual e).advanceAll p).now ≤ ((manual e).advanceAll (p ++ q)).now := by
  have hp : e + (p.map wordNanos).sum < wordSize := by
    simp only [List.map_append, List.sum_append] at h
    omega
  rw [advanceAll_manual_of_lt hp, advanceAll_manual_of_lt h]
  show e + (p.map wordNanos).sum ≤ e + ((p ++ q).map wordNanos).sum
  simp only [List.map_append, List.sum_append]
  omega

/-- A fresh manual clock advanced by `ds` reads the saturated spans modulo
`2^64`, moves back exactly on overflow, and below `2^64` never moves back nor
loses a due timer. -/
theorem manual_advances_reading {E : Type} (ds : List Duration) :
    ((manual 0).advanceAll ds).now.nanos = (ds.map wordNanos).sum % wordSize ∧
    (∀ p d r, ds = p ++ d :: r →
      (((manual 0).advanceAll (p ++ [d])).now.nanos < ((manual 0).advanceAll p).now.nanos ↔
        wordSize ≤ ((manual 0).advanceAll p).now.nanos + wordNanos d)) ∧
    ((ds.map wordNanos).sum < wordSize →
      ((manual 0).advanceAll ds).now.nanos = min (ds.map (·.nanos)).sum (wordSize - 1) ∧
      ∀ p q r, ds = p ++ q ++ r →
        ((manual 0).advanceAll p).now ≤ ((manual 0).advanceAll (p ++ q)).now ∧
        ∀ timers : TimerQueue E,
          timers.dueAt ((manual 0).advanceAll p).now ⊆ timers.dueAt ((manual 0).advanceAll (p ++ q)).now) := by
  have h0 : 0 < wordSize := by decide
  refine ⟨by rw [advanceAll_manual h0, Nat.zero_add]; rfl, ?wraps, ?below⟩
  case wraps =>
    intro p d r _
    -- the reading before the advance is itself a 64-bit count
    have hp : (manual 0).advanceAll p = manual (((p.map wordNanos).sum) % wordSize) := by
      rw [advanceAll_manual h0, Nat.zero_add]
    rw [advanceAll_append, hp, now_manual]
    exact now_advance_lt_iff (Nat.mod_lt _ h0) d
  case below =>
    intro hs
    refine ⟨?_, fun p q r hds => ?_⟩
    · rw [advanceAll_manual_of_lt (by omega), now_manual, Nat.zero_add, sum_wordNanos_of_lt hs]
    · -- a prefix of the advances sums to at most the whole run
      have hpq : 0 + ((p ++ q).map wordNanos).sum < wordSize := by
        subst hds
        simp only [List.map_append, List.sum_append] at hs ⊢
        omega
      have hle := now_le_advanceAll_append p q hpq
      exact ⟨hle, fun timers => timers.dueAt_subset_of_le hle⟩

/-- Three hundred and then two hundred milliseconds read as their sum. -/
theorem millis_advances_add_up :
    ([Duration.ofMillis 300, Duration.ofMillis 200].map wordNanos).sum < wordSize ∧
    ((manual 0).advanceAll [Duration.ofMillis 300, Duration.ofMillis 200]).now.nanos =
      min ([Duration.ofMillis 300, Duration.ofMillis 200].map (·.nanos)).sum (wordSize - 1) :=
  ⟨by decide, ((manual_advances_reading (E := Unit) _).2.2 (by decide)).1⟩

/-- Advancing a fresh manual clock by the largest count and then by one
nanosecond wraps it back to zero, where a timer that was due is due no longer.
-/
theorem largest_advance_then_one_wraps :
    ((manual 0).advanceAll [⟨wordSize - 1⟩, ⟨1⟩]).now.nanos = 0 ∧
    ((manual 0).advanceAll [⟨wordSize - 1⟩, ⟨1⟩]).now.nanos <
      ((manual 0).advanceAll [⟨wordSize - 1⟩]).now.nanos ∧
    ((manual 0).advanceAll [⟨wordSize - 1⟩, ⟨1⟩]).now.nanos ≠
      min ([(⟨wordSize - 1⟩ : Duration), ⟨1⟩].map (·.nanos)).sum (wordSize - 1) ∧
    (⟨1000000⟩ : Instant) ≤ ((manual 0).advanceAll [⟨wordSize - 1⟩]).now ∧
    ¬ (⟨1000000⟩ : Instant) ≤ ((manual 0).advanceAll [⟨wordSize - 1⟩, ⟨1⟩]).now := by
  decide

end Clock

end Statechart
