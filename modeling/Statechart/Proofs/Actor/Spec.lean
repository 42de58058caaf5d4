import Statechart.Actor.Step
/-!
# Specifications of work on a state

The actor system and the interpreter are both work on a state that also
writes to the journal: `StateT S (StateM L)`. `Spec P x Q` says that `x`,
started in a state satisfying `P`, hands back a value and a state satisfying
`Q`, whatever the journal held. No statement looks at the journal, so what is
proved of the system and the interpreter holds of every journal.

The rules follow the shape of the programs (`pure`, `bind`, `get`, `set`,
`modify`, work lifted from the journal, a `for` loop over a list), so proofs
about the system follow its code and never unfold the monads.
-/
namespace Statechart

variable {S L α γ : Type}

/-- Started in a state satisfying `P`, `x` hands back a value and a state
satisfying `Q`, whatever the journal. -/
def Spec (P : S → Prop) (x : StateT S (StateM L) α) (Q : α → S → Prop) : Prop :=
  ∀ s l, P s → Q ((x.run s).run l).1.1 ((x.run s).run l).1.2

theorem run_bind (x : StateT S (StateM L) α) (f : α → StateT S (StateM L) γ) (s : S) (l : L) :
    ((x >>= f).run s).run l =
      ((f ((x.run s).run l).1.1).run ((x.run s).run l).1.2).run ((x.run s).run l).2 := rfl

theorem run_pure (a : α) (s : S) (l : L) :
    (((pure a : StateT S (StateM L) α)).run s).run l = ((a, s), l) := rfl

theorem run_get (s : S) (l : L) :
    (((MonadState.get : StateT S (StateM L) S)).run s).run l = ((s, s), l) := rfl

namespace Spec

variable {P P' : S → Prop} {Q Q' : α → S → Prop} {x : StateT S (StateM L) α}

theorem pure {a : α} (h : ∀ s, P s → Q a s) : Spec P (Pure.pure a : StateT S (StateM L) α) Q :=
  fun s _ hs => h s hs

theorem bind {f : α → StateT S (StateM L) γ} {R : α → S → Prop} {Q : γ → S → Prop}
    (hx : Spec P x R) (hf : ∀ a, Spec (R a) (f a) Q) : Spec P (x >>= f) Q :=
  fun s l hs => hf _ _ _ (hx s l hs)

theorem trivial : Spec P x fun _ _ => True :=
  fun _ _ _ => True.intro

theorem mono (hx : Spec P x Q) (h : ∀ a s, Q a s → Q' a s) : Spec P x Q' :=
  fun s l hs => h _ _ (hx s l hs)

theorem pre (hx : Spec P x Q) (h : ∀ s, P' s → P s) : Spec P' x Q :=
  fun s l hs => hx s l (h s hs)

/-- Work whose final state is a function of the first. -/
theorem of_state {F : S → S} {Q' : α → S → Prop} (hx : ∀ s l, ((x.run s).run l).1.2 = F s)
    (h : ∀ a s, P s → Q' a (F s)) : Spec P x Q' :=
  fun s l hs => (hx s l) ▸ h _ s hs

theorem and (h₁ : Spec P x Q) (h₂ : Spec P x Q') : Spec P x fun a s => Q a s ∧ Q' a s :=
  fun s l hs => ⟨h₁ s l hs, h₂ s l hs⟩

theorem get : Spec P (MonadState.get : StateT S (StateM L) S) fun a s => a = s ∧ P s :=
  fun _ _ hs => ⟨rfl, hs⟩

theorem set {s' : S} {Q : PUnit → S → Prop} (h : ∀ s, P s → Q () s') :
    Spec P (MonadStateOf.set s' : StateT S (StateM L) PUnit) Q :=
  fun s _ hs => h s hs

theorem modifyGet {f : S → α × S} (h : ∀ s, P s → Q (f s).1 (f s).2) :
    Spec P (MonadStateOf.modifyGet f : StateT S (StateM L) α) Q :=
  fun s _ hs => h s hs

theorem modify {f : S → S} {Q : PUnit → S → Prop} (h : ∀ s, P s → Q () (f s)) :
    Spec P (modify f : StateT S (StateM L) PUnit) Q :=
  fun s _ hs => h s hs

theorem liftM {j : StateM L α} (h : ∀ a s, P s → Q a s) :
    Spec P (liftM j : StateT S (StateM L) α) Q :=
  fun s _ hs => h _ s hs

/-- A `for` loop over a list keeps what each round keeps. -/
theorem forIn {xs : List α} {b : PUnit} {body : α → PUnit → StateT S (StateM L) (ForInStep PUnit)}
    (h : ∀ a b, Spec P (body a b) fun _ => P) : Spec P (ForIn.forIn xs b body) fun _ => P := by
  induction xs generalizing b with
  | nil => exact pure fun _ hs => hs
  | cons a xs ih =>
    rw [List.forIn_cons]
    refine bind (h a b) fun step => ?_
    cases step with
    | done b' => exact pure fun _ hs => hs
    | yield b' => exact ih

end Spec

end Statechart
