import Statechart.Actor.Scope
/-!
# What a turn may hand back

An actor's work on one message is a computation over its scope and the
journal. Most facts about such work concern only the value it hands back: the
actor after a macrostep, or the plan a trigger resolves to. `Turn.Returns x Q`
says that `x`, run from any scope and any journal, hands back a value
satisfying `Q`. For work that may fail (`TurnE`), `Q` is asked of successes
only.

The rules follow the shape of the programs (`pure`, `bind`, a failure, a
lifted turn), so later proofs follow the code and never unfold the monads.
-/
namespace Statechart

variable {ν β E α γ : Type}

namespace Turn

/-- `x` hands back only values satisfying `Q`, whatever scope and journal it starts from. -/
def Returns (x : Turn ν β E α) (Q : α → Prop) : Prop :=
  ∀ sc l, Q (((x.run sc).run l).1.1)

theorem run_bind (x : Turn ν β E α) (f : α → Turn ν β E γ) (sc : Scope β E) (l : Ledger ν) :
    ((x >>= f).run sc).run l =
      ((f ((x.run sc).run l).1.1).run ((x.run sc).run l).1.2).run ((x.run sc).run l).2 := rfl

theorem run_get_bind (f : Scope β E → Turn ν β E α) (sc : Scope β E) (l : Ledger ν) :
    ((MonadState.get >>= f : Turn ν β E α).run sc).run l = ((f sc).run sc).run l := rfl

namespace Returns

theorem pure {a : α} {Q : α → Prop} (h : Q a) : (Pure.pure a : Turn ν β E α).Returns Q :=
  fun _ _ => h

theorem trivial (x : Turn ν β E α) : x.Returns fun _ => True :=
  fun _ _ => True.intro

theorem bind {x : Turn ν β E α} {f : α → Turn ν β E γ} {P : α → Prop} {Q : γ → Prop}
    (hx : x.Returns P) (hf : ∀ a, P a → (f a).Returns Q) : (x >>= f).Returns Q := by
  intro sc l
  rw [run_bind]
  exact hf _ (hx sc l) _ _

theorem mono {x : Turn ν β E α} {P Q : α → Prop} (hx : x.Returns P) (h : ∀ a, P a → Q a) :
    x.Returns Q :=
  fun sc l => h _ (hx sc l)

theorem and {x : Turn ν β E α} {P Q : α → Prop} (hp : x.Returns P) (hq : x.Returns Q) :
    x.Returns fun a => P a ∧ Q a :=
  fun sc l => ⟨hp sc l, hq sc l⟩

/-- A `for` loop whose every round goes on with `g` of its state hands back
the fold of `g` over the list. -/
theorem forIn_yield {xs : List α} {init : γ} {body : α → γ → Turn ν β E (ForInStep γ)}
    {g : γ → α → γ} (h : ∀ a b, (body a b).Returns (· = .yield (g b a))) :
    (forIn xs init body).Returns (· = xs.foldl g init) := by
  induction xs generalizing init with
  | nil => exact pure rfl
  | cons a xs ih =>
    rw [List.forIn_cons]
    refine bind (h a init) fun step hstep => ?_
    subst hstep
    exact ih

end Returns

end Turn

namespace TurnE

/-- `x` hands back only values satisfying `Q` when it succeeds. -/
def Returns (x : TurnE ν β E α) (Q : α → Prop) : Prop :=
  Turn.Returns x.run fun r => ∀ a, r = .ok a → Q a

namespace Returns

theorem pure {a : α} {Q : α → Prop} (h : Q a) : (Pure.pure a : TurnE ν β E α).Returns Q :=
  Turn.Returns.pure fun _ ha => by cases ha; exact h

theorem trivial (x : TurnE ν β E α) : x.Returns fun _ => True :=
  Turn.Returns.mono (Turn.Returns.trivial _) fun _ _ _ _ => True.intro

theorem throw {e : RuntimeError} {Q : α → Prop} :
    TurnE.Returns (MonadExcept.throw e : TurnE ν β E α) Q :=
  Turn.Returns.pure fun _ ha => by cases ha

theorem bind {x : TurnE ν β E α} {f : α → TurnE ν β E γ} {P : α → Prop} {Q : γ → Prop}
    (hx : x.Returns P) (hf : ∀ a, P a → (f a).Returns Q) : (x >>= f).Returns Q := by
  unfold Returns
  rw [ExceptT.run_bind]
  refine Turn.Returns.bind hx ?_
  rintro (e | a) ha
  · exact Turn.Returns.pure fun _ he => by cases he
  · exact hf a (ha a rfl)

theorem mono {x : TurnE ν β E α} {P Q : α → Prop} (hx : x.Returns P) (h : ∀ a, P a → Q a) :
    x.Returns Q :=
  Turn.Returns.mono hx fun _ hr a ha => h a (hr a ha)

/-- A turn that cannot fail, run where failure is possible. -/
theorem lift {x : Turn ν β E α} {Q : α → Prop} (hx : x.Returns Q) :
    TurnE.Returns (ExceptT.lift x) Q := by
  unfold Returns
  rw [ExceptT.run_lift]
  refine Turn.Returns.bind hx fun a ha => Turn.Returns.pure ?_
  rintro b ⟨⟩
  exact ha

end Returns

end TurnE

end Statechart
