import Statechart.Actor.Diagnostic
/-!
# The journal of an interpreter

Everything an interpreter does that is seen from outside is written, in
order, to one journal: diagnostics (when a hook is installed), lines written
by effect actions, and the snapshots handed to observers. The journal also
hands out actor ids and remembers each actor's name.

Nothing written to the journal is taken back when a macrostep fails.
-/
namespace Statechart

/-- One entry of the journal; `ν` is what an observer is shown. -/
inductive Report (ν : Type) where
  | diagnostic (d : Diagnostic)
  /-- A line written by an effect action. -/
  | effect (line : String)
  /-- An observer was called with a snapshot. -/
  | notified (subscription : Nat) (snapshot : ν)
  deriving Repr, Inhabited

/-- Reports so far and the name of every actor made so far, by id. -/
structure Ledger (ν : Type) where
  reports : Array (Report ν) := #[]
  names : Array String := #[]
  deriving Inhabited

/-- Computations that write to the journal. -/
abbrev Journal (ν : Type) := StateM (Ledger ν)

namespace Journal

/-- A new actor reference with a fresh id. -/
def fresh (name : String) : Journal ν ActorRef := do
  let l ← get
  set { l with names := l.names.push name }
  return ⟨l.names.size, name⟩

def report (r : Report ν) : Journal ν Unit :=
  modify fun l => { l with reports := l.reports.push r }

/-- Reports a diagnostic when a hook is installed. -/
def emit (hook : Bool) (d : Diagnostic) : Journal ν Unit :=
  if hook then report (.diagnostic d) else pure ()

end Journal

def Ledger.nameOf (l : Ledger ν) (id : ActorId) : Option String := l.names[id]?

end Statechart
