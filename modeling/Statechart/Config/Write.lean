import Statechart.Config.Basic
import Statechart.Json.Pretty
/-!
# Configurations as JSON text

A state is written as an object with its fields in the order id, type,
initial, entry, exit, on, always, states; a field that is absent or an empty
list is left out. Every candidate list is written as an array of candidate
objects, even when it holds one candidate or none; a candidate writes its
target, guard and actions, each only when present.
-/
namespace Statechart

open Json

namespace CandidateConfig

/-- A candidate as a JSON object. -/
def toPretty (c : CandidateConfig) : Pretty :=
  .obj <|
    (c.target.map fun t => ("target", Pretty.str t)).toList ++
    (c.guard.map fun g => ("guard", Pretty.str g)).toList ++
    (if c.actions.isEmpty then [] else [("actions", .arr (c.actions.map .str))])

end CandidateConfig

/-- A list of candidates as a JSON array. -/
def candidatesPretty (cs : List CandidateConfig) : Pretty :=
  .arr (cs.map CandidateConfig.toPretty)

namespace StateConfig

/-- A state and its subtree as a JSON object. -/
def toPretty : StateConfig → Pretty
  | ⟨id, kind, initial, entry, exit, on, always, states⟩ =>
    .obj <|
      (id.map fun i => ("id", Pretty.str i)).toList ++
      (kind.map fun k => ("type", Pretty.str k.name)).toList ++
      (initial.map fun i => ("initial", Pretty.str i)).toList ++
      (if entry.isEmpty then [] else [("entry", .arr (entry.map .str))]) ++
      (if exit.isEmpty then [] else [("exit", .arr (exit.map .str))]) ++
      (if on.isEmpty then [] else [("on", .obj (on.map fun (e, cs) => (e, candidatesPretty cs)))]) ++
      (if always.isEmpty then [] else [("always", candidatesPretty always)]) ++
      (if states.isEmpty then [] else [("states", .obj (childrenPretty states))])
where
  /-- Child states as object members. -/
  childrenPretty : List (String × StateConfig) → List (String × Pretty)
    | [] => []
    | (k, s) :: rest => (k, toPretty s) :: childrenPretty rest

end StateConfig

/-- The configuration as indented JSON text. -/
def MachineConfig.toJson (m : MachineConfig) : String :=
  m.root.toPretty.render 0

end Statechart
