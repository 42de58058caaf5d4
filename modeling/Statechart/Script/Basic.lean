import Statechart.Machine.Basic
/-!
# Scripted machines: events, contexts and expressions

A scripted machine works on a context of named 64-bit integers, a trace of
labels and a table of actor references, and receives events that carry a type
and named 64-bit integers. Expressions read both and compute in wrapping
two's-complement arithmetic; formulas decide guards and may fail with a
message.

Tables keyed by name are kept sorted by key, one entry per key.
-/
namespace Statechart.Script

/-- Sets `k` to `v` in a table sorted by key. -/
def insertSorted (k : String) (v : α) : List (String × α) → List (String × α)
  | [] => [(k, v)]
  | (k', v') :: rest =>
    if k < k' then (k, v) :: (k', v') :: rest
    else if k == k' then (k, v) :: rest
    else (k', v') :: insertSorted k v rest

/-- A table sorted by key; a later entry for a key wins. -/
def sortedOf (entries : List (String × α)) : List (String × α) :=
  entries.foldl (fun t (k, v) => insertSorted k v t) []

/-- An event: a type and named integers. -/
structure Signal where
  type : String
  data : List (String × Int64) := []
  deriving DecidableEq, Repr, Inhabited

instance : Event Signal := ⟨Signal.type⟩

/-- A datum of the event, 0 when missing. -/
def Signal.arg (e : Signal) (k : String) : Int64 := (lookup e.data k).getD 0

/-- The context of a scripted machine. -/
structure Context where
  vars : List (String × Int64) := []
  trace : List String := []
  refs : List (String × ActorRef) := []
  deriving DecidableEq, Repr, Inhabited

/-- A variable of the context, 0 when missing. -/
def Context.var (c : Context) (k : String) : Int64 := (lookup c.vars k).getD 0

/-- An integer expression. -/
inductive Expr where
  | lit (n : Int64)
  /-- A variable of the context. -/
  | var (name : String)
  /-- A datum of the event; 0 without an event. -/
  | arg (name : String)
  /-- The length of the trace. -/
  | traceLen
  | add (a b : Expr)
  | sub (a b : Expr)
  | mul (a b : Expr)
  deriving DecidableEq, Repr, Inhabited

/-- The value of an expression. -/
def Expr.eval (c : Context) (e : Option Signal) : Expr → Int64
  | .lit n => n
  | .var k => c.var k
  | .arg k => (e.map (·.arg k)).getD 0
  | .traceLen => Int64.ofInt c.trace.length
  | .add a b => a.eval c e + b.eval c e
  | .sub a b => a.eval c e - b.eval c e
  | .mul a b => a.eval c e * b.eval c e

/-- Evaluates named expressions into a sorted table. -/
def evalAll (c : Context) (e : Option Signal) (exprs : List (String × Expr)) :
    List (String × Int64) :=
  sortedOf (exprs.map fun (k, x) => (k, x.eval c e))

/-- A comparison of two integers. -/
inductive Comparison where
  | eq | ne | lt | le | gt | ge
  deriving DecidableEq, Repr, Inhabited

/-- Whether two integers compare so. -/
def Comparison.holds (a b : Int64) : Comparison → Bool
  | .eq => a == b
  | .ne => a != b
  | .lt => decide (a < b)
  | .le => decide (a ≤ b)
  | .gt => decide (b < a)
  | .ge => decide (b ≤ a)

/-- A guard formula. -/
inductive Formula where
  | const (b : Bool)
  | compare (op : Comparison) (a b : Expr)
  | not (f : Formula)
  /-- Holds when every part holds; stops at the first that does not. -/
  | all (fs : List Formula)
  /-- Holds when some part holds; stops at the first that does. -/
  | any (fs : List Formula)
  /-- With a type: there is an event of that type; without: there is no event. -/
  | eventIs (type : Option String)
  /-- Fails with the message, or only when `condition` holds and is false otherwise. -/
  | fail (message : String) (condition : Option Formula)
  deriving Repr, Inhabited

mutual
/-- The value of a formula, or the message of a failure. -/
def Formula.eval (c : Context) (e : Option Signal) : Formula → Except String Bool
  | .const b => .ok b
  | .compare op a b => .ok (op.holds (a.eval c e) (b.eval c e))
  | .not f => (f.eval c e).map (!·)
  | .all fs => Formula.evalAll c e fs
  | .any fs => Formula.evalAny c e fs
  | .eventIs type => .ok (match type, e with
    | some t, some ev => ev.type == t
    | some _, none => false
    | none, ev => ev.isNone)
  | .fail message none => .error message
  | .fail message (some f) => do
    if ← f.eval c e then .error message else .ok false

/-- Whether every formula holds, left to right. -/
def Formula.evalAll (c : Context) (e : Option Signal) : List Formula → Except String Bool
  | [] => .ok true
  | f :: fs => do if ← f.eval c e then Formula.evalAll c e fs else .ok false

/-- Whether some formula holds, left to right. -/
def Formula.evalAny (c : Context) (e : Option Signal) : List Formula → Except String Bool
  | [] => .ok false
  | f :: fs => do if ← f.eval c e then .ok true else Formula.evalAny c e fs
end

def Formula.toGuard (f : Formula) : Guard Context Signal := fun c e => f.eval c e

end Statechart.Script
