import Statechart.Actor.Error
/-!
# The registry of live actors

Every live actor has an entry: its reference, its parent's id and its live
children by name. Parents are held by id, so a child can name its parent
without keeping it alive. Children are listed in name order.

Removing an actor removes its whole subtree, children before their parent.
-/
namespace Statechart

/-- A live actor. -/
structure RegistryEntry where
  actor : ActorRef
  parent : Option ActorId
  /-- Live children by name, sorted by name. -/
  children : List (String × ActorId) := []
  deriving DecidableEq, Repr, Inhabited

/-- The live actors of one interpreter. -/
structure Registry where
  entries : List (ActorId × RegistryEntry) := []
  deriving DecidableEq, Repr, Inhabited

/-- Adds a name to a table sorted by name. -/
def insertByName (name : String) (id : ActorId) : List (String × ActorId) → List (String × ActorId)
  | [] => [(name, id)]
  | (n, i) :: rest =>
    if name < n then (name, id) :: (n, i) :: rest
    else if name == n then (name, id) :: rest
    else (n, i) :: insertByName name id rest

namespace Registry

def entry? (r : Registry) (id : ActorId) : Option RegistryEntry := lookupId r.entries id
where
  /-- The first entry under an id. -/
  lookupId : List (ActorId × RegistryEntry) → ActorId → Option RegistryEntry
    | [], _ => none
    | (i, e) :: rest, id => if i == id then some e else lookupId rest id

def modifyEntry (r : Registry) (id : ActorId) (f : RegistryEntry → RegistryEntry) : Registry :=
  { entries := r.entries.map fun (i, e) => if i == id then (i, f e) else (i, e) }

/-- A registry holding only the root. -/
def ofRoot (root : ActorRef) : Registry := { entries := [(root.id, { actor := root, parent := none })] }

/-- Registers a child under a live parent; names are unique among live children. -/
def register (r : Registry) (parent : ActorId) (child : ActorRef) : Except RuntimeError Registry :=
  match r.entry? parent with
  | none => .error (.parentGone parent)
  | some e =>
    if e.children.any (·.1 == child.name) then .error (.duplicateChild e.actor.name child.name)
    else
      let r := r.modifyEntry parent fun e =>
        { e with children := insertByName child.name child.id e.children }
      .ok { entries := r.entries ++ [(child.id, { actor := child, parent := some parent })] }

def contains (r : Registry) (id : ActorId) : Bool := (r.entry? id).isSome

theorem contains_ofRoot (root : ActorRef) : (ofRoot root).contains root.id = true := by
  simp [contains, ofRoot, entry?, entry?.lookupId]

/-- Only a live parent takes children. -/
theorem register_of_entry_eq_none (r : Registry) (parent : ActorId) (child : ActorRef)
    (h : r.entry? parent = none) : r.register parent child = .error (.parentGone parent) := by
  simp [register, h]

def actor? (r : Registry) (id : ActorId) : Option ActorRef := (r.entry? id).map (·.actor)

def parent? (r : Registry) (id : ActorId) : Option ActorId := (r.entry? id).bind (·.parent)

def child? (r : Registry) (parent : ActorId) (name : String) : Option ActorId :=
  (r.entry? parent).bind fun e => (e.children.find? (·.1 == name)).map Prod.snd

/-- The live children of an actor, in name order. -/
def children (r : Registry) (id : ActorId) : List ActorRef :=
  match r.entry? id with
  | some e => e.children.filterMap fun (_, c) => r.actor? c
  | none => []

/-- An actor and its descendants, children first; `fuel` bounds the depth. -/
def postOrder (r : Registry) : Nat → ActorId → List ActorRef
  | 0, _ => []
  | fuel + 1, id =>
    match r.entry? id with
    | none => []
    | some e => (e.children.map fun (_, c) => r.postOrder fuel c).flatten ++ [e.actor]

/-- Unregisters an actor and its descendants; returns them children first. -/
def removeSubtree (r : Registry) (id : ActorId) : Registry × List ActorRef :=
  let removed := r.postOrder r.entries.length id
  let r := match r.parent? id, r.actor? id with
    | some p, some a => r.modifyEntry p fun e => { e with children := e.children.filter (·.1 != a.name) }
    | _, _ => r
  ({ entries := r.entries.filter fun (i, _) => !removed.any (·.id == i) }, removed)

/-- Unregisters every descendant of an actor, keeping the actor. -/
def removeDescendants (r : Registry) (id : ActorId) : Registry × List ActorRef :=
  let kids := ((r.entry? id).map (·.children)).getD []
  kids.foldl (fun (r, acc) (_, c) => let (r, removed) := r.removeSubtree c; (r, acc ++ removed)) (r, [])

end Registry

end Statechart
