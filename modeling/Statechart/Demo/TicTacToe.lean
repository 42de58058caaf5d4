import Statechart.Demo.Basic
/-!
# Demo: tic-tac-toe with actor players

A game machine spawns two player actors and referees their turns. One player
takes the first free cell. The other follows strategy rules in priority
order, written as guarded eventless transitions: the first rule whose guard
holds picks the move. Players answer through delayed sends; an observer
prints the board after every turn.
-/
namespace Statechart.Demo.TicTacToe

/-- Nine cells, row by row; a cell holds `x`, `o` or nothing. -/
abbrev Field := List (Option Char)

def emptyField : Field := List.replicate 9 none

def cell (f : Field) (i : Nat) : Option Char := f.getD i none

/-- The messages of a game. -/
inductive Move where
  | start
  | play (role : Char) (field : Field)
  | turnMade (index : Nat)
  /-- The game goes on; the mark to move next. -/
  | proceed (turnOrder : Char)
  /-- The game is over, with the winning line if there is one. -/
  | finish (win : Option (List Nat))
  deriving DecidableEq, Repr, Inhabited

instance : Event Move := ⟨fun
  | .start => "START"
  | .play .. => "PLAY"
  | .turnMade .. => "TURN_MADE"
  | .proceed .. => "CONTINUE"
  | .finish .. => "END"⟩

/-- The eight lines of three. -/
def lines : List (List Nat) :=
  [[0, 1, 2], [3, 4, 5], [6, 7, 8], [0, 3, 6], [1, 4, 7], [2, 5, 8], [0, 4, 8], [2, 4, 6]]

def opponent (role : Char) : Char := if role == 'x' then 'o' else 'x'

/-- `x` moves whenever an odd number of cells is free. -/
def turnOrder (f : Field) : Char := if (f.filter Option.isNone).length % 2 == 0 then 'o' else 'x'

/-- A line held entirely by one mark. -/
def winner (f : Field) : Option (List Nat) :=
  lines.find? fun l => match l with
    | [a, b, c] => (cell f a).isSome && cell f a == cell f b && cell f a == cell f c
    | _ => false

def firstFree (f : Field) (cells : List Nat) : Option Nat := cells.find? fun i => (cell f i).isNone

/-- How many cells of a line hold a mark. -/
def held (f : Field) (role : Char) (l : List Nat) : Nat := (l.filter fun i => cell f i == some role).length

/-- The free cell completing a line that holds two of `role`'s marks. -/
def completing (f : Field) (role : Char) : Option Nat :=
  lines.findSome? fun l => if held f role l == 2 then firstFree f l else none

/-- A cell opening two lines at once: the smallest free cell shared by two
lines that each hold one mark of `role` and two free cells. -/
def fork (f : Field) (role : Char) : Option Nat :=
  let opened := (lines.filter fun l => held f role l == 1 && (l.filter fun i => (cell f i).isNone).length == 2)
    |>.map fun l => (l.filter fun i => (cell f i).isNone).mergeSort
  go opened
where
  /-- Tries each opened line against the later ones. -/
  go : List (List Nat) → Option Nat
    | [] => none
    | first :: rest =>
      match rest.findSome? fun second => first.find? (second.contains ·) with
      | some i => some i
      | none => go rest

/-- The corner opposite one the opponent holds, when free. -/
def oppositeCorner (f : Field) (role : Char) : Option Nat :=
  ([(0, 8), (2, 6), (6, 2), (8, 0)].find? fun (taken, free) =>
    cell f taken == some (opponent role) && (cell f free).isNone).map Prod.snd

/-- Strategy rules in priority order. -/
def rules : List (String × (Field → Char → Option Nat)) :=
  [("win", completing),
   ("block", fun f role => completing f (opponent role)),
   ("fork", fork),
   ("blockFork", fun f role => fork f (opponent role)),
   ("center", fun f _ => firstFree f [4]),
   ("oppositeCorner", oppositeCorner),
   ("corner", fun f _ => firstFree f [0, 2, 6, 8]),
   ("edge", fun f _ => firstFree f [1, 3, 5, 7])]

/-- What a player knows: the board it was shown, its mark, its choice. -/
structure Player where
  field : Field := emptyField
  role : Char := '\x00'
  choice : Option Nat := none
  deriving DecidableEq, Repr, Inhabited

abbrev PlayerMachine := Machine Player Move Empty

/-- Tells the parent the chosen cell, 300 ms later; nothing without a choice. -/
def reply : Action Player Move Empty :=
  .send .parent (fun p _ => p.choice.map .turnMade) (some (Duration.ofMillis 300))

/-- Takes in the board and the mark a `PLAY` brings. -/
def contextify : Action Player Move Empty :=
  .assign fun p e => match e with
    | some (.play role field) => { field, role, choice := none }
    | _ => p

/-- Takes the first free cell. -/
def simplePlayer : Except BuildError PlayerMachine :=
  let config : MachineConfig := ⟨(MachineConfig.new "simple").root.withInitial "waiting"
    |>.addState "waiting" (StateConfig.new.addOn "PLAY"
      [CandidateConfig.targetless.addActions ["contextify", "pick", "reply"]])⟩
  ({ config, context := {} } : MachineBuilder Player Move Empty)
    |>.action "contextify" contextify
    |>.action "pick" (.assign fun p _ => { p with choice := p.field.findIdx? Option.isNone })
    |>.action "reply" reply
    |>.build

/-- Picks its move with the first strategy rule that applies. -/
def rulePlayer : Except BuildError PlayerMachine :=
  let thinking := rules.foldl (fun (st : StateConfig) (name, _) =>
      st.addAlways [(CandidateConfig.toward "answering").withGuard (name ++ "Applies") |>.addActions [name]])
    StateConfig.new |>.addAlways [.toward "waiting"]
  let config : MachineConfig := ⟨(MachineConfig.new "rules").root.withInitial "waiting"
    |>.addState "waiting" (StateConfig.new.addOn "PLAY" [(CandidateConfig.toward "thinking").addActions ["contextify"]])
    |>.addState "thinking" thinking
    |>.addState "answering" (StateConfig.new.addEntry ["reply"] |>.addAlways [.toward "waiting"])⟩
  let b : MachineBuilder Player Move Empty := { config, context := {} }
  let b := (b.action "contextify" contextify).action "reply" reply
  let b := rules.foldl (fun b (name, rule) =>
    (b.guard (name ++ "Applies") (Guard.ofPredicate fun p _ => (rule p.field p.role).isSome)).action name
      (.assign fun p _ => { p with choice := rule p.field p.role })) b
  b.build

/-- The referee's board and, once over, the winning line. -/
structure Board where
  field : Field := emptyField
  win : Option (List Nat) := none
  deriving DecidableEq, Repr, Inhabited

/-- Asks a player to move, showing it the board. -/
def ask (role : Char) : Action Board Move PlayerMachine :=
  Action.sendToChild (if role == 'x' then "actor1" else "actor2") fun b _ => .play role b.field

def capitalize (name : String) : String :=
  match name.toList with
  | c :: cs => String.ofList (c.toUpper :: cs)
  | [] => ""

/-- The state waiting for one player's move. -/
def actorTurn (name : String) : StateConfig :=
  StateConfig.new.addEntry ["let" ++ capitalize name ++ "Play"]
    |>.addOn "TURN_MADE" [(CandidateConfig.toward "#evaluate").withGuard "cellIsFree", .toward name]

/-- The referee. -/
def game (first second : PlayerMachine) : Except BuildError (Machine Board Move PlayerMachine) :=
  let config : MachineConfig := ⟨(MachineConfig.new "ticTacToe").root.withInitial "init"
    |>.addState "init" (StateConfig.new.addEntry ["createActor1", "createActor2"] |>.addOn "START" [.toward "play"])
    |>.addState "play" (StateConfig.new.withInitial "turn"
      |>.addState "turn" (StateConfig.new.withInitial "actor1"
        |>.addState "actor1" (actorTurn "actor1")
        |>.addState "actor2" (actorTurn "actor2"))
      |>.addState "evaluate" (StateConfig.new.withId "evaluate"
        |>.addEntry ["writeTurn", "continueOrEnd"]
        |>.addOn "CONTINUE" [(CandidateConfig.toward "turn.actor1").withGuard "xToMove", .toward "turn.actor2"]
        |>.addOn "END" [.toward "#finale"]))
    |>.addState "finale" (StateConfig.new.withId "finale" |>.addEntry ["assignWin"])⟩
  ({ config, context := {} } : MachineBuilder Board Move PlayerMachine)
    |>.action "createActor1" (.spawn "actor1" (fun _ _ => first) none)
    |>.action "createActor2" (.spawn "actor2" (fun _ _ => second) none)
    |>.action "letActor1Play" (ask 'x')
    |>.action "letActor2Play" (ask 'o')
    |>.action "writeTurn" (.assign fun b e => match e with
      | some (.turnMade i) => { b with field := b.field.set i (some (turnOrder b.field)) }
      | _ => b)
    |>.action "continueOrEnd" (Action.raise fun b _ =>
      let win := winner b.field
      if win.isSome || b.field.all Option.isSome then .finish win else .proceed (turnOrder b.field))
    |>.action "assignWin" (.assign fun b e => match e with
      | some (.finish win) => { b with win }
      | _ => b)
    |>.guard "cellIsFree" (Guard.ofPredicate fun b e => match e with
      | some (.turnMade i) => (cell b.field i).isNone
      | _ => false)
    |>.guard "xToMove" (Guard.ofPredicate fun _ e => e == some (.proceed 'x'))
    |>.build

/-- The rows of a board, as the observer prints them. -/
def rows (f : Field) : List Piece :=
  [f.take 3, (f.drop 3).take 3, f.drop 6].flatMap fun row =>
    line ("    " ++ " ".intercalate (row.map fun c => (c.map toString).getD "."))

/-- What the observer prints: the board, whenever a turn is being evaluated. -/
def present : Report (Snapshot Board) → List Piece
  | .notified _ s =>
    if s.value.matchesPath "play.evaluate" then line "  after a turn:" ++ rows s.context.field else []
  | _ => []

abbrev Cell := MachineActor Player Move Empty

def program : Script Board Move PlayerMachine Cell Unit := do
  discard <| (Interpreter.subscribe : Run Board Move PlayerMachine Cell Nat)
  attempt (Interpreter.start machineNursery)
  let i ← get
  let players := ", ".intercalate (i.children.map (·.name))
  say ("Players: " ++ players ++ "\n")
  attempt (Interpreter.send machineNursery Move.start)
  attempt (Interpreter.runTimers machineNursery)
  let i ← get
  let board := i.root.context
  match board.win with
  | some l =>
    let mark := ((l.head?.bind (cell board.field)).getD '?').toString
    let cells := ", ".intercalate (l.map toString)
    say ("\n" ++ mark ++ " wins on [" ++ cells ++ "]")
  | none => say "\nDraw"
  say s!"Final state: {i.root.value.render}"
  say "\n=== Example Complete ==="

def run : Outcome :=
  let header := line "=== Tic-Tac-Toe With Actor Players ===\n"
  let built := do game (← simplePlayer) (← rulePlayer)
  match built with
  | .error _ => { output := header, success := false }
  | .ok m =>
    let o := perform m (.system 0) false present program
    { o with output := header ++ o.output }

end Statechart.Demo.TicTacToe
