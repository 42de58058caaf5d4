import Statechart.Demo.Toggle
import Statechart.Demo.PingPong
import Statechart.Demo.TicTacToe
/-!
# The demos by name
-/
namespace Statechart.Demo

def names : List String := ["toggle", "ping_pong", "tic_tac_toe"]

/-- Runs the demo of a name. -/
def byName : String → Option Outcome
  | "toggle" => some Toggle.run
  | "ping_pong" => some PingPong.run
  | "tic_tac_toe" => some TicTacToe.run
  | _ => none

end Statechart.Demo
