import Statechart.Demo.Catalog
/-!
# Command line

`statechart NAME` runs the demo of that name and prints what it prints;
actor ids are shown as numbers. The exit code tells whether the demo ran to
its end.
-/
namespace Statechart

/-- Runs the demo named on the command line. -/
def runDemo (args : List String) : IO UInt32 := do
  match args with
  | [name] =>
    match Demo.byName name with
    | some o =>
      IO.print (Demo.render toString o.output)
      return (if o.success then 0 else 1)
    | none =>
      IO.eprintln ("unknown demo '" ++ name ++ "'; the demos are " ++ ", ".intercalate Demo.names)
      return 2
  | _ =>
    IO.eprintln "usage: statechart DEMO"
    return 2

end Statechart

def main (args : List String) : IO UInt32 := Statechart.runDemo args
