import Deferred.Tuner

/-!
# The tuner's command line

Runs the demonstration of the radio tuner and writes its log to standard error. An argument holds
the log filter; without it, everything from `info` on is shown.
-/

/-- Runs the demonstration. -/
def main (arguments : List String) : IO UInt32 := do
  let filter := Deferred.Filter.parse (arguments.headD "info")
  match Deferred.Radio.demonstration with
  | .ok messages =>
    for line in Deferred.Radio.shown filter messages do
      IO.eprintln line
    return 0
  | .error e =>
    IO.eprintln s!"Error: {e.message}"
    return 1
