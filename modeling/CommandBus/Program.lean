import CommandBus.Demo.Log
import CommandBus.Text.Assignments

namespace CommandBus.Program

open CommandLine Demo

/-- How the program ends before it begins, if the file beside it that sets its environment forbids it
to run. -/
def obstacle? : Option String → Option Ending
  | some text =>
    match Text.Assignments.load text with
    | .ok _ => none
    | .error .malformed => some (.failed { message := "error reading `.env` file" })
    | .error .unsettable => some .aborted
  | none => none

/-- The config in a file, or the default one if there is no path. -/
def configAt (path content : Option String) : Except Failure Config :=
  match path with
  | none => .ok {}
  | some path =>
    match Config.read path content with
    | .ok config => .ok config
    | .error e => .error { message := e.message }

def demonstrate (wall : Int) (options : DemoOptions) (content : Option String)
    (large : Option Bytes) : List Event × Ending :=
  match configAt options.config content with
  | .error failure => ([], .failed failure)
  | .ok config => outcome wall options.maxPacketSize config large

def run (wall : Int) (options : DemoOptions) (assignments content : Option String)
    (large : Option Bytes) : List Event × Ending :=
  match obstacle? assignments with
  | some ending => ([], ending)
  | none => demonstrate wall options content large

end CommandBus.Program
