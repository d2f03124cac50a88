import CommandBus.Program

namespace CommandBus

def readFile? (path : String) : IO (Option String) := do
  try
    return some (← IO.FS.readFile path)
  catch _ => return none

def readAll (stream : IO.FS.Stream) : IO (Option String) := do
  let bytes ← readRest stream
  return String.fromUTF8? bytes
where
  readRest (stream : IO.FS.Stream) : IO ByteArray := do
    let mut all := ByteArray.empty
    repeat
      let piece ← stream.read 65536
      if piece.isEmpty then break
      all := all ++ piece
    return all

def readConfig : Option String → IO (Option String)
  | some path => do if Config.isInput path then readAll (← IO.getStdin) else readFile? path
  | none => return none

def printFailure (f : Demo.Failure) : IO Unit := do
  IO.eprintln ("Error: " ++ f.message)
  for cause in f.causes do
    IO.eprintln ("  caused by: " ++ cause)

/-- Runs the demonstration and gives the exit code. Both sides read one clock and no reading of it is
printed, so any clock that does not run backwards will do. -/
def perform (options : CommandLine.DemoOptions) : IO UInt32 := do
  let assignments ← readFile? ".env"
  let content ← readConfig options.config
  let large ← options.payloadSize?.mapM fun n => IO.getRandomBytes n.toUSize
  let wall ← IO.monoNanosNow
  let (events, ending) := Program.run wall options assignments content (large.map ByteArray.toList)
  for event in events do
    IO.println (event.line options.log)
  match ending with
  | .failed failure => printFailure failure
  | .completed | .aborted => pure ()
  return ending.exitCode.toUInt32

end CommandBus

def main (arguments : List String) : IO UInt32 := do
  match CommandBus.CommandLine.parse (← IO.getEnv "MQTT_RPC_CONFIG") arguments with
  | .ok options => CommandBus.perform options
  | .error refusal =>
    IO.eprintln "usage: demo [--log FORMAT] [--config PATH] [--max-packet-size N] [--large-payload-size N]"
    return refusal.exitCode.toUInt32
