import CommandBus.Config
import CommandBus.Demo.Digest
import CommandBus.World.Simulation

namespace CommandBus.Demo

inductive Event
  | digesting (invokerId : String) (length : Nat)
  | digested (name : String) (digest : Digest)
  | finished (executions cachedResponses : Nat)
  deriving DecidableEq, Inhabited, Repr

/-- Why a demonstration ends early: what was being done, and what went wrong, outermost first. -/
structure Failure where
  message : String
  causes : List String := []
  deriving DecidableEq, Inhabited, Repr

def Failure.ofError (doing : String) (e : ProtocolError) : Failure where
  message := doing
  causes := e.message :: e.cause.elim [] Cause.chain

inductive Ending
  | completed
  | failed (failure : Failure)
  /-- Something that it needs cannot be had. -/
  | aborted
  deriving DecidableEq, Inhabited, Repr

def Ending.exitCode : Ending → UInt8
  | .completed => 0
  | .failed _ => 1
  | .aborted => 101

def executorId : String := "demo-executor"
def invokerId : String := "demo-invoker"
def commandName : String := "digest"
def requestPattern : String := "demo/\x7bexecutorId\x7d/digest"
def tokens : TokenMap := [("executorId", executorId)]

/-- Every execution takes a millisecond; there is nothing to tell about an empty payload. -/
def handler : Handler Content := fun _ request =>
  { span := 1
    outcome :=
      match request.payload with
      | .data (b :: more) => .ok ⟨.digest (Digest.ofBytes (b :: more)), []⟩
      | _ => .error { message := "nothing to digest" } }

structure State where
  sim : Simulation Content
  events : List Event := []
  /-- The executor. -/
  executor : Nat := 0

abbrev Step (α : Type) := ExceptT Failure (StateM State) α

def run {α : Type} (f : Simulation Content → α × Simulation Content) : Step α :=
  modifyGet fun s =>
    let (a, sim) := f s.sim
    (a, { s with sim })

def attempt {α : Type} (doing : String)
    (f : Simulation Content → Except ProtocolError α × Simulation Content) : Step α := do
  match ← run f with
  | .ok a => return a
  | .error e => throw (.ofError doing e)

def report (e : Event) : Step Unit :=
  modify fun s => { s with events := s.events ++ [e] }

def runs (s : State) : List (IncomingRequest Content) :=
  s.sim.world.executors[s.executor]?.elim [] Executor.runs

/-- Invokes the command, and reports the executions that come of it. -/
def invoke (invoker : Nat) (timeout : Duration) (name : String) (payload : Bytes) : Step Unit := do
  let before := (runs (← get)).length
  let call ← run (·.invoke invoker { payload := .data payload, timeout, userData := [], tokens })
  modify fun s => { s with sim := s.sim.await fun w => (Simulation.callResult? w call).isSome }
  for request in (runs (← get)).drop before do
    report (.digesting (request.invokerId.getD "unknown")
      (request.payload.data?.elim 0 List.length))
  match Simulation.callResult? (← get).sim.world call with
  | some (_, .ok { payload := .digest digest, .. }) =>
    let expected := Checksum.compute .sha256 payload
    if digest.sha256 ≠ expected then
      throw { message :=
        s!"{name} request digest mismatch: expected {expected}, got {digest.sha256}" }
    report (.digested name digest)
  | some (_, .error e) => throw (.ofError s!"error invoking {name} request" e)
  | _ => return

/-- Sets up the executor and an invoker, and gives the invoker and the cache. -/
def prepare (config : Config) : Step (Nat × Nat) := do
  let connect := fun id doing => do
    let link ← run (·.connect id)
    return Client.chunking (← attempt doing (·.chunk link config.chunking))
  let clock ← run (·.newClock Clock.defaultMaxDrift)
  let cache ← run (·.newCache config.cache)
  let executorClient ← connect executorId "error creating executor client"
  let invokerClient ← connect invokerId "error creating invoker client"
  let command ← attempt "error creating executor" fun s =>
    (Executor.command? Content.requests Content.responses handler
      { commandName, requestPattern, tokens, isIdempotent := true, reusableFor := 30000 }, s)
  let executor ← run (·.newExecutor command executorClient false cache clock)
  modify fun s => { s with executor }
  attempt "error starting executor" (·.startExecutor executor)
  let channel ← attempt "error creating invoker" fun s =>
    (Channel.create invokerClient invokerId Content.requests Content.responses
      { commandName, requestPattern }, s)
  return (← run (·.newInvoker channel clock), cache)

/-- Makes the requests, the large one with the given payload. -/
def converse (invoker cache : Nat) (timeout : Duration) (large : Bytes) : Step Unit := do
  let small := Bytes.ofString "hello, world"
  invoke invoker timeout "small" small
  invoke invoker timeout "large" large
  invoke invoker timeout "repeated" small
  let s ← get
  report (.finished (runs s).length (s.sim.cache cache).state.size)

/-- What happens in a demonstration, and how it ends. The large payload is `none` if there is no room
for it, which comes out once both sides are set up. -/
def outcome (wall : Int) (maxPacketSize : Nat) (config : Config) (large : Option Bytes) :
    List Event × Ending :=
  let (result, s) := (prepare config).run { sim := Simulation.start wall (some maxPacketSize) }
  match result, large with
  | .error failure, _ => (s.events, .failed failure)
  | .ok _, none => (s.events, .aborted)
  | .ok (invoker, cache), some large =>
    let (result, s) := (converse invoker cache config.defaultTimeout large).run s
    (s.events, match result with
      | .ok () => .completed
      | .error failure => .failed failure)

end CommandBus.Demo
