import CommandBus.Network

namespace CommandBus

/-- An invocation that awaits responses on a topic, with those that have arrived. -/
structure Awaiting where
  topic : String
  responses : List Message := []
  deriving Inhabited, Repr

structure Route where
  box : Nat
  isOver : Bool := false
  deriving Inhabited, Repr

structure Router where
  /-- By correlation id. -/
  pending : List (Bytes × Awaiting) := []
  subscribed : List String := []
  /-- Some procedure works on the subscriptions. -/
  isLocked : Bool := false
  isCancelled : Bool := false
  /-- Routes by their position. -/
  routes : List Route := []
  /-- Routes that a shutdown has not taken over yet. -/
  untaken : List Nat := []
  deriving Inhabited, Repr

namespace Router

def correlationSize : Nat := 16

/-- Starts accepting responses with this correlation id on a topic; the id must not be in use. -/
def register (r : Router) (id : Bytes) (topic : String) : Except ProtocolError Router :=
  if (r.pending.lookup id).isSome then
    .error ((ProtocolError.stateInvalid (some "correlation_id")).withText
      s!"correlation ID {Uuid.text id} already in use")
  else .ok { r with pending := r.pending ++ [(id, { topic })] }

def deregister (r : Router) (id : Bytes) : Router :=
  { r with pending := r.pending.filter (·.1 != id) }

def modifyPending (r : Router) (id : Bytes) (f : Awaiting → Awaiting) : Router :=
  { r with pending := r.pending.map fun (k, a) => (k, if k = id then f a else a) }

/-- Queues a response for its invocation; responses that are nobody's are dropped. -/
def deliver (r : Router) (m : Message) : Router :=
  match m.correlationData with
  | none => r
  | some id =>
    if id.length = correlationSize then
      r.modifyPending id fun a =>
        if a.topic = m.topic then { a with responses := a.responses ++ [m] } else a
    else r

def take? (r : Router) (id : Bytes) : Option (Message × Router) :=
  match (r.pending.lookup id).map Awaiting.responses with
  | some (m :: rest) => some (m, r.modifyPending id ({ · with responses := rest }))
  | _ => none

def cancel (r : Router) : Router :=
  { r with isCancelled := true }

def endRoute (r : Router) (route : Nat) : Router :=
  { r with routes := r.routes.modify route ({ · with isOver := true }) }

def isOver (r : Router) (route : Nat) : Bool :=
  r.routes[route]?.elim true Route.isOver

/-- The next step of a route, on the network that its mailbox is part of; `none` while nothing has
arrived and after it has ended. Every response is acknowledged, whatever becomes of it. -/
def stepRoute? (r : Router) (route : Nat) (n : Network) : Option (Router × Network) := do
  let state ← r.routes[route]?
  if state.isOver then none
  else if r.isCancelled then return (r.endRoute route, n.dropReader state.box)
  else match n.take? state.box with
    | some (d, n) => return (r.deliver d.message, n.acknowledge d.ack)
    | none => if n.isClosed state.box then return (r.endRoute route, n.dropReader state.box) else none

def shutDownText : String := "invoker has been shut down"

/-- The steps of making sure that a filter is subscribed to. -/
inductive Ensuring
  | locking
  | subscribing
  | opening
  | recording (route : Nat)
  | done (result : Except ProtocolError Unit)

def unlock (r : Router) : Router :=
  { r with isLocked := false }

/-- The next step, with the number of the route it starts, if it does; `none` while the lock is
held. -/
def stepEnsure? (r : Router) (c : Client) (filter : String) (n : Network) :
    Ensuring → Option (Ensuring × Router × Network × Option Nat)
  | .locking =>
    if r.isLocked then none
    else if r.subscribed.contains filter then some (.done (.ok ()), r, n, none)
    else if r.isCancelled then
      some (.done (.error (ProtocolError.cancellation.withText shutDownText)), r, n, none)
    else some (.subscribing, { r with isLocked := true }, n, none)
  | .subscribing =>
    match n.subscribe c filter .atLeastOnce with
    | (.error e, n) => some (.done (.error (.ofClient e)), r.unlock, n, none)
    | (.ok code, n) =>
      if code.isSuccess then some (.opening, r, n, none)
      else
        some (.done (.error ((ProtocolError.ofClient (.rejected code)).withText
          s!"subscription to {Text.quoted filter} rejected")), r.unlock, n, none)
  | .opening =>
    match n.receiver c filter with
    | (.error e, n) => some (.done (.error (.ofClient e)), r.unlock, n, none)
    | (.ok box, n) =>
      let route := r.routes.length
      some (.recording route, { r with routes := r.routes ++ [{ box }] }, n, some route)
  | .recording route =>
    some (.done (.ok ()),
      { r.unlock with
        untaken := r.untaken ++ [route]
        subscribed := r.subscribed ++ [filter] },
      n, none)
  | .done _ => none

/-- The steps of shutting down: to cancel, to take over the routes and wait for their end, to take
over the subscriptions and undo them. -/
inductive Stopping
  | cancelling
  | takingRoutes
  | joining (routes : List Nat)
  | takingFilters
  | unsubscribing (filters : List String)
  | done

def stepStop? (r : Router) (c : Client) (n : Network) : Stopping → Option (Stopping × Router × Network)
  | .cancelling => some (.takingRoutes, r.cancel, n)
  | .takingRoutes => some (.joining r.untaken, { r with untaken := [] }, n)
  | .joining [] => some (.takingFilters, r, n)
  | .joining (route :: more) => if r.isOver route then some (.joining more, r, n) else none
  | .takingFilters =>
    if r.isLocked then none
    else some (.unsubscribing r.subscribed, { r with subscribed := [] }, n)
  | .unsubscribing [] => some (.done, r, n)
  | .unsubscribing (filter :: more) =>
    some (.unsubscribing more, r, (n.unsubscribe c filter).2)
  | .done => none

end Router

end CommandBus
