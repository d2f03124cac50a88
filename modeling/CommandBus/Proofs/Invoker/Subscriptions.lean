import CommandBus.Proofs.Invoker.Routing
import Mathlib

namespace CommandBus

namespace Router

inductive SubscriptionCall
  | subscribe (filter : String)
  | unsubscribe (filter : String)
  deriving DecidableEq

namespace SubscriptionCall

def filter : SubscriptionCall → String
  | subscribe filter | unsubscribe filter => filter

def make (c : Client) (n : Network) : SubscriptionCall → Except ClientError ReasonCode × Network
  | subscribe filter => n.subscribe c filter .atLeastOnce
  | unsubscribe filter => n.unsubscribe c filter

end SubscriptionCall

/-- What a step of a router makes of the network: it makes one such call, it opens a mailbox, or it
leaves the network alone. -/
inductive Calls (c : Client) (n : Network) : Option SubscriptionCall → Network → Prop
  | made (call : SubscriptionCall) : Calls c n (some call) (call.make c n).2
  | opened (filter : String) : Calls c n none (n.receiver c filter).2
  | untouched : Calls c n none n

namespace Ensuring

def holdsLock : Ensuring → Bool
  | subscribing | opening | recording _ => true
  | _ => false

def hasSubscribed : Ensuring → Bool
  | opening | recording _ => true
  | _ => false

def call? (filter : String) : Ensuring → Option SubscriptionCall
  | subscribing => some (.subscribe filter)
  | _ => none

def Succeeds (c : Client) (filter : String) (n : Network) : Ensuring → Prop
  | subscribing => ∃ code, (n.subscribe c filter .atLeastOnce).1 = .ok code ∧ code.isSuccess = true
  | opening => ∃ box, (n.receiver c filter).1 = .ok box
  | _ => True

end Ensuring

namespace Stopping

def routes : Stopping → List Nat
  | joining routes => routes
  | _ => []

def filters : Stopping → List String
  | unsubscribing filters => filters
  | _ => []

def hasCancelled : Stopping → Bool
  | cancelling => false
  | _ => true

def hasTaken : Stopping → Bool
  | unsubscribing _ | done => true
  | _ => false

theorem hasCancelled_of_hasTaken {p : Stopping} (h : p.hasTaken = true) :
    p.hasCancelled = true := by
  cases p with
  | unsubscribing | done => rfl
  | _ => cases h

def call? : Stopping → Option SubscriptionCall
  | unsubscribing (filter :: _) => some (.unsubscribe filter)
  | _ => none

theorem call?_cases (p : Stopping) :
    p.call? = none ∨ ∃ filter, p.call? = some (.unsubscribe filter) ∧ p.hasTaken = true := by
  cases p with
  | unsubscribing filters =>
    cases filters with
    | nil => exact .inl rfl
    | cons filter more => exact .inr ⟨filter, rfl, rfl⟩
  | _ => exact .inl rfl

def Succeeds (c : Client) (n : Network) : Stopping → Prop
  | unsubscribing (filter :: _) =>
    ∃ code, (n.unsubscribe c filter).1 = .ok code ∧ code.isSuccess = true
  | _ => True

end Stopping

variable {r r' : Router} {c : Client} {n n' : Network} {filter : String}

/-- What becomes of a router in a step of making sure of a subscription. -/
inductive EnsureStep (r : Router) (filter : String) : Ensuring → Ensuring → Router → Prop
  | answered (result : Except ProtocolError Unit) : EnsureStep r filter .locking (.done result) r
  | locked (hl : r.isLocked = false) (hn : filter ∉ r.subscribed) (hc : r.isCancelled = false) :
    EnsureStep r filter .locking .subscribing { r with isLocked := true }
  | subscribed : EnsureStep r filter .subscribing .opening r
  | opened (box : Nat) :
    EnsureStep r filter .opening (.recording r.routes.length)
      { r with routes := r.routes ++ [{ box }] }
  | recorded (route : Nat) :
    EnsureStep r filter (.recording route) (.done (.ok ()))
      { r.unlock with untaken := r.untaken ++ [route], subscribed := r.subscribed ++ [filter] }

theorem ensureStep_of_stepEnsure? {p p' : Ensuring} {route : Option Nat}
    (h : r.stepEnsure? c filter n p = some (p', r', n', route)) (hok : p.Succeeds c filter n) :
    EnsureStep r filter p p' r' := by
  cases p with
  | locking =>
    unfold stepEnsure? at h
    dsimp only at h
    split at h
    · cases h
    next hl =>
      split at h
      · cases h
        exact .answered _
      next hn =>
        split at h <;> cases h
        · exact .answered _
        next hc => exact .locked (by simpa using hl) (by simpa using hn) (by simpa using hc)
  | subscribing =>
    obtain ⟨code, hcode, hs⟩ := hok
    rcases hr : n.subscribe c filter .atLeastOnce with ⟨result, net⟩
    rw [hr] at hcode
    obtain rfl : result = .ok code := hcode
    simp only [stepEnsure?, hr, hs, if_true] at h
    cases h
    exact .subscribed
  | opening =>
    obtain ⟨box, hbox⟩ := hok
    rcases hr : n.receiver c filter with ⟨result, net⟩
    rw [hr] at hbox
    obtain rfl : result = .ok box := hbox
    simp only [stepEnsure?, hr] at h
    cases h
    exact .opened box
  | recording route =>
    cases h
    exact .recorded route
  | done => cases h

theorem calls_of_stepEnsure? {p p' : Ensuring} {route : Option Nat}
    (h : r.stepEnsure? c filter n p = some (p', r', n', route)) :
    Calls c n (p.call? filter) n' := by
  cases p with
  | locking =>
    simp only [stepEnsure?] at h
    split_ifs at h <;> cases h <;> exact .untouched
  | subscribing =>
    have hn : n' = (n.subscribe c filter .atLeastOnce).2 := by
      simp only [stepEnsure?] at h
      split at h
      next hr =>
        cases h
        rw [hr]
      next hr =>
        split at h <;> cases h <;> rw [hr]
    exact hn ▸ .made (.subscribe filter)
  | opening =>
    have hn : n' = (n.receiver c filter).2 := by
      simp only [stepEnsure?] at h
      split at h <;> cases h <;> simp_all
    exact hn ▸ .opened filter
  | recording =>
    cases h
    exact .untouched
  | done => cases h

inductive StopStep (r : Router) : Stopping → Stopping → Router → Prop
  | cancelled : StopStep r .cancelling .takingRoutes r.cancel
  | tookRoutes : StopStep r .takingRoutes (.joining r.untaken) { r with untaken := [] }
  | joined {route : Nat} (more : List Nat) (h : r.isOver route = true) :
    StopStep r (.joining (route :: more)) (.joining more) r
  | joinedAll : StopStep r (.joining []) .takingFilters r
  | tookFilters (hl : r.isLocked = false) :
    StopStep r .takingFilters (.unsubscribing r.subscribed) { r with subscribed := [] }
  | unsubscribed (filter : String) (more : List String) :
    StopStep r (.unsubscribing (filter :: more)) (.unsubscribing more) r
  | finished : StopStep r (.unsubscribing []) .done r

theorem stopStep_of_stepStop? {p p' : Stopping} (h : r.stepStop? c n p = some (p', r', n')) :
    StopStep r p p' r' := by
  unfold stepStop? at h
  split at h
  · cases h
    exact .cancelled
  · cases h
    exact .tookRoutes
  · cases h
    exact .joinedAll
  · split at h <;> cases h
    next ho => exact .joined _ ho
  · split at h <;> cases h
    next hl => exact .tookFilters (by simpa using hl)
  · cases h
    exact .finished
  · cases h
    exact .unsubscribed _ _
  · cases h

theorem calls_of_stepStop? {p p' : Stopping} (h : r.stepStop? c n p = some (p', r', n')) :
    Calls c n p.call? n' := by
  unfold stepStop? at h
  split at h
  · cases h
    exact .untouched
  · cases h
    exact .untouched
  · cases h
    exact .untouched
  · split at h <;> cases h
    exact .untouched
  · split at h <;> cases h
    exact .untouched
  · cases h
    exact .untouched
  next filter more =>
    cases h
    exact .made (.unsubscribe filter)
  · cases h

/-- What a route may do: it takes the next delivery from its mailbox, or it ends, after the router
has been cancelled or the mailbox has been closed. If both are possible, either may come about. -/
inductive RouteStep (r : Router) (route : Nat) (n : Network) : Router → Network → Prop
  | delivered {state : Route} {d : Delivery} {taken : Network}
    (hs : r.routes[route]? = some state) (ho : state.isOver = false)
    (ht : n.take? state.box = some (d, taken)) :
    RouteStep r route n (r.deliver d.message) (taken.acknowledge d.ack)
  | ended {state : Route} (hs : r.routes[route]? = some state) (ho : state.isOver = false)
    (he : r.isCancelled = true ∨ n.take? state.box = none ∧ n.isClosed state.box = true) :
    RouteStep r route n (r.endRoute route) (n.dropReader state.box)

theorem routeStep_of_stepRoute? {route : Nat} (h : r.stepRoute? route n = some (r', n')) :
    RouteStep r route n r' n' := by
  unfold stepRoute? at h
  cases hs : r.routes[route]? with
  | none => simp [hs] at h
  | some state =>
    simp only [hs, Option.bind_eq_bind, Option.bind_some] at h
    split at h
    · cases h
    next ho =>
      rw [Bool.not_eq_true] at ho
      split at h
      next hc =>
        cases h
        exact .ended hs ho (.inl hc)
      next =>
        split at h
        next ht =>
          cases h
          exact .delivered hs ho ht
        next ht =>
          split at h <;> cases h
          next hclosed => exact .ended hs ho (.inr ⟨ht, hclosed⟩)

theorem not_routeStep_of_isOver {route : Nat} (h : r.isOver route = true) :
    ¬ RouteStep r route n r' n' := by
  intro hr
  cases hr with
  | delivered hs ho | ended hs ho =>
    rw [isOver, hs, Option.elim_some, ho] at h
    cases h

theorem exists_endRoute {route : Nat} (hc : r.isCancelled = true) (ho : r.isOver route = false)
    (n : Network) : ∃ n', RouteStep r route n (r.endRoute route) n' := by
  rw [isOver] at ho
  cases hs : r.routes[route]? with
  | none => simp [hs] at ho
  | some state =>
    rw [hs, Option.elim_some] at ho
    exact ⟨_, .ended hs ho (.inl hc)⟩

/-- Nothing that matters to subscriptions is different, except that routes may have ended. -/
structure SameSubscriptions (r r' : Router) : Prop where
  isLocked_eq : r'.isLocked = r.isLocked
  isCancelled_eq : r'.isCancelled = r.isCancelled
  subscribed_eq : r'.subscribed = r.subscribed
  untaken_eq : r'.untaken = r.untaken
  length_eq : r'.routes.length = r.routes.length
  isOver : ∀ {route : Nat}, r.isOver route = true → r'.isOver route = true

theorem sameSubscriptions_pending (r : Router) (pending : List (Bytes × Awaiting)) :
    SameSubscriptions r { r with pending } :=
  ⟨rfl, rfl, rfl, rfl, rfl, id⟩

theorem sameSubscriptions_deliver (r : Router) (m : Message) :
    SameSubscriptions r (r.deliver m) := by
  unfold deliver
  split
  · exact sameSubscriptions_pending r _
  split
  · exact sameSubscriptions_pending r _
  · exact sameSubscriptions_pending r _

theorem isOver_endRoute {route k : Nat} (h : r.isOver k = true) :
    (r.endRoute route).isOver k = true := by
  rw [isOver] at h ⊢
  rw [endRoute, List.getElem?_modify]
  cases hk : r.routes[k]? with
  | none => rfl
  | some state =>
    rw [hk] at h
    by_cases hroute : route = k
    · simp [hroute]
    · simpa [hroute] using h

theorem sameSubscriptions_routeStep {route : Nat} (h : RouteStep r route n r' n') :
    SameSubscriptions r r' := by
  cases h with
  | @delivered _ d => exact sameSubscriptions_deliver r d.message
  | ended => exact ⟨rfl, rfl, rfl, rfl, List.length_modify .., isOver_endRoute⟩

/-- A router, the calls that are under way or have returned, and what was called of the transport,
the oldest call first. -/
structure Lifecycle where
  router : Router := {}
  network : Network
  ensures : List (String × Ensuring) := []
  stops : List Stopping := []
  calls : List SubscriptionCall := []

namespace Lifecycle

variable {s s' : Lifecycle}

/-- What may happen next: a call is made or goes on, a route does, or something else goes on with
those who wait for responses and on the network. The transport does what it is asked. -/
inductive Step (c : Client) (s : Lifecycle) : Lifecycle → Prop
  | callEnsure (filter : String) : Step c s { s with ensures := (filter, .locking) :: s.ensures }
  | callStop : Step c s { s with stops := .cancelling :: s.stops }
  | ensure {before after : List (String × Ensuring)} {filter : String} {p p' : Ensuring}
    {router : Router} {network : Network} {route : Option Nat}
    (hs : s.ensures = before ++ (filter, p) :: after)
    (h : s.router.stepEnsure? c filter s.network p = some (p', router, network, route))
    (hok : p.Succeeds c filter s.network) :
    Step c s { s with
      router, network
      ensures := before ++ (filter, p') :: after
      calls := s.calls ++ (p.call? filter).toList }
  | stop {before after : List Stopping} {p p' : Stopping} {router : Router} {network : Network}
    (hs : s.stops = before ++ p :: after)
    (h : s.router.stepStop? c s.network p = some (p', router, network))
    (hok : p.Succeeds c s.network) :
    Step c s { s with
      router, network
      stops := before ++ p' :: after
      calls := s.calls ++ p.call?.toList }
  | route {route : Nat} {router : Router} {network : Network}
    (h : RouteStep s.router route s.network router network) :
    Step c s { s with router, network }
  | elsewhere (pending : List (Bytes × Awaiting)) (network : Network) :
    Step c s { s with router := { s.router with pending }, network }

def Run (c : Client) : Lifecycle → Lifecycle → Prop :=
  Relation.ReflTransGen (Step c)

structure IsFresh (s : Lifecycle) : Prop where
  router_eq : s.router = {}
  ensures_eq : s.ensures = []
  stops_eq : s.stops = []
  calls_eq : s.calls = []

def IsAtRest (s : Lifecycle) : Prop :=
  (∀ e ∈ s.ensures, ∃ result, e.2 = .done result) ∧ ∀ p ∈ s.stops, p = .done

def IsClosed (s : Lifecycle) : Prop :=
  ∃ p ∈ s.stops, p.hasTaken = true

def callsOn (s : Lifecycle) (filter : String) : List SubscriptionCall :=
  s.calls.filter (·.filter == filter)

/-- How often somebody is answerable for a subscription: the router, a call that has not recorded it
yet, or a shutdown that has not undone it yet. -/
def held (s : Lifecycle) (filter : String) : Nat :=
  s.router.subscribed.count filter +
    s.ensures.countP (fun e => e.1 == filter && e.2.hasSubscribed) +
    (s.stops.flatMap Stopping.filters).count filter

/-- Subscribing makes someone answerable, and only undoing it ends that. -/
inductive Account (s : Lifecycle) (filter : String) : Prop
  | untouched (hh : s.held filter = 0) (hc : s.callsOn filter = [])
  | open (hh : s.held filter = 1) (hc : s.callsOn filter = [.subscribe filter])
  | undone (hs : s.IsClosed) (hh : s.held filter = 0)
    (hc : s.callsOn filter = [.subscribe filter, .unsubscribe filter])

/-- A route has ended, or somebody knows of it: the router, the call that has started it, or a
shutdown that waits for its end. -/
def IsKnown (s : Lifecycle) (route : Nat) : Prop :=
  s.router.isOver route = true ∨ route ∈ s.router.untaken ∨
    (∃ e ∈ s.ensures, e.2 = .recording route) ∨ ∃ p ∈ s.stops, route ∈ p.routes

structure Sound (s : Lifecycle) : Prop where
  holders : s.ensures.countP (·.2.holdsLock) = if s.router.isLocked then 1 else 0
  absent : ∀ filter, (filter, .subscribing) ∈ s.ensures → filter ∉ s.router.subscribed
  cancelled : ∀ p ∈ s.stops, p.hasCancelled = true → s.router.isCancelled = true
  closed : s.IsClosed → s.router.isLocked = false ∧ s.router.subscribed = []
  account : ∀ filter, s.Account filter
  known : ∀ route < s.router.routes.length, s.IsKnown route

theorem IsFresh.sound (h : s.IsFresh) : s.Sound := by
  obtain ⟨router, network, ensures, stops, calls⟩ := s
  obtain ⟨rfl, rfl, rfl, rfl⟩ := h
  refine ⟨rfl, nofun, nofun, nofun, fun _ => .untouched rfl rfl, nofun⟩

theorem Account.congr {filter : String} (h : s.Account filter) (hh : s'.held filter = s.held filter)
    (hc : s'.callsOn filter = s.callsOn filter) (hs : s.IsClosed → s'.IsClosed) :
    s'.Account filter := by
  cases h with
  | untouched hheld hon => exact .untouched (hh.trans hheld) (hc.trans hon)
  | «open» hheld hon => exact .open (hh.trans hheld) (hc.trans hon)
  | undone hclosed hheld hon => exact .undone (hs hclosed) (hh.trans hheld) (hc.trans hon)

theorem Sound.congr (h : s.Sound) {router : Router} (hr : SameSubscriptions s.router router)
    (network : Network) : Sound { s with router, network } := by
  constructor
  case holders =>
    rw [hr.isLocked_eq]
    exact h.holders
  case absent =>
    rw [hr.subscribed_eq]
    exact h.absent
  case cancelled =>
    rw [hr.isCancelled_eq]
    exact h.cancelled
  case closed =>
    rw [hr.isLocked_eq, hr.subscribed_eq]
    exact h.closed
  case account =>
    intro filter
    refine (h.account filter).congr ?_ rfl id
    simp only [held, hr.subscribed_eq]
  case known =>
    intro route hlt
    rw [hr.length_eq] at hlt
    obtain hover | huntaken | hcall := h.known route hlt
    · exact .inl (hr.isOver hover)
    · exact .inr (.inl (hr.untaken_eq ▸ huntaken))
    · exact .inr (.inr hcall)

theorem Sound.callEnsure (h : s.Sound) (filter : String) :
    Sound { s with ensures := (filter, .locking) :: s.ensures } := by
  constructor
  case holders =>
    rw [List.countP_cons]
    exact h.holders
  case absent =>
    intro f hf
    obtain hf | hf := List.mem_cons.mp hf
    · cases hf
    · exact h.absent f hf
  case cancelled => exact h.cancelled
  case closed => exact h.closed
  case account =>
    intro f
    refine (h.account f).congr ?_ rfl id
    simp [held, Ensuring.hasSubscribed]
  case known =>
    intro route hlt
    obtain hover | huntaken | ⟨e, he, hrecording⟩ | hstop := h.known route hlt
    · exact .inl hover
    · exact .inr (.inl huntaken)
    · exact .inr (.inr (.inl ⟨e, List.mem_cons_of_mem _ he, hrecording⟩))
    · exact .inr (.inr (.inr hstop))

theorem Sound.callStop (h : s.Sound) : Sound { s with stops := .cancelling :: s.stops } := by
  have hclosed : IsClosed { s with stops := .cancelling :: s.stops } → s.IsClosed := by
    rintro ⟨p, hp, ht⟩
    obtain rfl | hp := List.mem_cons.mp hp
    · cases ht
    · exact ⟨p, hp, ht⟩
  constructor
  case holders => exact h.holders
  case absent => exact h.absent
  case cancelled =>
    intro p hp hc
    obtain rfl | hp := List.mem_cons.mp hp
    · cases hc
    · exact h.cancelled p hp hc
  case closed => exact fun hc => h.closed (hclosed hc)
  case account =>
    intro f
    refine (h.account f).congr ?_ rfl ?_
    · simp [held, Stopping.filters]
    · rintro ⟨p, hp, ht⟩
      exact ⟨p, List.mem_cons_of_mem _ hp, ht⟩
  case known =>
    intro route hlt
    obtain hover | huntaken | hrecording | ⟨p, hp, hroute⟩ := h.known route hlt
    · exact .inl hover
    · exact .inr (.inl huntaken)
    · exact .inr (.inr (.inl hrecording))
    · exact .inr (.inr (.inr ⟨p, List.mem_cons_of_mem _ hp, hroute⟩))

theorem mem_replace {α : Type} {before after : List α} {a b x : α}
    (h : x ∈ before ++ b :: after) : x = b ∨ x ∈ before ++ a :: after := by
  simp only [List.mem_append, List.mem_cons] at h ⊢
  tauto

theorem Sound.not_holdsLock (h : s.Sound) {before after : List (String × Ensuring)}
    {filter : String} {p : Ensuring} (hs : s.ensures = before ++ (filter, p) :: after)
    (hp : p.holdsLock = true) {e : String × Ensuring} (he : e ∈ before ++ after) :
    e.2.holdsLock = false := by
  have hone : s.ensures.countP (·.2.holdsLock) ≤ 1 := by
    rw [h.holders]
    split <;> simp
  rw [hs, List.countP_append, List.countP_cons, if_pos hp] at hone
  have hnone : (before ++ after).countP (·.2.holdsLock) = 0 := by
    rw [List.countP_append]
    omega
  simpa using List.countP_eq_zero.mp hnone e he

theorem Sound.isLocked (h : s.Sound) {e : String × Ensuring} (he : e ∈ s.ensures)
    (hp : e.2.holdsLock = true) : s.router.isLocked = true := by
  have hpos : 0 < s.ensures.countP (·.2.holdsLock) := List.countP_pos_iff.mpr ⟨e, he, hp⟩
  rw [h.holders] at hpos
  by_contra hl
  rw [if_neg hl] at hpos
  exact lt_irrefl 0 hpos

theorem Sound.not_isClosed (h : s.Sound) {e : String × Ensuring} (he : e ∈ s.ensures)
    (hp : e.2.holdsLock = true) : ¬s.IsClosed := fun hc =>
  absurd ((h.closed hc).1.symm.trans (h.isLocked he hp)) (by simp)

theorem Sound.callsOn_eq_nil (h : s.Sound) {before after : List (String × Ensuring)}
    {filter : String} (hs : s.ensures = before ++ (filter, .subscribing) :: after) :
    s.held filter = 0 ∧ s.callsOn filter = [] := by
  have hmem : (filter, .subscribing) ∈ s.ensures := by simp [hs]
  have hopen := h.not_isClosed hmem rfl
  have hstops : s.stops.flatMap Stopping.filters = [] := by
    refine List.flatMap_eq_nil_iff.mpr fun p hp => ?_
    cases p with
    | unsubscribing filters => exact absurd ⟨_, hp, rfl⟩ hopen
    | _ => rfl
  have hnone : ∀ e ∈ before ++ after, e.2.hasSubscribed = false := by
    intro e he
    have hidle := h.not_holdsLock hs rfl he
    cases he2 : e.2 <;> simp_all [Ensuring.holdsLock, Ensuring.hasSubscribed]
  have hheld : s.held filter = 0 := by
    have hcount : s.ensures.countP (fun e => e.1 == filter && e.2.hasSubscribed) = 0 := by
      refine List.countP_eq_zero.mpr fun e he => ?_
      rw [hs, List.mem_append, List.mem_cons] at he
      obtain he | rfl | he := he
      · simp [hnone e (List.mem_append_left _ he)]
      · simp [Ensuring.hasSubscribed]
      · simp [hnone e (List.mem_append_right _ he)]
    rw [held, hcount, hstops, List.count_eq_zero.mpr (h.absent filter hmem)]
    rfl
  refine ⟨hheld, ?_⟩
  cases h.account filter with
  | untouched _ hc => exact hc
  | «open» hh => omega
  | undone hc => exact absurd hc hopen

/-- The lifecycle after a call that makes sure of a filter has taken a step. -/
def ensured (s : Lifecycle) (before after : List (String × Ensuring)) (filter : String)
    (p p' : Ensuring) (router : Router) (network : Network) : Lifecycle :=
  { s with
    router, network
    ensures := before ++ (filter, p') :: after
    calls := s.calls ++ (p.call? filter).toList }

section Ensure

variable {before after : List (String × Ensuring)} {filter : String} {p p' : Ensuring}
  {router : Router}

theorem held_ensured (hs : s.ensures = before ++ (filter, p) :: after)
    (he : EnsureStep s.router filter p p' router) (network : Network) (f : String) :
    (s.ensured before after filter p p' router network).held f =
      s.held f + (p.call? filter).toList.count (.subscribe f) := by
  simp only [held, ensured, hs, List.countP_append, List.countP_cons]
  cases he with
  | answered | locked | opened => simp [Ensuring.hasSubscribed, Ensuring.call?]
  | subscribed =>
    by_cases hf : f = filter
    · simp [Ensuring.hasSubscribed, Ensuring.call?, hf]
      omega
    · simp [Ensuring.hasSubscribed, Ensuring.call?, Ne.symm hf]
  | recorded =>
    by_cases hf : f = filter
    · simp [Ensuring.hasSubscribed, Ensuring.call?, hf]
      omega
    · simp [Ensuring.hasSubscribed, Ensuring.call?, Ne.symm hf]

theorem Sound.account_ensured (h : s.Sound) (hs : s.ensures = before ++ (filter, p) :: after)
    (he : EnsureStep s.router filter p p' router) (network : Network) (f : String) :
    (s.ensured before after filter p p' router network).Account f := by
  have hheld := held_ensured hs he network f
  have hcalls : (s.ensured before after filter p p' router network).callsOn f =
      s.callsOn f ++ (p.call? filter).toList.filter (·.filter == f) := List.filter_append ..
  by_cases hcall : p.call? filter = some (.subscribe f)
  · obtain ⟨rfl, rfl⟩ : p = .subscribing ∧ filter = f := by
      cases p <;> simp_all [Ensuring.call?]
    obtain ⟨hnone, hon⟩ := h.callsOn_eq_nil hs
    rw [hcall, hnone] at hheld
    rw [hcall, hon] at hcalls
    exact .open (by simpa using hheld) (by simpa [SubscriptionCall.filter] using hcalls)
  · have hother : (p.call? filter).toList.filter (·.filter == f) = [] ∧
        (p.call? filter).toList.count (.subscribe f) = 0 := by
      cases p <;> simp_all [Ensuring.call?, SubscriptionCall.filter]
    rw [hother.2] at hheld
    rw [hother.1, List.append_nil] at hcalls
    exact (h.account f).congr hheld hcalls id

theorem Sound.holders_ensured (h : s.Sound) (hs : s.ensures = before ++ (filter, p) :: after)
    (he : EnsureStep s.router filter p p' router) :
    (before ++ (filter, p') :: after).countP (·.2.holdsLock) =
      if router.isLocked then 1 else 0 := by
  have hstep : (if p'.holdsLock then 1 else 0) + (if s.router.isLocked then 1 else 0) =
      (if p.holdsLock then 1 else 0) + (if router.isLocked then 1 else 0) := by
    cases he with
    | answered | subscribed | opened => rfl
    | locked hl => simp [hl, Ensuring.holdsLock]
    | recorded =>
      have hl : s.router.isLocked = true := h.isLocked (hs ▸ List.mem_append_right _ (.head _)) rfl
      simp [hl, Ensuring.holdsLock, unlock]
  have hholders := h.holders
  rw [hs] at hholders
  simp only [List.countP_append, List.countP_cons] at hholders ⊢
  omega

theorem Sound.known_ensured (h : s.Sound) (hs : s.ensures = before ++ (filter, p) :: after)
    (he : EnsureStep s.router filter p p' router) (network : Network) (route : Nat)
    (hlt : route < router.routes.length) :
    (s.ensured before after filter p p' router network).IsKnown route := by
  -- whoever else was recording a route still is
  have hother : ∀ e ∈ s.ensures, e.2 = .recording route → p ≠ .recording route →
      ∃ e ∈ before ++ (filter, p') :: after, e.2 = .recording route := by
    intro e he hrecording hp
    rw [hs] at he
    obtain rfl | he := mem_replace (b := (filter, p)) he
    · exact absurd hrecording hp
    · exact ⟨e, he, hrecording⟩
  cases he with
  | answered | locked | subscribed =>
    obtain hover | huntaken | ⟨e, he, hrecording⟩ | hstop := h.known route hlt
    · exact .inl hover
    · exact .inr (.inl huntaken)
    · exact .inr (.inr (.inl (hother e he hrecording nofun)))
    · exact .inr (.inr (.inr hstop))
  | opened box =>
    rw [List.length_append, List.length_singleton, Nat.lt_succ_iff_lt_or_eq] at hlt
    obtain hlt | rfl := hlt
    · obtain hover | huntaken | ⟨e, he, hrecording⟩ | hstop := h.known route hlt
      · refine .inl ?_
        simpa [isOver, ensured, List.getElem?_append_left hlt] using hover
      · exact .inr (.inl huntaken)
      · exact .inr (.inr (.inl (hother e he hrecording nofun)))
      · exact .inr (.inr (.inr hstop))
    · exact .inr (.inr (.inl ⟨_, List.mem_append_right _ (.head _), rfl⟩))
  | recorded route' =>
    obtain hover | huntaken | ⟨e, he, hrecording⟩ | hstop := h.known route hlt
    · exact .inl hover
    · exact .inr (.inl (List.mem_append_left _ huntaken))
    · by_cases hroute : route = route'
      · exact .inr (.inl (List.mem_append_right _ (List.mem_singleton.mpr hroute)))
      · refine .inr (.inr (.inl (hother e he hrecording fun heq => hroute ?_)))
        cases heq
        rfl
    · exact .inr (.inr (.inr hstop))

theorem Sound.ensured (h : s.Sound) (hs : s.ensures = before ++ (filter, p) :: after)
    (he : EnsureStep s.router filter p p' router) (network : Network) :
    (s.ensured before after filter p p' router network).Sound := by
  have hmem : (filter, p) ∈ s.ensures := by simp [hs]
  constructor
  case holders => exact h.holders_ensured hs he
  case absent =>
    intro f hf
    obtain heq | hf' := mem_replace (a := (filter, p)) hf
    · cases he with
      | locked _ hn =>
        cases heq
        exact hn
      | _ => cases heq
    · rw [← hs] at hf'
      cases he with
      | recorded =>
        -- the lock was held for the entry, so nobody else is about to subscribe
        have hf'' : (f, .subscribing) ∈ before ++ after := by simpa [ensured] using hf
        exact absurd (h.not_holdsLock hs rfl hf'') (by simp [Ensuring.holdsLock])
      | _ => exact h.absent f hf'
  case cancelled =>
    cases he <;> exact h.cancelled
  case closed =>
    intro hc
    cases he with
    | answered | opened | subscribed => exact h.closed hc
    | locked _ _ hn =>
      obtain ⟨q, hq, ht⟩ := hc
      have hcancelled := h.cancelled q hq (Stopping.hasCancelled_of_hasTaken ht)
      rw [hn] at hcancelled
      cases hcancelled
    | recorded => exact absurd hc (h.not_isClosed hmem rfl)
  case account => exact h.account_ensured hs he network
  case known => exact h.known_ensured hs he network

end Ensure

def stopped (s : Lifecycle) (before after : List Stopping) (p p' : Stopping) (router : Router)
    (network : Network) : Lifecycle :=
  { s with router, network, stops := before ++ p' :: after, calls := s.calls ++ p.call?.toList }

section Stop

variable {before after : List Stopping} {p p' : Stopping} {router : Router}

theorem held_stopped (hs : s.stops = before ++ p :: after) (hp : StopStep s.router p p' router)
    (network : Network) (f : String) :
    (s.stopped before after p p' router network).held f + p.call?.toList.count (.unsubscribe f) =
      s.held f := by
  simp only [held, stopped, hs, List.flatMap_append, List.flatMap_cons, List.count_append]
  cases hp with
  | unsubscribed filter more =>
    by_cases hf : f = filter
    · simp [Stopping.filters, Stopping.call?, hf]
      omega
    · simp [Stopping.filters, Stopping.call?, Ne.symm hf]
  | tookFilters =>
    simp [Stopping.filters, Stopping.call?]
    omega
  | _ => simp [Stopping.filters, Stopping.call?, cancel]

theorem hasTaken_of_stopStep (hp : StopStep s.router p p' router) (ht : p.hasTaken = true) :
    p'.hasTaken = true := by
  cases hp with
  | unsubscribed | finished => rfl
  | _ => cases ht

theorem isClosed_stopped (hs : s.stops = before ++ p :: after) (hp : StopStep s.router p p' router)
    (network : Network) (hc : s.IsClosed) :
    (s.stopped before after p p' router network).IsClosed := by
  obtain ⟨q, hq, ht⟩ := hc
  rw [hs] at hq
  obtain rfl | hq := mem_replace (a := p') hq
  · exact ⟨p', List.mem_append_right _ (.head _), hasTaken_of_stopStep hp ht⟩
  · exact ⟨q, hq, ht⟩

theorem Sound.account_stopped (h : s.Sound) (hs : s.stops = before ++ p :: after)
    (hp : StopStep s.router p p' router) (network : Network) (f : String) :
    (s.stopped before after p p' router network).Account f := by
  have hheld := held_stopped hs hp network f
  have hcalls : (s.stopped before after p p' router network).callsOn f =
      s.callsOn f ++ p.call?.toList.filter (·.filter == f) := List.filter_append ..
  have hclosed := isClosed_stopped hs hp network
  obtain hnone | ⟨filter, hcall, ht⟩ := p.call?_cases
  · rw [hnone] at hheld hcalls
    exact (h.account f).congr hheld (hcalls.trans (List.append_nil _)) hclosed
  rw [hcall] at hheld hcalls
  by_cases hf : filter = f
  · subst hf
    simp only [Option.toList_some, List.count_singleton_self] at hheld
    cases h.account filter with
    | untouched hh | undone _ hh => omega
    | «open» hh hc =>
      refine .undone (hclosed ⟨p, by simp [hs], ht⟩) (by omega) ?_
      rw [hcalls, hc]
      simp [SubscriptionCall.filter]
  · refine (h.account f).congr ?_ ?_ hclosed
    · simpa [hf] using hheld
    · simpa [SubscriptionCall.filter, hf] using hcalls

theorem Sound.known_stopped (h : s.Sound) (hs : s.stops = before ++ p :: after)
    (hp : StopStep s.router p p' router) (network : Network) (route : Nat)
    (hlt : route < router.routes.length) :
    (s.stopped before after p p' router network).IsKnown route := by
  have hstop : (∃ q ∈ s.stops, route ∈ q.routes) →
      route ∈ p.routes ∨ ∃ q ∈ before ++ p' :: after, route ∈ q.routes := by
    rintro ⟨q, hq, hroute⟩
    rw [hs] at hq
    obtain rfl | hq := mem_replace (a := p') hq
    · exact .inl hroute
    · exact .inr ⟨q, hq, hroute⟩
  have hnew : p' ∈ before ++ p' :: after := by simp
  cases hp with
  | tookRoutes =>
    obtain hover | huntaken | hrecording | hq := h.known route hlt
    · exact .inl hover
    · exact .inr (.inr (.inr ⟨_, hnew, huntaken⟩))
    · exact .inr (.inr (.inl hrecording))
    · exact .inr (.inr (.inr ((hstop hq).resolve_left List.not_mem_nil)))
  | joined more ho =>
    obtain hover | huntaken | hrecording | hq := h.known route hlt
    · exact .inl hover
    · exact .inr (.inl huntaken)
    · exact .inr (.inr (.inl hrecording))
    · obtain hroute | hq := hstop hq
      · obtain rfl | hroute := List.mem_cons.mp hroute
        · exact .inl ho
        · exact .inr (.inr (.inr ⟨_, hnew, hroute⟩))
      · exact .inr (.inr (.inr hq))
  | _ =>
    obtain hover | huntaken | hrecording | hq := h.known route hlt
    · exact .inl hover
    · exact .inr (.inl huntaken)
    · exact .inr (.inr (.inl hrecording))
    · exact .inr (.inr (.inr ((hstop hq).resolve_left List.not_mem_nil)))

theorem Sound.stopped (h : s.Sound) (hs : s.stops = before ++ p :: after)
    (hp : StopStep s.router p p' router) (network : Network) :
    (s.stopped before after p p' router network).Sound := by
  have hmem : p ∈ s.stops := by simp [hs]
  have hstops {q : Stopping} (hq : q ∈ before ++ p' :: after) : q = p' ∨ q ∈ s.stops :=
    hs ▸ mem_replace hq
  constructor
  case holders =>
    cases hp <;> exact h.holders
  case absent =>
    intro f hf
    cases hp with
    | tookFilters => exact List.not_mem_nil
    | _ => exact h.absent f hf
  case cancelled =>
    intro q hq hc
    cases hp with
    | cancelled => rfl
    | _ =>
      obtain - | hq' := hstops hq
      · exact h.cancelled _ hmem rfl
      · exact h.cancelled q hq' hc
  case closed =>
    rintro ⟨q, hq, ht⟩
    cases hp with
    | tookFilters hl => exact ⟨hl, rfl⟩
    | unsubscribed | finished => exact h.closed ⟨_, hmem, rfl⟩
    | _ =>
      obtain rfl | hq' := hstops hq
      · cases ht
      · exact h.closed ⟨q, hq', ht⟩
  case account => exact h.account_stopped hs hp network
  case known => exact h.known_stopped hs hp network

end Stop

theorem Sound.step (h : s.Sound) (hs : s.Step c s') : s'.Sound := by
  cases hs with
  | callEnsure filter => exact h.callEnsure filter
  | callStop => exact h.callStop
  | ensure hs he hok => exact h.ensured hs (ensureStep_of_stepEnsure? he hok) _
  | stop hs hp => exact h.stopped hs (stopStep_of_stepStop? hp) _
  | route hr => exact h.congr (sameSubscriptions_routeStep hr) _
  | elsewhere pending => exact h.congr (sameSubscriptions_pending s.router pending) _

theorem Sound.run (h : s.Sound) (hr : Run c s s') : s'.Sound := by
  induction hr with
  | refl => exact h
  | tail _ hs ih => exact ih.step hs

theorem Account.isPrefix {filter : String} (h : s.Account filter) :
    s.callsOn filter <+: [.subscribe filter, .unsubscribe filter] := by
  cases h with
  | untouched _ hc => exact hc ▸ List.nil_prefix
  | «open» _ hc => exact hc ▸ ⟨[.unsubscribe filter], rfl⟩
  | undone _ _ hc => exact hc ▸ List.prefix_rfl

theorem Sound.isCancelled (h : s.Sound) (hc : s.IsClosed) : s.router.isCancelled = true := by
  obtain ⟨p, hp, ht⟩ := hc
  exact h.cancelled p hp (Stopping.hasCancelled_of_hasTaken ht)

theorem Sound.callsOn_cases (h : s.Sound) (hc : s.IsClosed) (hrest : s.IsAtRest)
    (filter : String) :
    s.callsOn filter = [] ∨ s.callsOn filter = [.subscribe filter, .unsubscribe filter] := by
  have hheld : s.held filter = 0 := by
    have hensures : s.ensures.countP (fun e => e.1 == filter && e.2.hasSubscribed) = 0 := by
      refine List.countP_eq_zero.mpr fun e he => ?_
      obtain ⟨result, hdone⟩ := hrest.1 e he
      simp [hdone, Ensuring.hasSubscribed]
    have hstops : s.stops.flatMap Stopping.filters = [] := by
      refine List.flatMap_eq_nil_iff.mpr fun p hp => ?_
      rw [hrest.2 p hp]
      rfl
    rw [held, hensures, hstops, (h.closed hc).2]
    rfl
  cases h.account filter with
  | untouched _ hon => exact .inl hon
  | «open» hh => omega
  | undone _ _ hon => exact .inr hon

theorem Sound.isOver_or_untaken (h : s.Sound) (hrest : s.IsAtRest) {route : Nat}
    (hlt : route < s.router.routes.length) :
    s.router.isOver route = true ∨ route ∈ s.router.untaken := by
  obtain hover | huntaken | ⟨e, he, hrecording⟩ | ⟨p, hp, hroute⟩ := h.known route hlt
  · exact .inl hover
  · exact .inr huntaken
  · obtain ⟨result, hdone⟩ := hrest.1 e he
    rw [hdone] at hrecording
    cases hrecording
  · rw [hrest.2 p hp] at hroute
    cases hroute

theorem Sound.stepEnsure?_eq (h : s.Sound) (hc : s.IsClosed) (c : Client) (filter : String)
    (n : Network) : s.router.stepEnsure? c filter n .locking = some
      (.done (.error (ProtocolError.cancellation.withText shutDownText)), s.router, n, none) := by
  obtain ⟨hl, hs⟩ := h.closed hc
  simp [stepEnsure?, hl, hs, h.isCancelled hc]

theorem cancellation_of_receives {state next : InvokerState} {id : Bytes} {isCancelled : Bool}
    {result : Except ProtocolError Message} (hn : state.router.take? id = none)
    (h : state.Receives id isCancelled result next) :
    next = state ∧ ∃ e, result = .error e ∧ e.kind = .cancellation := by
  cases h with
  | response ht =>
    rw [hn] at ht
    cases ht
  | shutDown | cancelled => exact ⟨rfl, _, rfl, rfl⟩

/-- The router has been cancelled with no route left over, and with no call between its look at the
subscriptions and its entry in them. -/
structure IsSwept (s : Lifecycle) : Prop where
  isCancelled : s.router.isCancelled = true
  untaken_eq : s.router.untaken = []
  idle : ∀ e ∈ s.ensures, e.2.holdsLock = false

theorem IsSwept.step (h : s.IsSwept) (hs : s.Step c s') : s'.IsSwept := by
  cases hs with
  | callEnsure filter =>
    refine ⟨h.isCancelled, h.untaken_eq, fun e he => ?_⟩
    obtain rfl | he := List.mem_cons.mp he
    · rfl
    · exact h.idle e he
  | callStop => exact ⟨h.isCancelled, h.untaken_eq, h.idle⟩
  | @ensure before after filter p p' _ _ _ hs he hok =>
    have hidle : p.holdsLock = false := h.idle (filter, p) (by simp [hs])
    -- only a call that need not subscribe, or may not, can go on
    cases ensureStep_of_stepEnsure? he hok with
    | answered result =>
      refine ⟨h.isCancelled, h.untaken_eq, fun e he => ?_⟩
      obtain rfl | he := mem_replace (a := (filter, .locking)) he
      · rfl
      · exact h.idle e (hs ▸ he)
    | locked _ _ hc =>
      rw [h.isCancelled] at hc
      cases hc
    | subscribed | opened | recorded => cases hidle
  | stop _ hp =>
    cases stopStep_of_stepStop? hp with
    | cancelled => exact ⟨rfl, h.untaken_eq, h.idle⟩
    | tookRoutes => exact ⟨h.isCancelled, rfl, h.idle⟩
    | _ => exact ⟨h.isCancelled, h.untaken_eq, h.idle⟩
  | route hr =>
    have hsame := sameSubscriptions_routeStep hr
    exact ⟨hsame.isCancelled_eq ▸ h.isCancelled, hsame.untaken_eq ▸ h.untaken_eq, h.idle⟩
  | elsewhere => exact ⟨h.isCancelled, h.untaken_eq, h.idle⟩

theorem IsSwept.run (h : s.IsSwept) (hr : Run c s s') : s'.IsSwept := by
  induction hr with
  | refl => exact h
  | tail _ hs ih => exact ih.step hs

/-- However calls that subscribe and shut down interleave: the calls told are those that the steps
make on the network, and a filter is subscribed to at most once. Once a shutdown has returned, later
calls do not get to the transport, and whoever finds no response is told of the end; and once all
calls have returned, what was subscribed to has been unsubscribed from, and routes do nothing any
more, except for those of calls that a shutdown has overtaken. Such a route can end at any time, but
may take what waits in its mailbox first. -/
theorem shutdown_leaves_no_subscription {start : Lifecycle} (hstart : start.IsFresh)
    (hrun : Run c start s) :
    (∀ filter n p p' router network route,
      s.router.stepEnsure? c filter n p = some (p', router, network, route) →
        Calls c n (p.call? filter) network) ∧
    (∀ n p p' router network, s.router.stepStop? c n p = some (p', router, network) →
      Calls c n p.call? network) ∧
    (∀ route n router network, s.router.stepRoute? route n = some (router, network) →
      RouteStep s.router route n router network) ∧
    (∀ filter, s.callsOn filter <+: [.subscribe filter, .unsubscribe filter]) ∧
    (.done ∈ s.stops →
      (s.IsAtRest → ∀ filter, s.callsOn filter = [] ∨
        s.callsOn filter = [.subscribe filter, .unsubscribe filter]) ∧
      (s.IsAtRest → ∀ route < s.router.routes.length,
        (∀ n router network, ¬ RouteStep s.router route n router network) ∨
          route ∈ s.router.untaken ∧
            ∀ n, ∃ network, RouteStep s.router route n (s.router.endRoute route) network) ∧
      (∀ s₁, Run c s₁ s → s₁.IsSwept → s.router.untaken = []) ∧
      (∀ filter n, s.router.stepEnsure? c filter n .locking =
        some (.done (.error (ProtocolError.cancellation.withText shutDownText)), s.router, n,
          none)) ∧
      ∀ (state : InvokerState) id isCancelled, state.router = s.router →
        s.router.take? id = none →
          (state.receive? id isCancelled).isSome = true ∧
          ∀ result next, state.Receives id isCancelled result next →
            next = state ∧ ∃ e, result = .error e ∧ e.kind = .cancellation) := by
  have h := hstart.sound.run hrun
  refine ⟨fun filter n p p' router network route => calls_of_stepEnsure?,
    fun n p p' router network => calls_of_stepStop?,
    fun route n router network => routeStep_of_stepRoute?,
    fun filter => (h.account filter).isPrefix, fun hdone => ?_⟩
  have hclosed : s.IsClosed := ⟨_, hdone, rfl⟩
  have hcancelled := h.isCancelled hclosed
  refine ⟨fun hrest => h.callsOn_cases hclosed hrest, fun hrest route hlt => ?_,
    fun s₁ hr hswept => (hswept.run hr).untaken_eq, fun filter n => h.stepEnsure?_eq hclosed c filter n,
    ?_⟩
  · cases hover : s.router.isOver route with
    | true => exact .inl fun n router network => not_routeStep_of_isOver hover
    | false =>
      refine .inr ⟨?_, fun n => exists_endRoute hcancelled hover n⟩
      exact (h.isOver_or_untaken hrest hlt).resolve_left (by simp [hover])
  · rintro state id isCancelled hrouter hnone
    rw [← hrouter] at hcancelled hnone
    refine ⟨?_, fun result next => cancellation_of_receives hnone⟩
    rw [← Option.ne_none_iff_isSome, ne_eq, InvokerState.receive?_eq_none_iff]
    simp [hcancelled]

def response : Message where
  topic := "r"
  correlationData := some (.replicate 16 7)

def alone : Lifecycle where
  network := (Network.connect {} "invoker").2

/-- Its network once a mailbox for responses has been opened, and one has come. -/
def answered : Network :=
  let opened := ((alone.network.subscribe (.plain 0) "r" .atLeastOnce).2.receiver (.plain 0) "r").2
  (opened.publish (.plain 0) response).2

/-- A shutdown has overtaken a call that was about to subscribe: it has waited for the call, undone
its subscription, and left its route. A response has come in the meantime. -/
def overtaken : Lifecycle where
  router := {
    pending := [(.replicate 16 7, { topic := "r" })]
    isCancelled := true
    routes := [{ box := 0 }]
    untaken := [0] }
  network := (answered.unsubscribe (.plain 0) "r").2
  ensures := [("r", .done (.ok ()))]
  stops := [.done]
  calls := [.subscribe "r", .unsubscribe "r"]

theorem run_overtaken : Run (.plain 0) alone overtaken := by
  have hlocked := (Relation.ReflTransGen.single (@Step.callEnsure (.plain 0) alone "r")).tail
    (@Step.ensure _ _ [] [] "r" .locking _ _ _ _ rfl rfl trivial)
  have hjoined := (((hlocked.tail .callStop).tail
    (@Step.stop _ _ [] [] .cancelling _ _ _ rfl rfl trivial)).tail
    (@Step.stop _ _ [] [] .takingRoutes _ _ _ rfl rfl trivial)).tail
    (@Step.stop _ _ [] [] (.joining []) _ _ _ rfl rfl trivial)
  have hopened := (hjoined.tail
    (@Step.ensure _ _ [] [] "r" .subscribing _ _ _ _ rfl rfl ⟨_, rfl, rfl⟩)).tail
    (@Step.ensure _ _ [] [] "r" .opening _ _ _ _ rfl rfl ⟨_, rfl⟩)
  have hrecorded := (hopened.tail
    (.elsewhere [(.replicate 16 7, { topic := "r" })] answered)).tail
    (@Step.ensure _ _ [] [] "r" (.recording 0) _ _ _ _ rfl rfl trivial)
  have hundone := ((hrecorded.tail
    (@Step.stop _ _ [] [] .takingFilters _ _ _ rfl rfl trivial)).tail
    (@Step.stop _ _ [] [] (.unsubscribing ["r"]) _ _ _ rfl rfl ⟨_, rfl, rfl⟩)).tail
    (@Step.stop _ _ [] [] (.unsubscribing []) _ _ _ rfl rfl trivial)
  exact hundone

theorem isAtRest_overtaken : overtaken.IsAtRest := by
  simp [IsAtRest, overtaken]

theorem overtaken_subscription_undone :
    overtaken.IsAtRest ∧ overtaken.callsOn "r" = [.subscribe "r", .unsubscribe "r"] ∧
      ∀ n, ∃ network, RouteStep overtaken.router 0 n (overtaken.router.endRoute 0) network := by
  obtain ⟨-, -, -, -, hshutDown⟩ := shutdown_leaves_no_subscription ⟨rfl, rfl, rfl, rfl⟩ run_overtaken
  obtain ⟨hcalls, hroutes, -⟩ := hshutDown (.head _)
  refine ⟨isAtRest_overtaken, (hcalls isAtRest_overtaken "r").resolve_left (by decide), ?_⟩
  obtain hnone | ⟨-, hend⟩ := hroutes isAtRest_overtaken 0 (by decide)
  · exact absurd (.ended rfl rfl (.inl rfl)) (hnone overtaken.network _ _)
  · exact hend

/-- The shutdown and the call have returned, and the route still routes the response to the
invocation that waits for it. -/
theorem response_routed_after_shutdown :
    Run (.plain 0) alone overtaken ∧ overtaken.IsAtRest ∧ .done ∈ overtaken.stops ∧
      (overtaken.router.take? (.replicate 16 7)).isNone = true ∧
      ∃ network, RouteStep overtaken.router 0 overtaken.network (overtaken.router.deliver response)
          network ∧
        ((overtaken.router.deliver response).take? (.replicate 16 7)).isSome = true := by
  have hroute := @RouteStep.delivered overtaken.router 0 overtaken.network { box := 0 }
    ⟨response, ⟨[0]⟩⟩ _ rfl rfl rfl
  exact ⟨run_overtaken, isAtRest_overtaken, .head _, by decide, _, hroute, by decide⟩

end Lifecycle

end Router

end CommandBus
