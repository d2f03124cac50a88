import CommandBus.Proofs.Executor.Reuse
import CommandBus.Proofs.Stream.Sending
import Mathlib

namespace CommandBus

/-- The values of a property begin and end with the same one, if there are any. -/
def UserProperties.IsUnambiguous (l : UserProperties) (p : Property) : Prop :=
  (l.values p.key).head? = (l.values p.key).getLast?

theorem UserProperties.get?_eq_head? (l : UserProperties) (key : String) :
    l.get? key = (l.values key).head? := by
  induction l with
  | nil => rfl
  | cons entry rest ih =>
    obtain ⟨k, value⟩ := entry
    rw [get?] at ih
    by_cases hk : k = key
    · simp [get?, values, hk]
    · have hne : key ≠ k := Ne.symm hk
      rw [get?, List.lookup_cons, beq_false_of_ne hne, ih, values, values, List.filter_cons_of_neg]
      simpa using hk

theorem Property.key_of_ofKey? {key : String} {p : Property} (h : ofKey? key = some p) :
    p.key = key := by
  rw [ofKey?] at h
  simpa using List.find?_some h

namespace ProtocolProperties

theorem get?_ofUser_singleton (key value : String) (p : Property) :
    (ofUser [(key, value)]).get? p = (UserProperties.values [(key, value)] p.key).getLast? := by
  cases hq : Property.ofKey? key with
  | none =>
    have hk : key ≠ p.key := fun hk => by
      rw [hk, Property.ofKey?_key] at hq
      cases hq
    simp [ofUser, hq, get?, UserProperties.values, hk]
  | some q =>
    obtain rfl := Property.key_of_ofKey? hq
    have hentries : ofUser [(q.key, value)] = ⟨[(q, value)]⟩ := by simp [ofUser, hq]
    rw [hentries, get?_singleton]
    by_cases hp : p = q
    · simp [hp, UserProperties.values]
    · have hk : q.key ≠ p.key := fun hk => hp <| Option.some.inj <| by
        rw [← Property.ofKey?_key, ← hk, hq]
      simp [hp, UserProperties.values, hk]

theorem get?_ofUser (l : UserProperties) (p : Property) :
    (ofUser l).get? p = (l.values p.key).getLast? := by
  induction l with
  | nil => rfl
  | cons entry rest ih =>
    have happend : (entry :: rest : UserProperties) = [entry] ++ rest := rfl
    have hentries : ofUser ([entry] ++ rest) =
        ⟨(ofUser [entry]).entries ++ (ofUser rest).entries⟩ :=
      congrArg mk (ofUser_append [entry] rest)
    rw [happend, hentries, get?_append, UserProperties.values_append, List.getLast?_append,
      ← get?_ofUser_singleton, ← ih]

theorem get?_eq_iff (l : UserProperties) (p : Property) :
    l.get? p.key = (ofUser l).get? p ↔ l.IsUnambiguous p := by
  rw [UserProperties.get?_eq_head?, get?_ofUser, UserProperties.IsUnambiguous]

end ProtocolProperties

theorem Request.invokerId_of_validate {V : Type} {c : Command V} {m : Message} {s : Surroundings}
    {request : IncomingRequest V} (h : (validate c m s).1 = .ok request) :
    request.invokerId = (ProtocolProperties.ofUser m.userProperties).get? .sourceId := by
  unfold validate at h
  dsimp only at h
  split at h
  · cases h
  split at h
  · cases h
  split at h <;> cases h
  rfl

theorem UserProperties.isUnambiguous_iff_getD (l : UserProperties) (p : Property) :
    l.IsUnambiguous p ↔
      (l.values p.key).head?.getD "" = (l.values p.key).getLast?.getD "" := by
  rw [IsUnambiguous]
  cases l.values p.key with
  | nil => simp
  | cons value rest => simp [List.getLast?_cons]

namespace Stream

/-- What a response says of its place in the stream, with its properties read in some way: whether
it is the last, and its index. -/
def placeBy (read : Property → Option String) (position : Nat) :
    Bool × Except ProtocolError UInt64 :=
  ((read .isLast).elim false (Checksum.equalIgnoringCase · "true"),
    match read .streamIndex with
    | none => .ok position.toUInt64
    | some text =>
      match Text.readUInt64 text with
      | some index => .ok index
      | none => .error (.headerInvalid Property.streamIndex.key text))

theorem placeBy_userProperty? (m : Message) (position : Nat) :
    placeBy (m.userProperty? ·.key) position = (isMarkedLast m, indexOf m position) :=
  rfl

end Stream

namespace World

/-- The invoker that a request is cached for is the one its handler is told of, exactly if the
request names it unambiguously. -/
theorem invokerId_eq_iff {V : Type} {w : World V} {i : Nat} {b : RequestEntry V} {e : Executor V}
    {request : IncomingRequest V} (hb : w.requests[i]? = some b)
    (he : w.executors[b.executor]? = some e) (h : w.effect? i = some (.invoke request)) :
    (Request.cacheRequest e.command b.task.message).invokerId = request.invokerId.getD "" ↔
      b.task.message.userProperties.IsUnambiguous .sourceId := by
  obtain ⟨b', e', hb', he', -, s, phase, state, -, -, hg⟩ := goes_of_effect? h
  obtain rfl := Option.some.inj (hb.symm.trans hb')
  obtain rfl := Option.some.inj (he.symm.trans he')
  cases hg with
  | invoked _ hv =>
    rw [Request.invokerId_of_validate hv, ProtocolProperties.get?_ofUser, Request.cacheRequest,
      Message.userProperty?, UserProperties.get?_eq_head?]
    exact (UserProperties.isUnambiguous_iff_getD _ _).symm

/-- Of a message's properties the same is read in both ways exactly if they are unambiguous: of each
by itself, of the invoker if it is a request, and of its place in the stream if it is a response. -/
theorem read_alike_iff (m : Message) :
    (∀ p, m.userProperty? p.key = (ProtocolProperties.ofUser m.userProperties).get? p ↔
      m.userProperties.IsUnambiguous p) ∧
    (∀ (V : Type) (w : World V) (i : Nat) (b : RequestEntry V) (e : Executor V)
      (request : IncomingRequest V), b.task.message = m → w.requests[i]? = some b →
      w.executors[b.executor]? = some e → w.effect? i = some (.invoke request) →
      ((Request.cacheRequest e.command m).invokerId = request.invokerId.getD "" ↔
        m.userProperties.IsUnambiguous .sourceId)) ∧
    (m.userProperties.IsUnambiguous .isLast → m.userProperties.IsUnambiguous .streamIndex →
      ∀ position, (Stream.isMarkedLast m, Stream.indexOf m position) =
        Stream.placeBy (ProtocolProperties.ofUser m.userProperties).get? position) := by
  have hread (p : Property) : m.userProperty? p.key =
      (ProtocolProperties.ofUser m.userProperties).get? p ↔ m.userProperties.IsUnambiguous p :=
    ProtocolProperties.get?_eq_iff m.userProperties p
  refine ⟨hread, fun V w i b e request hm hb he h => ?_, fun hlast hindex position => ?_⟩
  · rw [← hm]
    exact invokerId_eq_iff hb he h
  · rw [← Stream.placeBy_userProperty?, Stream.placeBy, Stream.placeBy, (hread _).mpr hlast,
      (hread _).mpr hindex]

def namedRequest (names : List String) : Message :=
  { echoRequest 0 "1.0" with userProperties := names.map (Property.sourceId.key, ·) }

def invokedBy (names : List String) : World Bytes :=
  (echoing [namedRequest names]).stepAll [.serve 0, .request 0, .request 0]

theorem run_invokedBy (names : List String) :
    (echoing [namedRequest names]).IsFresh ∧ Run (echoing [namedRequest names]) (invokedBy names) :=
  ⟨isFresh_echoing _, run_stepAll _ _⟩

/-- With two names, the request is cached for the first, while its handler is told the second. -/
theorem cached_for_another :
    (echoing [namedRequest ["alice", "bob"]]).IsFresh ∧
    Run (echoing [namedRequest ["alice", "bob"]]) (invokedBy ["alice", "bob"]) ∧
    ∃ b e request, (invokedBy ["alice", "bob"]).requests[0]? = some b ∧
      (invokedBy ["alice", "bob"]).executors[b.executor]? = some e ∧
      (invokedBy ["alice", "bob"]).effect? 0 = some (.invoke request) ∧
      (Request.cacheRequest e.command b.task.message).invokerId = "alice" ∧
      request.invokerId = some "bob" := by
  obtain ⟨hfresh, hrun⟩ := run_invokedBy ["alice", "bob"]
  exact ⟨hfresh, hrun, _, _, _, rfl, rfl, rfl, rfl, rfl⟩

theorem cached_for_invoker :
    ∃ b e request, (invokedBy ["alice", "bob", "alice"]).requests[0]? = some b ∧
      (invokedBy ["alice", "bob", "alice"]).executors[b.executor]? = some e ∧
      (invokedBy ["alice", "bob", "alice"]).effect? 0 = some (.invoke request) ∧
      (Request.cacheRequest e.command b.task.message).invokerId = request.invokerId.getD "" := by
  obtain ⟨b, e, request, hb, he, hi, hl⟩ : ∃ b e request,
      (invokedBy ["alice", "bob", "alice"]).requests[0]? = some b ∧
      (invokedBy ["alice", "bob", "alice"]).executors[b.executor]? = some e ∧
      (invokedBy ["alice", "bob", "alice"]).effect? 0 = some (.invoke request) ∧
      b.task.message.userProperties.IsUnambiguous .sourceId := ⟨_, _, _, rfl, rfl, rfl, rfl⟩
  exact ⟨b, e, request, hb, he, hi, ((read_alike_iff _).2.1 _ _ 0 b e request rfl hb he hi).mpr hl⟩

end World

end CommandBus
