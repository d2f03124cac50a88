import CommandBus.Proofs.Executor.Turn
import Mathlib

namespace CommandBus

def Message.status? (m : Message) : Option String :=
  (ProtocolProperties.ofUser m.userProperties).get? .status

/-- The invoker is told the same: status, payload and content type agree. -/
structure Message.Matches (m m' : Message) : Prop where
  status_eq : m.status? = m'.status?
  payload_eq : m.payload = m'.payload
  contentType_eq : m.contentType = m'.contentType

structure Reply.Matches (r r' : Reply) : Prop where
  status_eq : r.status = r'.status
  payload_eq : r.body.payload = r'.body.payload
  contentType_eq : r.body.contentType? = r'.body.contentType?

theorem Status.parse_text (s : Status) : Status.parse s.text = .ok s := by
  cases s <;> rfl

theorem Status.text_injective : Function.Injective Status.text := fun a b h =>
  Except.ok.inj <| (parse_text a).symm.trans <| (congrArg parse h).trans (parse_text b)

theorem Property.ofKey?_key (p : Property) : Property.ofKey? p.key = some p := by
  cases p <;> rfl

namespace ProtocolProperties

theorem ofUser_append (a b : UserProperties) :
    (ofUser (a ++ b)).entries = (ofUser a).entries ++ (ofUser b).entries :=
  List.filterMap_append

theorem ofUser_keys (l : List (Property × String)) :
    (ofUser (l.map fun (p, value) => (p.key, value))).entries = l := by
  simp [ofUser, List.filterMap_map, Property.ofKey?_key]

theorem get?_append (a b : List (Property × String)) (p : Property) :
    (mk (a ++ b)).get? p = ((mk b).get? p).or ((mk a).get? p) := by
  rw [get?, List.reverse_append, List.lookup_append]
  rfl

theorem get?_singleton (q : Property) (value : String) (p : Property) :
    (mk [(q, value)]).get? p = if p = q then some value else none := by
  by_cases h : p = q <;> simp [get?, List.lookup_cons, h, beq_false_of_ne]

theorem get?_option (q : Property) (value : Option String) (p : Property) :
    (mk (value.map (q, ·)).toList).get? p = if p = q then value else none := by
  cases value with
  | none => simp [get?]
  | some value => exact get?_singleton q value p

end ProtocolProperties

namespace Reply

def value? (r : Reply) (stamp : Option String) : Property → Option String
  | .status => some r.status.text
  | .protocolVersion => some ProtocolVersion.current.text
  | .timestamp => stamp
  | .statusMessage => r.text
  | .isApplicationError => if r.isApplicationError then some "true" else none
  | .invalidPropertyName => r.propertyName
  | .invalidPropertyValue => r.propertyValue
  | .supportedMajorVersions => r.supportedMajors.map majorsText
  | .requestProtocolVersion => r.requestVersion
  | _ => none

theorem get?_properties (r : Reply) (stamp : Option String) (p : Property) :
    (ProtocolProperties.mk (r.properties stamp)).get? p = r.value? stamp p := by
  have hmajors : (r.supportedMajors.map fun v => (Property.supportedMajorVersions, majorsText v)) =
      (r.supportedMajors.map majorsText).map (Property.supportedMajorVersions, ·) := by
    rw [Option.map_map]
    rfl
  have hfailed : (if r.isApplicationError then [(Property.isApplicationError, "true")] else []) =
      ((if r.isApplicationError then some "true" else none).map
        (Property.isApplicationError, ·)).toList := by
    split <;> rfl
  have hfirst : [(Property.status, r.status.text),
      (Property.protocolVersion, ProtocolVersion.current.text)] =
      [(Property.status, r.status.text)] ++
        [(Property.protocolVersion, ProtocolVersion.current.text)] := rfl
  rw [properties, hmajors, hfailed, hfirst]
  simp only [ProtocolProperties.get?_append, ProtocolProperties.get?_option,
    ProtocolProperties.get?_singleton]
  cases p <;> simp [value?]

theorem ofUser_response_append (r : Reply) (topic : String) (data : Option Bytes)
    (stamp : Option String) (expiry : UInt32) :
    ProtocolProperties.ofUser (r.response topic data stamp expiry).userProperties =
      ⟨(ProtocolProperties.ofUser r.userData).entries ++ r.properties stamp⟩ :=
  congrArg ProtocolProperties.mk <| (ProtocolProperties.ofUser_append _ _).trans
    (congrArg _ (ProtocolProperties.ofUser_keys _))

theorem status?_response (r : Reply) (topic : String) (data : Option Bytes)
    (stamp : Option String) (expiry : UInt32) :
    (r.response topic data stamp expiry).status? = some r.status.text := by
  rw [Message.status?, ofUser_response_append, ProtocolProperties.get?_append, get?_properties,
    value?, Option.some_or]

theorem ofError_isSuccess (e : ProtocolError) : (ofError e).status.isSuccess = false := by
  unfold ofError
  cases e.kind <;> rfl

end Reply

namespace Request

variable {V : Type} {c : Command V} {t t' : Task V} {reply reply' : Reply} {m m' : Message}

theorem checkVersion_isSuccess {p : ProtocolProperties} (h : checkVersion p = .error reply) :
    reply.status.isSuccess = false := by
  unfold checkVersion at h
  split at h
  · cases h
  split at h
  · split at h <;> cases h
    rfl
  · cases h
    rfl

theorem observeTimestamp_isSuccess {p : ProtocolProperties} {s : Surroundings}
    (h : (observeTimestamp p s).1 = .error reply) : reply.status.isSuccess = false := by
  unfold observeTimestamp at h
  split at h
  · cases h
  split at h
  · cases h
    exact Reply.ofError_isSuccess _
  · dsimp only at h
    split at h <;> cases h
    exact Reply.ofError_isSuccess _

theorem decode_isSuccess (h : decode c m = .error reply) : reply.status.isSuccess = false := by
  unfold decode at h
  split at h
  · cases h
    rfl
  split at h <;> cases h <;> rfl

theorem validate_isSuccess {s : Surroundings} (h : (validate c m s).1 = .error reply) :
    reply.status.isSuccess = false := by
  unfold validate at h
  dsimp only at h
  split at h
  next hv =>
    cases h
    exact checkVersion_isSuccess hv
  next =>
    split at h
    next ho =>
      cases h
      exact observeTimestamp_isSuccess (congrArg Prod.fst ho)
    next =>
      split at h <;> cases h
      next hd => exact decode_isSuccess hd

namespace Task

theorem Carries.status? (h : t.Carries reply m) : m.status? = some reply.status.text := by
  obtain ⟨stamp, expiry, rfl⟩ := h
  exact reply.status?_response ..

theorem Carries.matches_iff (h : t.Carries reply m) (h' : t'.Carries reply' m') :
    m.Matches m' ↔ reply.Matches reply' := by
  have hs : m.status? = m'.status? ↔ reply.status = reply'.status := by
    rw [h.status?, h'.status?, Option.some_inj]
    exact Status.text_injective.eq_iff
  obtain ⟨stamp, expiry, rfl⟩ := h
  obtain ⟨stamp', expiry', rfl⟩ := h'
  exact ⟨fun hm => ⟨hs.mp hm.status_eq, hm.payload_eq, hm.contentType_eq⟩,
    fun hm => ⟨hs.mpr hm.status_eq, hm.payload_eq, hm.contentType_eq⟩⟩

theorem Carries.address (h : t'.Carries reply m) (t : Task V) :
    t.Carries reply (t.address m) := by
  obtain ⟨stamp, expiry, rfl⟩ := h
  exact ⟨stamp, expiry, rfl⟩

theorem Carries.expiry (h : t.Carries reply m) (expiry : UInt32) :
    t.Carries reply { m with expiryInterval := some expiry } := by
  obtain ⟨stamp, expiry', rfl⟩ := h
  exact ⟨stamp, expiry, rfl⟩

theorem Carries.congr (h : t'.Carries reply m) (hd : t'.delivery = t.delivery) :
    t.Carries reply m := by
  obtain ⟨stamp, expiry, rfl⟩ := h
  exact ⟨stamp, expiry, by rw [message, message, hd]⟩

end Task

end Request

end CommandBus
