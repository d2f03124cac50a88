import CommandBus.Invoker.Response
import CommandBus.Proofs.Executor.Reply
import CommandBus.Proofs.Text.Numeral
import Mathlib

namespace CommandBus

/-- What is written can be read back under the content type and format it was written with. -/
def Codec.RoundTrips {V : Type} (codec : Codec V) : Prop :=
  ∀ {value body}, codec.encode value = .ok body →
    codec.decode body.payload body.contentType? body.format = .ok value

theorem Codec.raw_roundTrips : Codec.raw.RoundTrips := fun h => by
  cases h
  rfl

theorem FormatIndicator.ofByte_byte (format : FormatIndicator) :
    ofByte (some format.byte) = .ok format := by
  cases format <;> rfl

namespace UserProperties

theorem ofKey?_of_not_reserved {key : String} (h : isReserved key = false) :
    Property.ofKey? key = none := by
  by_contra hne
  obtain ⟨p, hp⟩ := Option.ne_none_iff_exists'.mp hne
  have hkey : p.key = key := by simpa using List.find?_some hp
  rw [← hkey] at h
  cases p <;> cases h

variable {l : UserProperties}

theorem validate_eq_ok_iff : validate l = .ok () ↔ ∀ p ∈ l, isReserved p.1 = false := by
  unfold validate
  split
  next hf => simpa using hf
  next key value hf =>
    have hkey : isReserved key = true := by simpa using List.find?_some hf
    refine iff_of_false nofun fun h => ?_
    rw [h _ (List.mem_of_find?_eq_some hf)] at hkey
    cases hkey

theorem ofUser_of_custom (h : ∀ p ∈ l, isReserved p.1 = false) :
    (ProtocolProperties.ofUser l).entries = [] :=
  List.filterMap_eq_nil_iff.mpr fun (key, value) hp => by
    simp [ofKey?_of_not_reserved (h _ hp)]

theorem custom_eq_self (h : ∀ p ∈ l, isReserved p.1 = false) : custom l = l :=
  List.filter_eq_self.mpr fun p hp => by simp [ofKey?_of_not_reserved (h p hp)]

theorem custom_keys (ps : List (Property × String)) :
    custom (ps.map fun (p, value) => (p.key, value)) = [] := by
  refine List.filter_eq_nil_iff.mpr fun q hq => ?_
  obtain ⟨⟨p, value⟩, -, rfl⟩ := List.mem_map.mp hq
  simp [Property.ofKey?_key]

theorem custom_append_keys (h : ∀ p ∈ l, isReserved p.1 = false) (ps : List (Property × String)) :
    custom (l ++ ps.map fun (p, value) => (p.key, value)) = l := by
  rw [custom, List.filter_append, ← custom, ← custom, custom_eq_self h, custom_keys,
    List.append_nil]

end UserProperties

namespace Reply

variable {r : Reply} {stamp : Option String} {text : String} {kind : ErrorKind}

theorem ofUser_response (h : ∀ p ∈ r.userData, UserProperties.isReserved p.1 = false)
    (topic : String) (data : Option Bytes) (stamp : Option String) (expiry : UInt32) :
    ProtocolProperties.ofUser (r.response topic data stamp expiry).userProperties =
      ⟨r.properties stamp⟩ := by
  rw [ofUser_response_append, UserProperties.ofUser_of_custom h, List.nil_append]

theorem checkVersion_properties (r : Reply) (stamp : Option String) :
    Response.checkVersion ⟨r.properties stamp⟩ = .ok () := by
  rw [Response.checkVersion, get?_properties]
  rfl

theorem readStatus_properties (r : Reply) (stamp : Option String) :
    Response.readStatus ⟨r.properties stamp⟩ =
      if r.status.isSuccess then .ok r.status
      else .error (Response.statusError r.status ⟨r.properties stamp⟩) := by
  rw [Response.readStatus, get?_properties, value?]
  simp only [Status.parse_text]

theorem statusError_properties (htext : r.text = some text)
    (hkind : (Response.reportedError r.status ⟨r.properties stamp⟩) = .ofKind kind) :
    Response.statusError r.status ⟨r.properties stamp⟩ =
      ((ProtocolError.ofKind kind).withText text).remote := by
  rw [Response.statusError, hkind, get?_properties, value?, htext]
  rfl

end Reply

/-- The kind of error that an invoker is told when an executor reports one of kind `kind`. Times
are sent in whole seconds, and what cannot be told is an unknown error. -/
def ErrorKind.reported : ErrorKind → ErrorKind
  | .headerMissing name => .headerMissing name
  | .headerInvalid name value => .headerInvalid name value
  | .payloadInvalid => .payloadInvalid
  | .timeout name value => .timeout name (value.map fun d => .ofSecs d.secs)
  | .stateInvalid name => .stateInvalid name
  | .internalLogicError (some name) => .internalLogicError (some name)
  | .unsupportedVersion version _ => .unsupportedVersion version ProtocolVersion.supportedMajors
  | _ => .unknownError

inductive Outcome {V : Type} (codec : Codec V)
  | replied (reply : HandlerReply V) (body : Serialized)
      (encodes : codec.encode reply.payload = .ok body)
      (isCustom : ∀ p ∈ reply.userData, UserProperties.isReserved p.1 = false)
  | failed (error : ApplicationError)
  /-- The handler's payload cannot be written. -/
  | unwritable (error : PayloadError)
  /-- An error of the protocol; durations have at most 64 bits of seconds. -/
  | reported (error : ProtocolError)
      (isBounded : ∀ name d, error.kind = .timeout name (some d) → d.secs < 2 ^ 64)
  | badFormat (byte : UInt8)
  | unsupportedContentType (contentType : Option String) (detail : String)
  /-- The request's payload cannot be read. -/
  | unreadable (error : PayloadError)

namespace Outcome

variable {V : Type} {codec : Codec V}

def reply : Outcome codec → Reply
  | .replied reply .. => .ofHandler codec (.ok reply)
  | .failed error => .ofHandler codec (.error error)
  | .unwritable error =>
    .failure .internalServerError s!"response payload could not be serialized: {error.message}"
  | .reported error _ => .ofError error
  | .badFormat byte =>
    (Reply.failure .badRequest "invalid payload format indicator").about
      "Payload Format Indicator" (some (toString byte.toNat))
  | .unsupportedContentType contentType detail =>
    (Reply.failure .unsupportedMediaType detail).about "Content Type" contentType
  | .unreadable error =>
    .failure .badRequest s!"request payload could not be deserialized: {error.message}"

/-- What the invoker is to read from a response with this timestamp. -/
def told (timestamp : Option Timestamp) : Outcome codec → Except ProtocolError (Response V)
  | .replied reply body _ _ => .ok {
      payload := reply.payload
      contentType := body.contentType?
      format := body.format
      userData := reply.userData
      timestamp }
  | .failed error => .error
      ((ProtocolError.ofKind (.executionException error.name error.value)).withText
        error.message).remote
  | .unwritable error => .error
      ((ProtocolError.ofKind .unknownError).withText
        s!"response payload could not be serialized: {error.message}").remote
  | .reported error _ => .error
      ((ProtocolError.ofKind error.kind.reported).withText
        ((Reply.ofError error).text.getD "")).remote
  | .badFormat byte => .error
      ((ProtocolError.headerInvalid "Payload Format Indicator" (toString byte.toNat)).withText
        "invalid payload format indicator").remote
  | .unsupportedContentType contentType detail => .error
      ((ProtocolError.headerInvalid "Content Type" (contentType.getD "")).withText detail).remote
  | .unreadable error => .error
      (ProtocolError.payloadInvalid.withText
        s!"request payload could not be deserialized: {error.message}").remote

end Outcome

namespace Reply

variable {V : Type} {codec : Codec V} {r : Reply} {kind : ErrorKind} {text : String}
  {clock : Clock} {wall : Int}

theorem read_failure (hs : r.status.isSuccess = false) (hu : r.userData = [])
    (htext : r.text = some text)
    (hkind : ∀ stamp, Response.reportedError r.status ⟨r.properties stamp⟩ = .ofKind kind)
    (topic : String) (data : Option Bytes) (stamp : Option String) (expiry : UInt32) :
    (Response.read codec (r.response topic data stamp expiry) clock wall).1 =
      .error ((ProtocolError.ofKind kind).withText text).remote := by
  have hp := ofUser_response (r := r) (by simp [hu]) topic data stamp expiry
  simp only [Response.read, hp, checkVersion_properties, readStatus_properties, hs,
    statusError_properties htext (hkind stamp)]
  rfl

theorem ofHandler_ok {reply : HandlerReply V} {body : Serialized}
    (he : codec.encode reply.payload = .ok body)
    (hu : ∀ p ∈ reply.userData, UserProperties.isReserved p.1 = false) :
    ofHandler codec (.ok reply) = success body reply.userData := by
  simp only [ofHandler, UserProperties.validate_eq_ok_iff.mpr hu, he]

theorem success_isSuccess (body : Serialized) (userData : UserProperties) :
    (success body userData).status.isSuccess = true := by
  unfold success
  dsimp only
  split <;> rfl

theorem decode_success {body : Serialized} {value : V}
    (hd : codec.decode body.payload body.contentType? body.format = .ok value)
    (userData : UserProperties) (topic : String) (data : Option Bytes) (stamp : Option String)
    (expiry : UInt32) :
    Response.decode codec (success body userData).status
      ((success body userData).response topic data stamp expiry) = .ok (value, body.format) := by
  have hempty : ¬((success body userData).status = .noContent ∧
      ¬body.payload.isEmpty = true) := by
    rintro ⟨hs, hne⟩
    simp [success, hne] at hs
  have hpayload : ((success body userData).response topic data stamp expiry).payload =
    body.payload := rfl
  have hformat : ((success body userData).response topic data stamp expiry).formatIndicator =
    some body.format.byte := rfl
  have htype : ((success body userData).response topic data stamp expiry).contentType =
    body.contentType? := rfl
  simp only [Response.decode, hpayload, hformat, htype, if_neg hempty,
    FormatIndicator.ofByte_byte, hd]
  rfl

theorem read_success {body : Serialized} {userData : UserProperties} {value : V}
    (hd : codec.decode body.payload body.contentType? body.format = .ok value)
    (hu : ∀ p ∈ userData, UserProperties.isReserved p.1 = false) {topic : String}
    {data : Option Bytes} {stamp : Option String} {expiry : UInt32} {timestamp : Option Timestamp}
    (ht : (Response.observeTimestamp (ProtocolProperties.ofUser
      ((success body userData).response topic data stamp expiry).userProperties) clock wall).1 =
        .ok timestamp) :
    (Response.read codec ((success body userData).response topic data stamp expiry) clock wall).1 =
      .ok { payload := value, contentType := body.contentType?, format := body.format, userData,
            timestamp } := by
  have hp := ofUser_response (r := success body userData) hu topic data stamp expiry
  have hcustom : ((success body userData).response topic data stamp expiry).userProperties.custom =
      userData := UserProperties.custom_append_keys hu _
  rw [hp] at ht
  -- what the clock becomes does not matter, but it has to be named for the rewriting below
  obtain ⟨clock', hobserve⟩ : ∃ clock', Response.observeTimestamp
      ⟨(success body userData).properties stamp⟩ clock wall = (.ok timestamp, clock') :=
    ⟨_, Prod.ext ht rfl⟩
  simp only [Response.read, hp, checkVersion_properties, readStatus_properties,
    success_isSuccess, if_true, hobserve, decode_success hd userData, hcustom]
  rfl

theorem userData_ofError (e : ProtocolError) : (ofError e).userData = [] := by
  unfold ofError
  cases e.kind <;> rfl

theorem isSome_text_ofError (e : ProtocolError) : (ofError e).text.isSome = true := by
  unfold ofError
  cases e.kind <;> rfl

theorem reportedError_ofError (e : ProtocolError)
    (hb : ∀ name d, e.kind = .timeout name (some d) → d.secs < 2 ^ 64) (stamp : Option String) :
    Response.reportedError (ofError e).status ⟨(ofError e).properties stamp⟩ =
      .ofKind e.kind.reported := by
  simp only [Response.reportedError, get?_properties, value?]
  unfold ofError
  cases hk : e.kind with
  | timeout name value =>
    cases value with
    | none => rfl
    | some d =>
      have hd := hb name d hk
      have hread : ((Text.readUInt64 (toString d.secs)).map fun secs =>
          Duration.ofSecs secs.toNat) = some (.ofSecs d.secs) := by
        rw [Text.readUInt64_toString hd, Option.map_some, Nat.toUInt64,
          UInt64.toNat_ofNat_of_lt' hd]
      exact congrArg (ProtocolError.timeout name) hread
  | internalLogicError name => cases name <;> rfl
  | _ => rfl

end Reply

namespace Outcome

variable {V : Type} {codec : Codec V}

theorem read_response (hcodec : codec.RoundTrips) (o : Outcome codec) {topic : String}
    {data : Option Bytes} {stamp : Option String} {expiry : UInt32} {clock : Clock} {wall : Int}
    {timestamp : Option Timestamp}
    (ht : (Response.observeTimestamp (ProtocolProperties.ofUser
      (o.reply.response topic data stamp expiry).userProperties) clock wall).1 = .ok timestamp) :
    (Response.read codec (o.reply.response topic data stamp expiry) clock wall).1 =
      o.told timestamp := by
  cases o with
  | replied reply body encodes isCustom =>
    rw [Outcome.reply, Reply.ofHandler_ok encodes isCustom] at ht ⊢
    exact Reply.read_success (hcodec encodes) isCustom ht
  | failed error =>
    refine Reply.read_failure rfl rfl rfl (fun stamp => ?_) ..
    simp only [Response.reportedError, Reply.get?_properties]
    rfl
  | reported error isBounded =>
    obtain ⟨text, htext⟩ := Option.isSome_iff_exists.mp (Reply.isSome_text_ofError error)
    rw [told, htext]
    exact Reply.read_failure (Reply.ofError_isSuccess error) (Reply.userData_ofError error) htext
      (Reply.reportedError_ofError error isBounded) ..
  | _ =>
    refine Reply.read_failure rfl rfl rfl (fun stamp => ?_) ..
    simp only [Response.reportedError, Reply.get?_properties]
    rfl

end Outcome

namespace Request

variable {V : Type}

theorem ofClock_isBounded (e : ClockError) (name : String) (d : Duration)
    (h : (ProtocolError.ofClock e).kind = .timeout name (some d)) : d.secs < 2 ^ 64 := by
  cases e <;> cases h

theorem timeout_isBounded {d : Duration} (hd : d.secs < 2 ^ 64) {name : String} (name' : String)
    (d' : Duration) (h : (ProtocolError.timeout name (some d)).kind = .timeout name' (some d')) :
    d'.secs < 2 ^ 64 :=
  Option.some.inj (ErrorKind.timeout.inj h).2 ▸ hd

namespace Task

inductive Ends (c : Command V) (t : Task V) (s : Surroundings) : Outcome c.responseCodec → Prop
  | badVersion (h : t.phase = .executing) {text : String}
    (ht : (ProtocolProperties.ofUser t.message.userProperties).get? .protocolVersion = some text)
    (hv : ∀ v, ProtocolVersion.parse? text = some v →
      v.isSupported ProtocolVersion.supportedMajors = false) :
    Ends c t s (.reported (.unsupportedVersion text ProtocolVersion.supportedMajors) nofun)
  | badTimestamp (h : t.phase = .executing) {text : String} {e : ClockError}
    (ht : (ProtocolProperties.ofUser t.message.userProperties).get? .timestamp = some text)
    (he : Timestamp.parse text = .error e ∨
      ∃ time, Timestamp.parse text = .ok time ∧ (s.clock.observe time s.wall).1 = .error e) :
    Ends c t s (.reported (.ofClock e) (ofClock_isBounded e))
  | badFormat (h : t.phase = .executing) {byte : UInt8}
    (hf : FormatIndicator.ofByte t.message.formatIndicator = .error byte) :
    Ends c t s (.badFormat byte)
  | unsupportedContentType (h : t.phase = .executing) {format : FormatIndicator} {detail : String}
    (hd : c.requestCodec.decode t.message.payload t.message.contentType format =
      .error (.unsupportedContentType detail)) :
    Ends c t s (.unsupportedContentType t.message.contentType detail)
  | unreadable (h : t.phase = .executing) {format : FormatIndicator} {e : PayloadError}
    (hd : c.requestCodec.decode t.message.payload t.message.contentType format =
      .error (.invalid e)) :
    Ends c t s (.unreadable e)
  | replied {since endsAt : Nat} {r : HandlerReply V} (h : t.phase = .handling since endsAt (.ok r))
    (hle : endsAt ≤ s.now) {body : Serialized} (hb : c.responseCodec.encode r.payload = .ok body)
    (hu : ∀ p ∈ r.userData, UserProperties.isReserved p.1 = false) :
    Ends c t s (.replied r body hb hu)
  | failed {since endsAt : Nat} {e : ApplicationError}
    (h : t.phase = .handling since endsAt (.error e)) (hle : endsAt ≤ s.now) :
    Ends c t s (.failed e)
  /-- The handler used a key of the protocol. -/
  | reservedKey {since endsAt : Nat} {r : HandlerReply V}
    (h : t.phase = .handling since endsAt (.ok r)) (hle : endsAt ≤ s.now) {e : ProtocolError}
    (hu : UserProperties.validate r.userData = .error e) :
    Ends c t s (.reported ((ProtocolError.internalLogicError (some "custom_user_data")).withCause
      (.other e.message)) nofun)
  | unwritable {since endsAt : Nat} {r : HandlerReply V}
    (h : t.phase = .handling since endsAt (.ok r)) (hle : endsAt ≤ s.now) {e : PayloadError}
    (hb : c.responseCodec.encode r.payload = .error e) : Ends c t s (.unwritable e)
  | timedOut {since endsAt : Nat} {result : Except ApplicationError (HandlerReply V)}
    (h : t.phase = .handling since endsAt result) (hlt : s.now < endsAt)
    (hle : t.expiresAt ≤ s.now) :
    Ends c t s (.reported (.timeout "ExecutionTimeout" (some (.ofMillis 0)))
      (timeout_isBounded (d := .ofMillis 0) (by decide)))

variable {c : Command V} {t t' : Task V} {s s' : Surroundings} {effect : Effect V} {reply : Reply}

theorem exists_ends_of_checkVersion (h : t.phase = .executing)
    (hv : checkVersion (.ofUser t.message.userProperties) = .error reply) :
    ∃ o, t.Ends c s o ∧ o.reply = reply := by
  unfold checkVersion at hv
  split at hv
  next => cases hv
  next text ht =>
    have hunsupported : ∀ v, ProtocolVersion.parse? text = some v →
        v.isSupported ProtocolVersion.supportedMajors = false := fun v hp => by
      cases hs : v.isSupported ProtocolVersion.supportedMajors with
      | false => rfl
      | true => simp [hp, hs] at hv
    refine ⟨_, .badVersion h ht hunsupported, ?_⟩
    split at hv
    · split at hv <;> cases hv
      rfl
    · cases hv
      rfl

theorem exists_ends_of_observeTimestamp (h : t.phase = .executing)
    (hv : (observeTimestamp (.ofUser t.message.userProperties) s).1 = .error reply) :
    ∃ o, t.Ends c s o ∧ o.reply = reply := by
  unfold observeTimestamp at hv
  split at hv
  next => cases hv
  next text ht =>
    split at hv
    next e he =>
      cases hv
      exact ⟨_, .badTimestamp h ht (.inl he), rfl⟩
    next time htime =>
      dsimp only at hv
      split at hv <;> cases hv
      next e he => exact ⟨_, .badTimestamp h ht (.inr ⟨time, htime, he⟩), rfl⟩

theorem exists_ends_of_decode (h : t.phase = .executing)
    (hv : decode c t.message = .error reply) : ∃ o, t.Ends c s o ∧ o.reply = reply := by
  unfold decode at hv
  split at hv
  next byte hf =>
    cases hv
    exact ⟨_, .badFormat h hf, rfl⟩
  next =>
    split at hv <;> cases hv
    next detail hd => exact ⟨_, .unsupportedContentType h hd, rfl⟩
    next e hd => exact ⟨_, .unreadable h hd, rfl⟩

theorem exists_ends_of_validate (h : t.phase = .executing)
    (hv : (validate c t.message s).1 = .error reply) : ∃ o, t.Ends c s o ∧ o.reply = reply := by
  unfold validate at hv
  dsimp only at hv
  split at hv
  next hversion =>
    cases hv
    exact exists_ends_of_checkVersion h hversion
  next =>
    split at hv
    next hobserve =>
      cases hv
      exact exists_ends_of_observeTimestamp h (congrArg Prod.fst hobserve)
    next =>
      split at hv <;> cases hv
      next hdecode => exact exists_ends_of_decode h hdecode

theorem exists_ends_of_result {since endsAt : Nat} {result : Except ApplicationError (HandlerReply V)}
    (h : t.phase = .handling since endsAt result) (hle : endsAt ≤ s.now) :
    ∃ o, t.Ends c s o ∧ o.reply = .ofHandler c.responseCodec result := by
  cases result with
  | error e => exact ⟨_, .failed h hle, rfl⟩
  | ok r =>
    cases hu : UserProperties.validate r.userData with
    | error e => exact ⟨_, .reservedKey h hle hu, by simp only [Reply.ofHandler, hu]; rfl⟩
    | ok =>
      cases hb : c.responseCodec.encode r.payload with
      | error e => exact ⟨_, .unwritable h hle hb, by simp only [Reply.ofHandler, hu, hb]; rfl⟩
      | ok body =>
        exact ⟨_, .replied h hle hb (UserProperties.validate_eq_ok_iff.mp hu), rfl⟩

theorem exists_ends (h : t.step? c s = some (t', s', effect)) {m : Message} {execution : Nat}
    (hm : t'.phase = .storing m execution) : ∃ o, t.Ends c s o ∧ t.Carries o.reply m := by
  obtain ⟨phase, rfl, hgoes⟩ := goes_of_step? h
  dsimp only at hm
  subst hm
  generalize s'.cache.state = state at hgoes
  cases hgoes with
  | rejected hp hv hc =>
    obtain ⟨o, ho, rfl⟩ := exists_ends_of_validate hp hv
    exact ⟨o, ho, hc⟩
  | returned hp hle hc =>
    obtain ⟨o, ho, hr⟩ := exists_ends_of_result (c := c) hp hle
    exact ⟨o, ho, hr ▸ hc⟩
  | timedOut hp hlt hle hc =>
    refine ⟨_, .timedOut hp hlt hle, ?_⟩
    rwa [Request.timedOut, Nat.sub_eq_zero_of_le hle] at hc

end Task

end Request

/-- Outcomes survive the way from executor to invoker: the response to each is read as that
outcome, and every response that an execution makes is the response to how it ended. -/
theorem outcome_survives {V : Type} (c : Command V) (hc : c.responseCodec.RoundTrips) :
    (∀ (o : Outcome c.responseCodec) (topic : String) (data : Option Bytes) (stamp : Option String)
        (expiry : UInt32) (clock : Clock) (wall : Int) (timestamp : Option Timestamp),
      (Response.observeTimestamp (ProtocolProperties.ofUser
        (o.reply.response topic data stamp expiry).userProperties) clock wall).1 = .ok timestamp →
      (Response.read c.responseCodec (o.reply.response topic data stamp expiry) clock wall).1 =
        o.told timestamp) ∧
    ∀ (t t' : Request.Task V) (s s' : Request.Surroundings) (effect : Request.Effect V)
        (m : Message) (execution : Nat),
      t.step? c s = some (t', s', effect) → t'.phase = .storing m execution →
      ∃ o, t.Ends c s o ∧ t.Carries o.reply m :=
  ⟨fun o _ _ _ _ _ _ _ ht => o.read_response hc ht,
    fun _ _ _ _ _ _ _ h hm => Request.Task.exists_ends h hm⟩

/-- A reply of a handler with custom data is read as it is, and a task whose handler has failed
answers with that failure. -/
theorem handler_outcomes_survive :
    let failure : ApplicationError := ⟨"broken", some "part", some "7"⟩
    let c : Command Bytes :=
      ⟨"cmd", "cmd/+", false, 0, false, Codec.raw, Codec.raw, fun _ _ => ⟨3, .error failure⟩⟩
    let clock : Clock := .start "node" 0 Clock.defaultMaxDrift
    let o : Outcome c.responseCodec := .replied ⟨[1, 2], [("key", "a"), ("key", "b")]⟩
      ⟨[1, 2], "application/octet-stream", .unspecifiedBytes⟩ rfl (by decide)
    let t : Request.Task Bytes := ⟨⟨{ topic := "cmd/x" }, .none⟩, 10000, .handling 0 3 (.error failure)⟩
    let s : Request.Surroundings := ⟨{}, clock, 3, 0, 1⟩
    (Response.read c.responseCodec (o.reply.response "reply" none none 5) clock 0).1 =
        .ok ⟨[1, 2], some "application/octet-stream", .unspecifiedBytes,
          [("key", "a"), ("key", "b")], none⟩ ∧
      ∃ o : Outcome c.responseCodec, t.Ends c s o ∧
        t.Carries o.reply (t.respondWith (.ofHandler Codec.raw (.error failure)) s).1 := by
  intro failure c clock o t s
  have h := outcome_survives c Codec.raw_roundTrips
  have hstep : t.step? c s = some (t.conclude (.ofHandler Codec.raw (.error failure)) 0 s) := rfl
  exact ⟨h.1 o "reply" none none 5 clock 0 none rfl, h.2 t _ s _ _ _ _ hstep rfl⟩

end CommandBus
