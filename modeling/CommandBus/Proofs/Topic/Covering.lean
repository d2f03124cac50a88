import CommandBus.Executor
import CommandBus.Proofs.Topic.Filling
import CommandBus.Proofs.Topic.Matching
import Mathlib

namespace CommandBus

namespace TopicPattern

def filterLevel : PatternLevel → FilterLevel
  | .literal text => .literal text
  | .token _ => .any

variable {property pattern : String} {space? : Option String} {tokens fill : TokenMap}
  {p : TopicPattern} {level : String} {l : PatternLevel}

theorem isReserved_of_isLevelChar {c : Char} (h : isLevelChar c = true) :
    FilterLevel.isReserved c = false := by
  unfold isLevelChar at h
  unfold FilterLevel.isReserved
  simp only [Bool.not_eq_true', Bool.or_eq_false_iff] at h ⊢
  exact ⟨⟨h.1.1.1.1.2, h.1.1.1.1.1.2⟩, h.1.2⟩

theorem isPlain_of_isProper (hl : IsProper l) : (filterLevel l).IsPlain := by
  cases l with
  | literal text => exact fun c hc => isReserved_of_isLevelChar (isLevelChar_of_mem hl hc)
  | token name => exact trivial

theorem ofLevels_subscribeLevel {ls : List PatternLevel} (h : ∀ l ∈ ls, IsProper l) :
    Filter.ofLevels (ls.map subscribeLevel) = .ok ⟨ls.map filterLevel, false⟩ := by
  have htext : FilterLevel.text ∘ filterLevel = subscribeLevel := by
    funext l
    cases l <;> rfl
  refine Filter.ofLevels_eq_ok_iff.mpr ⟨?_, fun l hl => ?_⟩
  · simp [Filter.written, htext]
  · obtain ⟨own, hmem, rfl⟩ := List.mem_map.mp hl
    exact isPlain_of_isProper (h own hmem)

theorem acceptsLevels_of_fill {ls : List PatternLevel} {filled : List String}
    (h : List.Forall₂ (fun l level => fillLevel fill l = .ok level) ls filled) :
    Filter.acceptsLevels false (ls.map filterLevel) filled = true := by
  induction h with
  | nil => rfl
  | @cons l level rest more hl _ ih =>
    have hfirst : (filterLevel l).accepts level = true := by
      cases l with
      | literal value =>
        cases hl
        exact beq_self_eq_true level
      | token name => rfl
    rw [List.map_cons, Filter.acceptsLevels, hfirst, ih]
    rfl

theorem toList_subscribeLevel (hl : IsProper l) :
    (subscribeLevel l).toList ≠ [] ∧ '/' ∉ (subscribeLevel l).toList := by
  cases l with
  | literal value => exact ⟨toList_ne_nil hl, notMem_of_isLevel hl rfl⟩
  | token name => exact ⟨by simp [subscribeLevel], by simp [subscribeLevel]⟩

theorem parse_subscribeFilter (h : parse property pattern space? tokens = .ok p) :
    Filter.parse p.subscribeFilter = .ok ⟨p.levels.map filterLevel, false⟩ := by
  have hproper : ∀ l ∈ p.levels, IsProper l := fun _ => isProper_of_parse h
  have hlevels : Text.levels p.subscribeFilter = p.levels.map subscribeLevel := by
    refine Text.levels_joinLevels (by simpa using levels_ne_nil h) fun level hlevel => ?_
    obtain ⟨l, hl, rfl⟩ := List.mem_map.mp hlevel
    exact (toList_subscribeLevel (hproper l hl)).2
  have hne : p.subscribeFilter ≠ "" := by
    intro hempty
    obtain ⟨l, rest, hls⟩ := List.exists_cons_of_ne_nil (levels_ne_nil h)
    have hl := (toList_subscribeLevel (hproper l (by simp [hls]))).1
    have hhead := Text.head?_joinLevels hl (rest.map subscribeLevel)
    rw [← List.map_cons, ← hls] at hhead
    change p.subscribeFilter.toList.head? = _ at hhead
    rw [hempty] at hhead
    exact hl (List.head?_eq_none_iff.mp hhead.symm)
  unfold Filter.parse
  rw [if_neg hne, hlevels, ofLevels_subscribeLevel hproper]

/-- The values put a dollar sign at the start of the topic, through a placeholder that stands for
its first level. -/
def FillsReserved (p : TopicPattern) (fill : TokenMap) : Prop :=
  ∃ name value, p.levels.head? = some (.token name) ∧ fill.get? name = some value ∧
    Filter.isReservedTopic value = true

theorem get?_of_fillLevel {name : String} (h : fillLevel fill (.token name) = .ok level) :
    fill.get? name = some level := by
  unfold fillLevel at h
  dsimp only at h
  split at h
  next value hvalue =>
    split at h <;> cases h
    exact hvalue
  next => cases h

theorem accepts_iff_of_fill {first : PatternLevel} {rest : List PatternLevel} {filled : List String}
    (hproper : ∀ l ∈ first :: rest, IsProper l)
    (h : List.Forall₂ (fun l level => fillLevel fill l = .ok level) (first :: rest) filled) :
    (⟨(first :: rest).map filterLevel, false⟩ : Filter).accepts (Text.joinLevels filled) = true ↔
      ¬ (⟨first :: rest⟩ : TopicPattern).FillsReserved fill := by
  have hlevel := isLevel_of_filled hproper h
  have haccepts := acceptsLevels_of_fill h
  cases h with
  | @cons _ level _ more hfirst _ =>
    have hlevels : Text.levels (Text.joinLevels (level :: more)) = level :: more :=
      Text.levels_joinLevels (by simp) fun l hl => notMem_of_isLevel (hlevel l hl) rfl
    have hreserved : Filter.isReservedTopic (Text.joinLevels (level :: more)) =
        Filter.isReservedTopic level := by
      unfold Filter.isReservedTopic
      rw [Text.head?_joinLevels (toList_ne_nil (hlevel level List.mem_cons_self))]
    unfold Filter.accepts
    rw [hlevels, haccepts, hreserved, Bool.and_true]
    cases first with
    | literal value =>
      refine iff_of_true rfl ?_
      rintro ⟨name, _, hname, -⟩
      cases hname
    | token name =>
      have hget := get?_of_fillLevel hfirst
      change (!Filter.isReservedTopic level) = true ↔ _
      rw [Bool.not_eq_true', ← Bool.not_eq_true]
      refine not_congr ⟨fun hdollar => ⟨name, level, rfl, hget, hdollar⟩, ?_⟩
      rintro ⟨_, value, hname, hvalue, hdollar⟩
      cases hname
      rw [hget] at hvalue
      cases hvalue
      exact hdollar

/-- The filter of a pattern reaches a topic made from it unless a placeholder in front was filled
with a value that starts with a dollar sign. -/
theorem accepts_iff_of_parse (h : parse property pattern space? tokens = .ok p) {topic : String}
    (ht : p.publishTopic fill = .ok topic) :
    (⟨p.levels.map filterLevel, false⟩ : Filter).accepts topic = true ↔ ¬ p.FillsReserved fill := by
  unfold publishTopic at ht
  obtain ⟨filled, hfilled, ht⟩ := exists_of_bind ht
  cases ht
  have hf := mapM_eq_ok_iff.mp hfilled
  have hproper : ∀ l ∈ p.levels, IsProper l := fun _ => isProper_of_parse h
  obtain ⟨first, rest, hls⟩ := List.exists_cons_of_ne_nil (levels_ne_nil h)
  obtain ⟨ls⟩ := p
  cases hls
  exact accepts_iff_of_fill hproper hf

end TopicPattern

variable {V W : Type}

section Channel

variable {client : Client} {clientId : String} {requestCodec responseCodec : Codec V}

theorem Channel.parse_of_create {o : InvokerOptions} {ch : Channel V}
    (h : Channel.create client clientId requestCodec responseCodec o = .ok ch) :
    TopicPattern.parse "request_topic_pattern" o.requestPattern o.space o.tokens =
      .ok ch.requestTopic ∧
    TopicPattern.parse "response_topic_pattern" (o.effectiveResponsePattern clientId) o.space
      o.tokens = .ok ch.responseTopic ∧
    ch.responseFilter = ch.responseTopic.subscribeFilter := by
  unfold Channel.create at h
  obtain ⟨_, -, h⟩ := exists_of_bind h
  obtain ⟨_, -, h⟩ := exists_of_bind h
  obtain ⟨_, -, h⟩ := exists_of_bind h
  obtain ⟨_, -, h⟩ := exists_of_bind h
  obtain ⟨request, hrequest, h⟩ := exists_of_bind h
  obtain ⟨response, hresponse, h⟩ := exists_of_bind h
  cases h
  exact ⟨hrequest, hresponse, rfl⟩

theorem Channel.publishTopic_of_topics {ch : Channel V} {fill : TokenMap}
    {request response : String} (h : ch.topics fill = .ok (request, response)) :
    ch.requestTopic.publishTopic fill = .ok request ∧
      ch.responseTopic.publishTopic fill = .ok response := by
  unfold Channel.topics at h
  obtain ⟨_, hrequest, h⟩ := exists_of_bind h
  obtain ⟨_, hresponse, h⟩ := exists_of_bind h
  cases h
  exact ⟨hrequest, hresponse⟩

theorem Executor.parse_of_command {handler : Handler V} {e : ExecutorOptions} {c : Command V}
    (h : Executor.command? requestCodec responseCodec handler e = .ok c) :
    ∃ p, TopicPattern.parse "request_topic_pattern" e.requestPattern e.space e.tokens = .ok p ∧
      c.requestFilter = p.subscribeFilter := by
  unfold Executor.command? at h
  obtain ⟨_, -, h⟩ := exists_of_bind h
  split at h
  · cases h
  · obtain ⟨p, hp, h⟩ := exists_of_bind h
    cases h
    exact ⟨p, hp, rfl⟩

/-- Every filter made from a pattern reads as one, and a topic made from the same pattern escapes it
only if it begins with a placeholder that was filled with a value starting with a dollar sign. So do
requests and responses of a command. -/
theorem TopicPattern.filter_reaches_iff :
    (∀ property pattern space? tokens p, parse property pattern space? tokens = .ok p →
      ∃ f, Filter.parse p.subscribeFilter = .ok f ∧
        ∀ fill topic, p.publishTopic fill = .ok topic →
          (f.accepts topic = true ↔ ¬ p.FillsReserved fill)) ∧
    ∀ client clientId (requestCodec responseCodec : Codec V) o ch,
      Channel.create client clientId requestCodec responseCodec o = .ok ch →
      (∃ f, Filter.parse ch.responseFilter = .ok f ∧
        ∀ fill request response, ch.topics fill = .ok (request, response) →
          (f.accepts response = true ↔ ¬ ch.responseTopic.FillsReserved fill)) ∧
      ∀ (requestCodec responseCodec : Codec W) handler e c,
        e.requestPattern = o.requestPattern → e.space = o.space → e.tokens = o.tokens →
        Executor.command? requestCodec responseCodec handler e = .ok c →
        ∃ f, Filter.parse c.requestFilter = .ok f ∧
          ∀ fill request response, ch.topics fill = .ok (request, response) →
            (f.accepts request = true ↔ ¬ ch.requestTopic.FillsReserved fill) := by
  refine ⟨fun _ _ _ _ p hp => ⟨_, parse_subscribeFilter hp, fun _ _ => accepts_iff_of_parse hp⟩, ?_⟩
  intro _ _ _ _ o ch hch
  obtain ⟨hrequest, hresponse, hfilter⟩ := Channel.parse_of_create hch
  refine ⟨⟨_, hfilter ▸ parse_subscribeFilter hresponse, fun _ _ _ ht => ?_⟩, ?_⟩
  · exact accepts_iff_of_parse hresponse (Channel.publishTopic_of_topics ht).2
  · intro _ _ _ e c hpattern hspace htokens hc
    obtain ⟨p, hp, hfilter⟩ := Executor.parse_of_command hc
    rw [hpattern, hspace, htokens, hrequest] at hp
    cases hp
    refine ⟨_, hfilter ▸ parse_subscribeFilter hrequest, fun _ _ _ ht => ?_⟩
    exact accepts_iff_of_parse hrequest (Channel.publishTopic_of_topics ht).1

end Channel

/-- An invoker and an executor of one command, with a pattern for its requests. -/
def echoChannel (pattern : String) : Except ProtocolError (Channel Bytes) :=
  Channel.create (.plain 0) "inv" .raw .raw { commandName := "echo", requestPattern := pattern }

def echoCommand (pattern : String) : Except ProtocolError (Command Bytes) :=
  Executor.command? .raw .raw (fun _ request => ⟨0, .ok ⟨request.payload, []⟩⟩)
    { commandName := "echo", requestPattern := pattern }

theorem TopicPattern.filter_reaches_placeholder :
    ∃ ch c f g, echoChannel "rpc/\x7bname\x7d" = .ok ch ∧ echoCommand "rpc/\x7bname\x7d" = .ok c ∧
      ch.topics [("name", "$x")] = .ok ("rpc/$x", "clients/inv/rpc/$x") ∧
      Filter.parse ch.responseFilter = .ok f ∧ f.accepts "clients/inv/rpc/$x" = true ∧
      Filter.parse c.requestFilter = .ok g ∧ g.accepts "rpc/$x" = true := by
  obtain ⟨ch, hch, ht, hrequest, hresponse⟩ : ∃ ch, echoChannel "rpc/\x7bname\x7d" = .ok ch ∧
      ch.topics [("name", "$x")] = .ok ("rpc/$x", "clients/inv/rpc/$x") ∧
      ch.requestTopic.levels.head? = some (.literal "rpc") ∧
      ch.responseTopic.levels.head? = some (.literal "clients") := ⟨_, rfl, rfl, rfl, rfl⟩
  obtain ⟨c, hc⟩ : ∃ c, echoCommand "rpc/\x7bname\x7d" = .ok c := ⟨_, rfl⟩
  obtain ⟨⟨f, hf, haccepts⟩, hexecutor⟩ :=
    TopicPattern.filter_reaches_iff.2 _ _ _ _ _ ch hch
  obtain ⟨g, hg, haccepts'⟩ := hexecutor _ _ _ _ c rfl rfl rfl hc
  refine ⟨ch, c, f, g, hch, hc, ht, hf, ?_, hg, ?_⟩
  · refine (haccepts _ _ _ ht).mpr ?_
    rintro ⟨_, _, hname, -⟩
    cases hresponse.symm.trans hname
  · refine (haccepts' _ _ _ ht).mpr ?_
    rintro ⟨_, _, hname, -⟩
    cases hrequest.symm.trans hname

/-- A placeholder in front takes a value that starts with a dollar sign; the invoker then publishes
to a topic that the executor, with the same pattern, does not receive. -/
theorem TopicPattern.reserved_value_escapes_filter :
    ∃ ch c f, echoChannel "\x7bname\x7d/rpc" = .ok ch ∧ echoCommand "\x7bname\x7d/rpc" = .ok c ∧
      ch.topics [("name", "$x")] = .ok ("$x/rpc", "clients/inv/$x/rpc") ∧
      Filter.parse c.requestFilter = .ok f ∧ f.accepts "$x/rpc" = false :=
  ⟨_, _, _, rfl, rfl, rfl, rfl, rfl⟩

end CommandBus
