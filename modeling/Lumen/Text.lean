import Lumen.Transfer

/-! Messages as text. What a message writes is read back as this message, and data that arrives
without a frame is passed up once as text that can be read: as it came when it is a message, and
otherwise as the content of one. A library that knows the texts of a handshake lets examples run. -/
namespace Lumen

namespace Message

/-- Each class reads its own text back: the sender, the time and every field, and with them the
type and the priority it travels with. -/
theorem serialised_read_back (codec : Codec) (message : Message) (now : Nat)
    (text : codec.parse (codec.dump (message.toJson codec)) = some (message.toJson codec))
    (time : stringToTp codec now (tpToString codec message.timestamp) = message.timestamp) :
    ∃ back, deserialise codec now (message.serialise codec) = some back ∧ back = message ∧
      back.getType = message.getType ∧ back.getLumenType = message.getLumenType ∧
      back.getLumenPriority = message.getLumenPriority := by
  refine ⟨message,?_,rfl,rfl,rfl,rfl⟩
  rw [serialise,deserialise_of_parse codec message now _ text,time]

/-- A status message, and its text. -/
def lowBattery : Message := ⟨"rover-a",0,.status .critical "low battery"⟩

def lowBatteryText : List UInt8 :=
  ("\x7b\"description\":\"low battery\",\"level\":\"CRITICAL\",\"msg_type\":\"StatusMessage\"," ++
    "\"sender\":\"rover-a\",\"timestamp\":\"1970-01-01T00:00:00.000000000+0000\"\x7d").toList.map
    fun character => UInt8.ofNat character.toNat

def lowBatteryCodec : Codec :=
  MessageManager.knownText lowBatteryText (lowBattery.toJson (MessageManager.knownText [] .null))

theorem lowBattery_read_back :
    ∃ back, deserialise lowBatteryCodec 5 (lowBattery.serialise lowBatteryCodec) = some back ∧
      back = lowBattery ∧ back.getType = lowBattery.getType ∧
      back.getLumenType = lowBattery.getLumenType ∧
      back.getLumenPriority = lowBattery.getLumenPriority := by
  refine serialised_read_back lowBatteryCodec lowBattery 5 ?_ ?_
  · simp only [lowBatteryCodec,MessageManager.knownText,if_true,toJson,tpToString]
  · rfl

/-- Whether a text is a message does not depend on when it is read. -/
theorem deserialise_isSome (codec : Codec) (now later : Nat) (text : List UInt8) :
    (deserialise codec now text).isSome = (deserialise codec later text).isSome := by
  simp only [deserialise]
  cases codec.parse text with
  | none => rfl
  | some json =>
    cases named : json.string? "msg_type" with
    | none => simp [named]
    | some msgType =>
      cases sent : json.string? "sender" with
      | none => simp [named,sent]
      | some sender =>
        simp only [named,sent,Option.bind_eq_bind,Option.bind_some]
        split
        · simp [basicFromJson,Option.isSome_bind]
        split
        · simp [commandFromJson,Option.isSome_bind]
        split
        · simp [telemetryFromJson,Option.isSome_bind]
        split
        · simp [statusFromJson,Option.isSome_bind]
        · rfl

end Message

/-! ### Data without a frame -/

namespace LumenProtocol

open Endpoint

/-- The message that data without a frame is wrapped in. -/
def rawMessage (s : LumenProtocol) (endpoint : Endpoint) (content : String) : Message :=
  ⟨"Unknown:" ++ getEndpointKey endpoint,s.clock.system,.basic content⟩

/-- Data that is passed up as it came: it starts with a brace and is a message. -/
def IsRawMessage (codec : Codec) (s : LumenProtocol) (data : List UInt8) : Prop :=
  data.head? = some 0x7b ∧ (Message.deserialise codec s.clock.system data).isSome = true

instance (codec : Codec) (s : LumenProtocol) (data : List UInt8) :
    Decidable (IsRawMessage codec s data) :=
  inferInstanceAs (Decidable (_ ∧ _))

/-- The payloads handed to the callback of a node for one datagram without a frame. -/
def rawPayloads (codec : Codec) (s : LumenProtocol) (data : List UInt8) (endpoint : Endpoint) :
    List (List UInt8) :=
  if IsRawMessage codec s data then [data]
  else ((String.fromUTF8? ⟨data.toArray⟩).map fun content =>
    (rawMessage s endpoint content).serialise codec).toList

/-- The node with its callback called once for each payload, and nothing else changed. -/
def withCalls (s : LumenProtocol) (endpoint : Endpoint) (payloads : List (List UInt8)) :
    LumenProtocol :=
  { s with effects := s.effects ++
      payloads.map fun payload => .callback payload (s.dummyHeader payload) endpoint }

theorem passUp_withCalls (s : LumenProtocol) (payload : List UInt8) (endpoint : Endpoint)
    (callback : s.messageCallback = true) :
    s.passUp payload endpoint = s.withCalls endpoint [payload] := by
  simp [passUp,callback,emit,withCalls]

/-- Every outcome of the two `try` blocks, in one equation. -/
theorem handleUdpData_rawPayloads (codec : Codec) (s : LumenProtocol) (data : List UInt8)
    (endpoint : Endpoint) (running : s.running = true) (callback : s.messageCallback = true)
    (nonempty : data ≠ []) (unframed : data.head? ≠ some lumenStx) :
    handleUdpData codec s data endpoint = s.withCalls endpoint (rawPayloads codec s data endpoint) := by
  obtain ⟨first,tail,rfl⟩ := List.exists_cons_of_ne_nil nonempty
  have other : first ≠ lumenStx := by simpa using unframed
  simp only [handleUdpData,running,Bool.not_true,Bool.false_eq_true,if_false,if_neg other]
  by_cases message : IsRawMessage codec s (first :: tail)
  · have brace : first = 0x7b := Option.some.inj message.1
    rw [if_pos ⟨brace,message.2⟩,rawPayloads,if_pos message]
    exact passUp_withCalls s _ endpoint callback
  · rw [if_neg fun both => message ⟨congrArg some both.1,both.2⟩,rawPayloads,if_neg message,wrapRaw]
    cases String.fromUTF8? ⟨(first :: tail).toArray⟩ with
    | none => simp [withCalls]
    | some content => exact passUp_withCalls s _ endpoint callback

theorem fromUTF8_some {bytes : ByteArray} {content : String}
    (decoded : String.fromUTF8? bytes = some content) : content.toByteArray = bytes := by
  rw [String.fromUTF8?] at decoded
  split at decoded
  next valid => cases decoded; rfl
  next => cases decoded

theorem fromUTF8_isSome {bytes : ByteArray} (valid : bytes.IsValidUTF8) :
    (String.fromUTF8? bytes).isSome = true := by
  rw [String.fromUTF8?,dif_pos valid]
  rfl

theorem rawPayloads_length (codec : Codec) (s : LumenProtocol) (data : List UInt8)
    (endpoint : Endpoint) :
    (rawPayloads codec s data endpoint).length ≤ 1 ∧
      (ByteArray.IsValidUTF8 ⟨data.toArray⟩ → (rawPayloads codec s data endpoint).length = 1) := by
  by_cases message : IsRawMessage codec s data
  · simp [rawPayloads,if_pos message]
  · simp only [rawPayloads,if_neg message]
    cases decoded : String.fromUTF8? ⟨data.toArray⟩ with
    | none =>
      refine ⟨Nat.zero_le 1,fun valid => ?_⟩
      have decodes := fromUTF8_isSome valid
      rw [decoded] at decodes
      cases decodes
    | some content => simp

/-- Whatever is handed on is a message, also when it is read later. -/
theorem rawPayloads_accepted (codec : Codec) (s : LumenProtocol) (data : List UInt8)
    (endpoint : Endpoint)
    (undone : ∀ content : String, content.toByteArray = ⟨data.toArray⟩ →
      codec.parse (codec.dump ((rawMessage s endpoint content).toJson codec)) =
        some ((rawMessage s endpoint content).toJson codec)) :
    ∀ payload ∈ rawPayloads codec s data endpoint,
      (∀ now, (Message.deserialise codec now payload).isSome = true) ∧
        if IsRawMessage codec s data then payload = data
        else ∃ content : String, content.toByteArray = ⟨data.toArray⟩ ∧
          payload = (rawMessage s endpoint content).serialise codec := by
  intro payload member
  by_cases message : IsRawMessage codec s data
  · rw [rawPayloads,if_pos message] at member
    obtain rfl := List.mem_singleton.mp member
    rw [if_pos message]
    exact ⟨fun now => (Message.deserialise_isSome codec now _ payload).trans message.2,rfl⟩
  · rw [rawPayloads,if_neg message,Option.mem_toList,Option.map_eq_some_iff] at member
    obtain ⟨content,decoded,rfl⟩ := member
    have whole := fromUTF8_some decoded
    rw [if_neg message]
    refine ⟨fun now => ?_,content,whole,rfl⟩
    rw [Message.serialise,Message.deserialise_of_parse codec _ now _ (undone content whole)]
    rfl

/-- Data without a frame is passed up once, or not at all when it is no text, and always as a
message: the data itself, or a message with the data as its content. Nothing else of the node
changes. -/
theorem unframed_passed_up_once (codec : Codec) (s : LumenProtocol) (data : List UInt8)
    (endpoint : Endpoint) (running : s.running = true) (callback : s.messageCallback = true)
    (nonempty : data ≠ []) (unframed : data.head? ≠ some lumenStx)
    (undone : ∀ content : String, content.toByteArray = ⟨data.toArray⟩ →
      codec.parse (codec.dump ((rawMessage s endpoint content).toJson codec)) =
        some ((rawMessage s endpoint content).toJson codec)) :
    let t := handleUdpData codec s data endpoint
    (∃ payloads : List (List UInt8), t = s.withCalls endpoint payloads ∧ payloads.length ≤ 1 ∧
      (ByteArray.IsValidUTF8 ⟨data.toArray⟩ → payloads.length = 1) ∧
      ∀ payload ∈ payloads, (∀ now, (Message.deserialise codec now payload).isSome = true) ∧
        if IsRawMessage codec s data then payload = data
        else ∃ content : String, content.toByteArray = ⟨data.toArray⟩ ∧
          payload = (rawMessage s endpoint content).serialise codec) ∧
    t.frameBuffers = s.frameBuffers ∧ t.currentSequence = s.currentSequence ∧
    t.reliabilityManager = s.reliabilityManager ∧
    ∀ packet recipient, Effect.transmit packet recipient ∉ newEffects s t := by
  intro t
  have same : t = s.withCalls endpoint (rawPayloads codec s data endpoint) :=
    handleUdpData_rawPayloads codec s data endpoint running callback nonempty unframed
  obtain ⟨few,once⟩ := rawPayloads_length codec s data endpoint
  have accepted := rawPayloads_accepted codec s data endpoint undone
  refine ⟨⟨_,same,few,once,accepted⟩,by rw [same]; rfl,by rw [same]; rfl,by rw [same]; rfl,?_⟩
  intro packet recipient member
  rw [same,newEffects,withCalls,List.drop_left] at member
  simp at member

/-- Two letters from a rover, and the text they are wrapped in. -/
def greeting : List UInt8 := [0x68,0x69]

def greetingText : List UInt8 :=
  ("\x7b\"content\":\"hi\",\"msg_type\":\"BasicMessage\",\"sender\":\"Unknown:10.237.0.2:9001\"," ++
    "\"timestamp\":\"1970-01-01T00:00:00.000000000+0000\"\x7d").toList.map
    fun character => UInt8.ofNat character.toNat

def greetingCodec : Codec :=
  MessageManager.knownText greetingText
    ((rawMessage (started .baseStation .unspecified ⟨0,0⟩) sampleRover "hi").toJson
      (MessageManager.knownText [] .null))

/-- They are passed up once. -/
theorem greeting_passed_up :
    ∃ payloads : List (List UInt8),
      handleUdpData greetingCodec (started .baseStation .unspecified ⟨0,0⟩) greeting sampleRover =
        withCalls (started .baseStation .unspecified ⟨0,0⟩) sampleRover payloads ∧
      payloads.length = 1 := by
  have letters : "hi".toByteArray = ⟨greeting.toArray⟩ := by decide
  have undone (content : String) (whole : content.toByteArray = ⟨greeting.toArray⟩) :
      greetingCodec.parse (greetingCodec.dump ((rawMessage (started .baseStation .unspecified ⟨0,0⟩)
        sampleRover content).toJson greetingCodec)) =
      some ((rawMessage (started .baseStation .unspecified ⟨0,0⟩) sampleRover content).toJson
        greetingCodec) := by
    obtain rfl : content = "hi" := String.toByteArray_inj.mp (whole.trans letters.symm)
    simp only [greetingCodec,MessageManager.knownText,if_true,Message.toJson,rawMessage,
      Message.tpToString]
  obtain ⟨⟨payloads,same,_,once,_⟩,_⟩ := unframed_passed_up_once greetingCodec
    (started .baseStation .unspecified ⟨0,0⟩) greeting sampleRover rfl rfl (by decide) (by decide) undone
  exact ⟨payloads,same,once (letters ▸ "hi".isValidUTF8)⟩

end LumenProtocol

/-! ### A library for the handshake -/

namespace Texts

open Message

def text? : String × Json → Option (String × String)
  | (key,.string value) => some (key,value)
  | _ => none

def member (entry : String × String) : String × Json := (entry.1,.string entry.2)

/-- The members of an object that holds strings only. -/
def flat? : Json → Option (List (String × String))
  | .object members => members.mapM text?
  | _ => none

theorem flat?_eq {json : Json} {members : List (String × String)} (flat : flat? json = some members) :
    json = .object (members.map member) := by
  cases json with
  | object entries =>
    simp only [flat?] at flat
    congr 1
    induction entries generalizing members with
    | nil =>
      cases flat
      rfl
    | cons entry rest ih =>
      simp only [List.mapM_cons,Option.bind_eq_bind,Option.bind_eq_some_iff] at flat
      obtain ⟨first,read,others,later,made⟩ := flat
      cases made
      obtain ⟨key,value⟩ := entry
      cases value with
      | string value =>
        cases read
        rw [List.map_cons,← ih later]
        rfl
      | null | bool | number | array | object => cases read
  | null | bool | number | string | array => cases flat

def bytesOf (text : String) : List UInt8 := text.toUTF8.data.toList

/-- A flat object whose strings need no escapes. -/
def write (members : List (String × String)) : List UInt8 :=
  0x7b :: ([0x2c].intercalate (members.map fun entry =>
    0x22 :: (bytesOf entry.1 ++ [0x22,0x3a,0x22] ++ bytesOf entry.2 ++ [0x22])) ++ [0x7d])

/-- The JSON library as far as a few flat objects are concerned. -/
def library (known : List (List (String × String))) : Codec where
  dump := fun json => ((flat? json).filter (· ∈ known)).elim [0x7b] write
  parse := fun text => (known.find? fun members => write members = text).map fun members =>
    .object (members.map member)
  format := fun _ => some "1970-01-01T00:00:00.000000000+0000"
  chronoParse := fun _ _ => some 0
  fixed := fun _ => ""
  stod := fun _ => none

/-- The strings of a command. -/
def commandMembers (sender command params : String) : List (String × String) :=
  [("command",command),("msg_type","CommandMessage"),("params",params),("sender",sender),
    ("timestamp","1970-01-01T00:00:00.000000000+0000")]

def handshakeTexts : List (List (String × String)) := [
  commandMembers "rover-a" "SESSION_INIT" "rover-a",
  commandMembers "base" "SESSION_ACCEPT" "base",
  commandMembers "rover-a" "SESSION_CONFIRM" "rover-a",
  commandMembers "base" "SESSION_ESTABLISHED" "base",
  commandMembers "base" "SET_LOW_POWER" "1",
  [("description","System OK"),("level","OK"),("msg_type","StatusMessage"),("sender","rover-a"),
    ("timestamp","1970-01-01T00:00:00.000000000+0000")]]

def handshakeLibrary : Codec := library handshakeTexts

theorem handshakeTexts_distinct : ∀ members ∈ handshakeTexts, ∀ others ∈ handshakeTexts,
    write members = write others → members = others := by decide +kernel

end Texts

end Lumen
