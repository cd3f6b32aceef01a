import Lumen.Exchange

/-! One message from the message manager of the rover to the one of the base station: text,
packet, datagram, the fixed receive buffer of the server, the framing loop, the decision to pass
the payload up, and the text again. Each layer has a limit of its own; the smallest decides. -/
namespace Lumen

/-- The bytes the server keeps of a datagram. -/
def serverSockBufSize : Nat := 1024

namespace Message

/-- What is asked of the libraries about a message: parsing undoes writing, for the text and for
the time in it, and control characters are escaped, so that no marker occurs in the text. -/
structure Faithful (codec : Codec) (message : Message) : Prop where
  text : codec.parse (message.serialise codec) = some (message.toJson codec)
  time : ∃ stamp, codec.format message.timestamp = some stamp ∧
    codec.chronoParse "%FT%T%z" stamp = some message.timestamp
  noStx : lumenStx ∉ message.serialise codec
  noEtx : lumenEtx ∉ message.serialise codec

theorem levelOfName_levelName (level : StatusLevel) : levelOfName (levelName level) = some level := by
  cases level <;> rfl

theorem readings_toJson (codec : Codec) (sender : String) (timestamp : Nat)
    (readings : List (String × Float)) :
    (toJson codec ⟨sender,timestamp,.telemetry readings⟩).readings? "readings" = some readings := by
  have listed : (toJson codec ⟨sender,timestamp,.telemetry readings⟩).member? "readings" =
      some (.object (readings.map fun entry => (entry.1,.number entry.2))) := by
    simp [toJson,Json.member?]
  rw [Json.readings?,listed]
  dsimp only
  induction readings with
  | nil => rfl
  | cons first rest ih =>
    rw [List.map_cons,List.mapM_cons,ih (by simp [toJson,Json.member?])]
    rfl

/-- A text that parses to the form of a message is read as this message, with the time that its
time stamp is read as. -/
theorem deserialise_of_parse (codec : Codec) (message : Message) (now : Nat) (text : List UInt8)
    (parsed : codec.parse text = some (message.toJson codec)) :
    deserialise codec now text = some { message with
      timestamp := stringToTp codec now (tpToString codec message.timestamp) } := by
  obtain ⟨sender,timestamp,content⟩ := message
  rw [deserialise,parsed]
  cases content with
  | basic content =>
    simp [toJson,getType,Json.string?,Json.member?,basicFromJson,timestampOf]
  | command command params =>
    simp [toJson,getType,Json.string?,Json.member?,commandFromJson,timestampOf]
  | telemetry readings =>
    have values := readings_toJson codec sender timestamp readings
    simp only [toJson,getType] at values
    simp [toJson,getType,Json.string?,Json.member?,telemetryFromJson,values,timestampOf]
  | status level description =>
    simp [toJson,getType,Json.string?,Json.member?,statusFromJson,timestampOf,
      levelOfName_levelName]

/-- A message is read back with its class and all its fields. -/
theorem deserialise_serialise (codec : Codec) (message : Message) (now : Nat)
    (faithful : Faithful codec message) :
    deserialise codec now (message.serialise codec) = some message := by
  obtain ⟨stamp,written,read⟩ := faithful.time
  have time : stringToTp codec now (tpToString codec message.timestamp) = message.timestamp := by
    rw [tpToString,written,Option.getD_some,stringToTp,read]
  rw [deserialise_of_parse codec message now _ faithful.text,time]

theorem enumerators_inRange (message : Message) :
    message.getLumenType.value ≤ 5 ∧ message.getLumenPriority.value ≤ 2 := by
  obtain ⟨sender,timestamp,content⟩ := message
  cases content with
  | status level description =>
    cases level <;> simp only [getLumenType,getLumenPriority] <;> decide
  | basic | command | telemetry => simp only [getLumenType,getLumenPriority]; decide

theorem getLumenType_payload (message : Message) :
    message.getLumenType ≠ .ack ∧ message.getLumenType ≠ .nak := by
  obtain ⟨sender,timestamp,content⟩ := message
  cases content <;> simp only [getLumenType] <;> decide

end Message

/-! ### A datagram cut short -/

/-- Without a start marker nothing is handed on. -/
theorem extract_unmarked (buffer : List UInt8) (unmarked : lumenStx ∉ buffer) :
    (extract buffer).2 = [] := by
  cases buffer with
  | nil => rfl
  | cons first rest =>
    have unreadable : LumenHeader.fromBytes (first :: rest) = .ok none := by
      obtain ⟨result,parsed⟩ := LumenHeader.fromBytes_total (first :: rest)
      cases result with
      | none => exact parsed
      | some header =>
        obtain ⟨_,tail,same⟩ := (LumenHeader.fromBytes_some_iff _ header).mp parsed
        cases same
        exact absurd List.mem_cons_self unmarked
    exact extract_stop (by simp) (frameStep_lost _ (fun member => unmarked
      (List.mem_of_mem_drop member)) unreadable)

/-- The first bytes of a packet, its header among them, are no packet. A length that did not fit
its field makes them look like a whole frame, with a character of the text in the place of the end
marker. -/
theorem extract_cut (packet : LumenPacket) (size : Nat) (valid : packet.header.InRange)
    (headed : 10 ≤ size) (small : size ≤ 65536) (cut : size < packet.totalSize)
    (noStx : lumenStx ∉ packet.payload) (noEtx : lumenEtx ∉ packet.payload) :
    (extract (packet.toBytes.take size)).2 = [] := by
  have length : (packet.toBytes.take size).length = size := by
    rw [List.length_take,LumenPacket.toBytes_length]
    omega
  have split : packet.toBytes.take size =
      packet.header.toBytes ++ (packet.payload ++ [packet.calculatePacketCrc,lumenEtx]).take
        (size - 10) := by
    simp only [LumenPacket.toBytes,List.append_assoc]
    rw [List.take_append,List.take_of_length_le (by simpa using headed)]
    rfl
  have readable : LumenHeader.fromBytes (packet.toBytes.take size) = .ok (some packet.header) := by
    rw [split]
    exact LumenHeader.fromBytes_toBytes _ _ valid
  have nonempty : packet.toBytes.take size ≠ [] := by
    intro empty
    rw [empty] at length
    simp at length
    omega
  by_cases short : size < 10 + packet.header.payloadLength.toNat + 2
  · exact extract_stop nonempty (frameStep_waiting _ _ readable (by rw [length]; exact short))
  · have wraps : packet.header.payloadLength.toNat = packet.payload.length % 65536 := by
      rw [packet.declared,UInt16.toNat_ofNat']
    simp only [LumenPacket.totalSize,lumenHeaderSize] at cut
    obtain ⟨crc,etx,rest,follows⟩ := LumenPacket.exists_trailer
      ((packet.payload.take (size - 10)).drop packet.header.payloadLength.toNat)
      (by rw [List.length_drop,List.length_take]; omega)
    have text : packet.payload.take (size - 10) =
        packet.payload.take packet.header.payloadLength.toNat ++ crc :: etx :: rest := by
      have both := List.take_append_drop packet.header.payloadLength.toNat
        (packet.payload.take (size - 10))
      rw [follows,List.take_take,Nat.min_eq_left (by omega)] at both
      exact both.symm
    have inText : ∀ byte ∈ crc :: etx :: rest, byte ∈ packet.payload := fun byte member =>
      List.mem_of_mem_take (text ▸ List.mem_append_right _ member)
    have whole : packet.toBytes.take size = packet.header.toBytes ++
        packet.payload.take packet.header.payloadLength.toNat ++ crc :: etx :: rest := by
      rw [split,List.take_append_of_le_length (by omega),text,List.append_assoc]
    have broken : etx ≠ lumenEtx := fun same => noEtx (same ▸ inText etx (by simp))
    have dropped := frameStep_broken packet.header
      (packet.payload.take packet.header.payloadLength.toNat) rest crc etx valid
      (by rw [List.length_take]; omega) fun both => broken both.1
    rw [← whole] at dropped
    rw [extract_discard nonempty dropped]
    exact extract_unmarked rest fun member => noStx (inText lumenStx (by simp [member]))

/-! ### From one manager to the other -/

namespace MessageManager

open LumenProtocol Endpoint

/-- The datagrams that a change of the protocol gives to the socket. -/
def datagrams (s t : LumenProtocol) : List (List UInt8 × Endpoint) :=
  (newEffects s t).filterMap fun
    | .transmit packet recipient => some (packet.toBytes,recipient)
    | _ => none

/-- The call of the application's callback that a payload passed up ends in, if it does. -/
def applicationCall (codec : Codec) (m : MessageManager) : Effect → Option (Message × Endpoint)
  | .callback payload _ sender => (m.handleLumenMessage codec payload).map (·,sender)
  | _ => none

/-- The calls of the application's callback for a datagram received by the server. -/
def receiveData (codec : Codec) (m : MessageManager) (datagram : List UInt8) (endpoint : Endpoint) :
    List (Message × Endpoint) :=
  (newEffects m.protocol
    (handleUdpData codec m.protocol (datagram.take serverSockBufSize) endpoint)).filterMap
      (m.applicationCall codec)

/-- A running manager whose messages for the recipient leave to the base station. -/
structure Sends (sender : MessageManager) (recipient base : Endpoint) : Prop where
  running : sender.running = true
  destination : sender.protocol.destination recipient = some base

/-- A base station in a session, with nothing kept from the endpoint, that has not acknowledged
the number. -/
structure Listens (station : MessageManager) (endpoint : Endpoint) (number : UInt8) : Prop where
  running : station.running = true
  messageCallback : station.messageCallback = true
  mode : station.protocol.mode = .baseStation
  protocolRunning : station.protocol.running = true
  protocolCallback : station.protocol.messageCallback = true
  sessionActive : station.protocol.sessionActive = true
  frameBuffer : station.protocol.frameBuffers (getEndpointKey endpoint) = []
  fresh : station.protocol.reliabilityManager.hasAckedSequence number endpoint = false

/-- The message leaves as one datagram, and the datagram makes the base station's application
get the message, once. -/
def Transfers (codec : Codec) (sender station : MessageManager) (message : Message)
    (recipient base rover : Endpoint) : Prop :=
  ∃ datagram, datagrams sender.protocol
      (sender.sendMessage codec message recipient).protocol = [(datagram,base)] ∧
    station.receiveData codec datagram rover = [(message,rover)]

/-- The packet of a message. -/
def packetOf (codec : Codec) (sender : MessageManager) (message : Message) : LumenPacket :=
  sender.protocol.nextPacket (message.serialise codec) message.getLumenType message.getLumenPriority

theorem sendMessage_datagrams (codec : Codec) (sender : MessageManager) (message : Message)
    (recipient base : Endpoint) (sends : Sends sender recipient base) :
    datagrams sender.protocol (sender.sendMessage codec message recipient).protocol =
      [((sender.packetOf codec message).toBytes,base)] := by
  have added := sendMessage_effects sender.protocol (message.serialise codec) message.getLumenType
    message.getLumenPriority recipient
  rw [sends.destination,Option.toList_some,List.map_singleton] at added
  have given : (sender.sendMessage codec message recipient).protocol = sender.protocol.sendMessage
      (message.serialise codec) message.getLumenType message.getLumenPriority recipient := by
    simp [sendMessage,sends.running]
  rw [datagrams,given,newEffects_of_append added]
  rfl

theorem packetOf_inRange (codec : Codec) (sender : MessageManager) (message : Message) :
    (sender.packetOf codec message).header.InRange := message.enumerators_inRange

theorem packetOf_carriesPayload (codec : Codec) (sender : MessageManager) (message : Message) :
    CarriesPayload (sender.packetOf codec message) := message.getLumenType_payload

/-- The log of the base station for a framed datagram that finds its buffer empty. -/
theorem handleUdpData_fresh (codec : Codec) (s : LumenProtocol) (tail : List UInt8)
    (endpoint : Endpoint) (running : s.running = true)
    (empty : s.frameBuffers (getEndpointKey endpoint) = []) :
    (handleUdpData codec s (lumenStx :: tail) endpoint).effects =
      ((extract (lumenStx :: tail)).2.foldl
        (fun s packet => s.processCompletePacket packet endpoint)
        (s.setFrameBuffer (getEndpointKey endpoint) (lumenStx :: tail))).effects := by
  rw [handleUdpData_eq codec s tail endpoint running,empty,List.nil_append]
  rfl

theorem packetOf_size (codec : Codec) (sender : MessageManager) (message : Message) :
    (sender.packetOf codec message).totalSize = (message.serialise codec).length + 12 := by
  simp only [LumenPacket.totalSize,lumenHeaderSize,packetOf,nextPacket,LumenPacket.new]
  omega

/-- Cut short, the datagram is not passed up. -/
theorem receiveData_cut (codec : Codec) (sender station : MessageManager) (message : Message)
    (rover : Endpoint) (number : UInt8) (listens : Listens station rover number)
    (faithful : message.Faithful codec)
    (cut : serverSockBufSize < (message.serialise codec).length + 12) :
    station.receiveData codec (sender.packetOf codec message).toBytes rover = [] := by
  have nothing := extract_cut (sender.packetOf codec message) serverSockBufSize
    (packetOf_inRange codec sender message) (by decide) (by decide)
    (by rw [packetOf_size]; exact cut) faithful.noStx faithful.noEtx
  obtain ⟨tail,encoded⟩ := (sender.packetOf codec message).toBytes_cons
  have kept : (sender.packetOf codec message).toBytes.take serverSockBufSize =
      lumenStx :: tail.take 1023 := by
    rw [encoded]
    rfl
  have silent := handleUdpData_fresh codec station.protocol (tail.take 1023) rover
    listens.protocolRunning listens.frameBuffer
  rw [kept] at nothing
  rw [nothing] at silent
  rw [receiveData,newEffects,kept,silent]
  change (List.drop _ station.protocol.effects).filterMap _ = []
  rw [List.drop_length]
  rfl

/-- What the application gets from an answer that passes a payload up. -/
theorem answer_application (codec : Codec) (m : MessageManager) (s : LumenProtocol)
    (packet : LumenPacket) (endpoint : Endpoint) (payload : CarriesPayload packet)
    (forwards : s.forwards packet endpoint = true) :
    (s.answer packet endpoint).filterMap (m.applicationCall codec) =
      ((m.handleLumenMessage codec packet.payload).map (·,endpoint)).toList := by
  have acks : (if s.sessionActive then s.sent (s.ackPacket packet.header.sequence) endpoint
      else []).filterMap (m.applicationCall codec) = [] := by
    refine List.filterMap_eq_nil_iff.mpr fun effect member => ?_
    split at member
    · rw [(mem_sent.mp member).2]
      rfl
    · cases member
  rw [answer,if_neg payload.1,if_neg payload.2,List.filterMap_append,acks,if_pos forwards]
  cases called : m.handleLumenMessage codec packet.payload <;>
    simp [passedUp,applicationCall,called]

/-- Kept whole, the datagram gives the application the message. -/
theorem receiveData_whole (codec : Codec) (sender station : MessageManager) (message : Message)
    (rover : Endpoint) (listens : Listens station rover sender.protocol.currentSequence)
    (faithful : message.Faithful codec)
    (fits : (message.serialise codec).length + 12 ≤ serverSockBufSize) :
    station.receiveData codec (sender.packetOf codec message).toBytes rover = [(message,rover)] := by
  have size := packetOf_size codec sender message
  have valid : (sender.packetOf codec message).WellFormed := by
    refine (LumenPacket.wellFormed_iff _).mpr ⟨packetOf_inRange codec sender message,?_⟩
    simp only [LumenPacket.totalSize,lumenHeaderSize] at size
    simp only [serverSockBufSize] at fits
    omega
  have kept : (sender.packetOf codec message).toBytes.take serverSockBufSize =
      (sender.packetOf codec message).toBytes :=
    List.take_of_length_le (by rw [LumenPacket.toBytes_length,size]; exact fits)
  have framed : extract (sender.packetOf codec message).toBytes =
      ([],[sender.packetOf codec message]) :=
    extract_inSync [] _ valid (Or.inl rfl) (Or.inl rfl)
  obtain ⟨tail,encoded⟩ := (sender.packetOf codec message).toBytes_cons
  have log := handleUdpData_fresh codec station.protocol tail rover listens.protocolRunning
    listens.frameBuffer
  rw [← encoded,framed,List.foldl_cons,List.foldl_nil,
    processCompletePacket_answer _ _ _ (by exact listens.mode)] at log
  have added : newEffects station.protocol
      (handleUdpData codec station.protocol (sender.packetOf codec message).toBytes rover) = _ :=
    newEffects_of_append log
  have forwards : (station.protocol.setFrameBuffer (getEndpointKey rover)
      (sender.packetOf codec message).toBytes).forwards (sender.packetOf codec message) rover =
        true := by
    simp only [forwards,Bool.and_eq_true,Bool.not_eq_true']
    exact ⟨listens.fresh,listens.protocolCallback⟩
  have read : station.handleLumenMessage codec (message.serialise codec) = some message := by
    have parsed : Message.isValidJson codec (message.serialise codec) = true := by
      simp [Message.isValidJson,faithful.text]
    simp [handleLumenMessage,listens.running,parsed,listens.messageCallback,
      message.deserialise_serialise codec _ faithful]
  have carries := packetOf_carriesPayload codec sender message
  rw [receiveData,kept,added,List.filterMap_cons]
  change ((station.protocol.setFrameBuffer _ _).answer _ rover).filterMap _ = _
  rw [answer_application codec station _ _ rover carries forwards]
  change ((station.handleLumenMessage codec (message.serialise codec)).map _).toList = _
  rw [read]
  rfl

/-- A message is received exactly when its packet fits the receive buffer of the server. -/
theorem message_received_iff (codec : Codec) (sender station : MessageManager) (message : Message)
    (recipient base rover : Endpoint) (sends : Sends sender recipient base)
    (listens : Listens station rover sender.protocol.currentSequence)
    (faithful : message.Faithful codec) :
    Transfers codec sender station message recipient base rover ↔
      (message.serialise codec).length + 12 ≤ serverSockBufSize := by
  have sent := sendMessage_datagrams codec sender message recipient base sends
  constructor
  · rintro ⟨datagram,leaves,received⟩
    by_contra long
    rw [sent] at leaves
    cases leaves
    rw [receiveData_cut codec sender station message rover _ listens faithful (Nat.lt_of_not_le long)]
      at received
    cases received
  · intro fits
    exact ⟨_,sent,receiveData_whole codec sender station message rover listens faithful fits⟩

/-- A library that knows one text. -/
def knownText (text : List UInt8) (json : Json) : Codec :=
  ⟨fun _ => text,fun bytes => if bytes = text then some json else none,
    fun _ => some "1970-01-01T00:00:00.000000000+0000",fun _ _ => some 0,fun _ => "",fun _ => none⟩

def sampleMessage (content : List Char) : Message := ⟨"rover-a",0,.basic (String.ofList content)⟩

/-- The text of that message. -/
def sampleText (content : List Char) : List UInt8 :=
  ("\x7b\"content\":\"".toList ++ content ++
    ("\",\"msg_type\":\"BasicMessage\",\"sender\":\"rover-a\"," ++
      "\"timestamp\":\"1970-01-01T00:00:00.000000000+0000\"\x7d").toList).map
    fun character => UInt8.ofNat character.toNat

def sampleCodec (content : List Char) : Codec :=
  knownText (sampleText content) ((sampleMessage content).toJson (knownText [] .null))

def stationEndpoint : Endpoint := ⟨0x0aed0001,9000⟩

def roverEndpoint : Endpoint := ⟨0x0aed0002,9001⟩

def sampleSender : MessageManager := ⟨true,true,.started .rover stationEndpoint ⟨0,0⟩,[]⟩

def sampleReceiver : MessageManager :=
  ⟨true,true,(LumenProtocol.started .baseStation stationEndpoint ⟨0,0⟩).setSessionActive true,[]⟩

theorem sampleSender_sends : Sends sampleSender stationEndpoint stationEndpoint :=
  ⟨rfl,by decide +kernel⟩

theorem sampleReceiver_listens :
    Listens sampleReceiver roverEndpoint sampleSender.protocol.currentSequence :=
  ⟨rfl,rfl,by decide +kernel,by decide +kernel,by decide +kernel,by decide +kernel,
    by decide +kernel,by decide +kernel⟩

theorem sampleCodec_faithful (content : List Char) (noStx : lumenStx ∉ sampleText content)
    (noEtx : lumenEtx ∉ sampleText content) :
    (sampleMessage content).Faithful (sampleCodec content) :=
  ⟨if_pos rfl,⟨_,rfl,rfl⟩,noStx,noEtx⟩

def hello : List Char := ['h','e','l','l','o']

theorem message_received_hello :
    Transfers (sampleCodec hello) sampleSender sampleReceiver (sampleMessage hello)
      stationEndpoint stationEndpoint roverEndpoint :=
  (message_received_iff (sampleCodec hello) sampleSender sampleReceiver (sampleMessage hello)
    stationEndpoint stationEndpoint roverEndpoint sampleSender_sends sampleReceiver_listens
    (sampleCodec_faithful hello (by decide +kernel) (by decide +kernel))).mpr (by decide +kernel)

/-- A message of a thousand letters. -/
def longContent : List Char := List.replicate 1000 'a'

/-- It leaves as one datagram, and nothing comes of it. -/
theorem long_message_lost :
    Sends sampleSender stationEndpoint stationEndpoint ∧
    Listens sampleReceiver roverEndpoint sampleSender.protocol.currentSequence ∧
    (sampleMessage longContent).Faithful (sampleCodec longContent) ∧
    ¬ Transfers (sampleCodec longContent) sampleSender sampleReceiver (sampleMessage longContent)
        stationEndpoint stationEndpoint roverEndpoint := by
  have faithful := sampleCodec_faithful longContent (by decide +kernel) (by decide +kernel)
  have long : 1012 < ((sampleMessage longContent).serialise (sampleCodec longContent)).length := by
    decide +kernel
  have sent := sendMessage_datagrams (sampleCodec longContent) sampleSender
    (sampleMessage longContent) stationEndpoint stationEndpoint sampleSender_sends
  have nothing := receiveData_cut (sampleCodec longContent) sampleSender sampleReceiver
    (sampleMessage longContent) roverEndpoint _ sampleReceiver_listens faithful
    (Nat.add_lt_add_right long 12)
  refine ⟨sampleSender_sends,sampleReceiver_listens,faithful,?_⟩
  rintro ⟨datagram,leaves,received⟩
  rw [sent] at leaves
  cases leaves
  rw [nothing] at received
  cases received

end MessageManager

end Lumen
