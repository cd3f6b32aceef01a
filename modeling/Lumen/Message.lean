import Lumen.Header

/-! Application messages and their JSON form. The JSON library and the text functions of
the standard library are outside the repository; `Codec` is what the code asks of them.
Strings are valid UTF-8, on which `dump` does not throw. -/
namespace Lumen

inductive Json where
  | null
  | bool (value : Bool)
  | number (value : Float)
  | string (value : String)
  | array (items : List Json)
  | object (members : List (String × Json))

namespace Json

/-- `contains` and `operator[]`: only objects have members. -/
def member? (key : String) : Json → Option Json
  | .object members => (members.find? (fun entry => entry.1 = key)).map Prod.snd
  | _ => none

/-- The guard `contains(key) && j[key].is_string()`, with the string when it passes. -/
def string? (key : String) (json : Json) : Option String :=
  match json.member? key with
  | some (.string value) => some value
  | _ => none

/-- `get<std::map<std::string, double>>()`, which throws on a member that is no number. -/
def readings? (key : String) (json : Json) : Option (List (String × Float)) :=
  match json.member? key with
  | some (.object members) => members.mapM fun entry =>
      match entry.2 with
      | .number value => some (entry.1,value)
      | _ => none
  | _ => none

end Json

structure Codec where
  dump : Json → List UInt8
  parse : List UInt8 → Option Json
  /-- `std::format` with `{:%FT%T%z}`; none is a format error. -/
  format : Nat → Option String
  /-- `std::chrono::parse` with the given pattern. -/
  chronoParse : String → String → Option Nat
  /-- A stream insertion with `std::fixed` and six decimals. -/
  fixed : Float → String
  /-- `std::stod`; none is the exception. -/
  stod : String → Option Float

/-- A library without text, for runs that neither parse nor format any. -/
def Codec.silent : Codec :=
  ⟨fun _ => [],fun _ => none,fun _ => none,fun _ _ => none,fun _ => "",fun _ => none⟩

inductive StatusLevel where
  | ok
  | warning
  | error
  | critical
  deriving DecidableEq, Repr

inductive Content where
  | basic (content : String)
  | command (command params : String)
  | telemetry (readings : List (String × Float))
  | status (level : StatusLevel) (description : String)

/-- The base class holds sender and creation time, the subclasses the content. -/
structure Message where
  sender : String
  timestamp : Nat
  content : Content

namespace Message

def getType (message : Message) : String :=
  match message.content with
  | .basic _ => "BasicMessage"
  | .command _ _ => "CommandMessage"
  | .telemetry _ => "TelemetryMessage"
  | .status _ _ => "StatusMessage"

def getLumenPriority (message : Message) : Priority :=
  match message.content with
  | .basic _ => .medium
  | .command _ _ => .high
  | .telemetry _ => .medium
  | .status .ok _ => .low
  | .status .warning _ => .medium
  | .status .error _ => .high
  | .status .critical _ => .high

def getLumenType (message : Message) : MessageType :=
  match message.content with
  | .basic _ => .data
  | .command _ _ => .cmd
  | .telemetry _ => .data
  | .status _ _ => .status

def isCommand (name : String) (message : Message) : Bool :=
  match message.content with
  | .command command _ => command = name
  | _ => false

/-- Any of the four commands of the handshake. -/
def isHandshake (message : Message) : Bool :=
  message.isCommand "SESSION_INIT" ∨ message.isCommand "SESSION_ACCEPT" ∨
    message.isCommand "SESSION_CONFIRM" ∨ message.isCommand "SESSION_ESTABLISHED"

/-- None of them. -/
def Plain (message : Message) : Prop := message.isHandshake = false

theorem plain_self (message : Message) (plain : message.isHandshake = false) : message.Plain := plain

theorem Plain.isCommand {message : Message} (plain : message.Plain) :
    message.isCommand "SESSION_INIT" = false ∧ message.isCommand "SESSION_ACCEPT" = false ∧
      message.isCommand "SESSION_CONFIRM" = false ∧
      message.isCommand "SESSION_ESTABLISHED" = false := by
  simpa [Plain,isHandshake] using plain

theorem isCommand_unique {message : Message} {name other : String}
    (this : message.isCommand name = true) (that : message.isCommand other = true) :
    name = other := by
  obtain ⟨id,timestamp,content⟩ := message
  cases content with
  | command command params => exact (of_decide_eq_true this).symm.trans (of_decide_eq_true that)
  | basic | telemetry | status => cases this

def levelName : StatusLevel → String
  | .ok => "OK"
  | .warning => "WARNING"
  | .error => "ERROR"
  | .critical => "CRITICAL"

def levelOfName (name : String) : Option StatusLevel :=
  if name = "OK" then some .ok
  else if name = "WARNING" then some .warning
  else if name = "ERROR" then some .error
  else if name = "CRITICAL" then some .critical
  else none

variable (codec : Codec)

def tpToString (timestamp : Nat) : String :=
  (codec.format timestamp).getD "TimeFormatError"

/-- Both patterns are tried; failure falls back to the current time. -/
def stringToTp (now : Nat) (text : String) : Nat :=
  match codec.chronoParse "%FT%T%z" text with
  | some timestamp => timestamp
  | none =>
    match codec.chronoParse "%FT%T%Z" text with
    | some timestamp => timestamp
    | none => now

/-- The objects are kept in key order, the order of the library's map. -/
def toJson (message : Message) : Json :=
  let msgType := ("msg_type",Json.string message.getType)
  let sender := ("sender",Json.string message.sender)
  let timestamp := ("timestamp",Json.string (tpToString codec message.timestamp))
  match message.content with
  | .basic content => .object [("content",.string content),msgType,sender,timestamp]
  | .command command params =>
    .object [("command",.string command),msgType,("params",.string params),sender,timestamp]
  | .telemetry readings =>
    .object [msgType,("readings",.object (readings.map fun entry => (entry.1,.number entry.2))),
      sender,timestamp]
  | .status level description =>
    .object [("description",.string description),("level",.string (levelName level)),msgType,
      sender,timestamp]

def serialise (message : Message) : List UInt8 := codec.dump (message.toJson codec)

/-- The optional creation time of all four `from_json` functions. -/
def timestampOf (now : Nat) (json : Json) : Nat :=
  match json.string? "timestamp" with
  | some text => stringToTp codec now text
  | none => now

def basicFromJson (now : Nat) (json : Json) : Option Message := do
  let content ← json.string? "content"
  let sender ← json.string? "sender"
  return ⟨sender,timestampOf codec now json,.basic content⟩

def commandFromJson (now : Nat) (json : Json) : Option Message := do
  let command ← json.string? "command"
  let params ← json.string? "params"
  let sender ← json.string? "sender"
  return ⟨sender,timestampOf codec now json,.command command params⟩

def telemetryFromJson (now : Nat) (json : Json) : Option Message := do
  let readings ← json.readings? "readings"
  let sender ← json.string? "sender"
  return ⟨sender,timestampOf codec now json,.telemetry readings⟩

def statusFromJson (now : Nat) (json : Json) : Option Message := do
  let levelStr ← json.string? "level"
  let description ← json.string? "description"
  let sender ← json.string? "sender"
  let level ← levelOfName levelStr
  return ⟨sender,timestampOf codec now json,.status level description⟩

def isValidJson (text : List UInt8) : Bool := (codec.parse text).isSome

/-- The factory; none stands for the exception every failure ends in. -/
def deserialise (now : Nat) (text : List UInt8) : Option Message := do
  let json ← codec.parse text
  let msgType ← json.string? "msg_type"
  let _sender ← json.string? "sender"
  if msgType = "BasicMessage" then basicFromJson codec now json
  else if msgType = "CommandMessage" then commandFromJson codec now json
  else if msgType = "TelemetryMessage" then telemetryFromJson codec now json
  else if msgType = "StatusMessage" then statusFromJson codec now json
  else none

end Message

end Lumen
