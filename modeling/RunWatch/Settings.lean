import RunWatch.Fault
import RunWatch.Json.Fields
import RunWatch.Text.Blank
namespace RunWatch
open Json

structure Environment where
  apiBaseUrl : Option String := none
  pushUrl : Option String := none

def defaultApiBaseUrl : String := "http://127.0.0.1:8000"
def defaultPushUrl : String := "ws://127.0.0.1:8000/ws"

structure StartRequest where
  apiBaseUrl : Option String := none
  pushUrl : Option String := none
  positionsPollMs : Option UInt64 := none
  discoveryPollMs : Option UInt64 := none
  jobsPollMs : Option UInt64 := none
  sessionsPollMs : Option UInt64 := none
  staleAfterMs : Option UInt64 := none
  flashMs : Option UInt64 := none
  sessionId : Option String := none

def StartRequest.fields : List Field :=
  [optional "apiBaseUrl",optional "pushUrl",optional "positionsPollMs",optional "discoveryPollMs",
   optional "jobsPollMs",optional "sessionsPollMs",optional "staleAfterMs",optional "flashMs",
   optional "sessionId"]

def StartRequest.ofSlots? : List (Option Json) → Option StartRequest
  | [api,push,positions,discovery,jobs,sessions,stale,flash,session] => do
    return ⟨← givenOr? none api,← givenOr? none push,← givenOr? none positions,
      ← givenOr? none discovery,← givenOr? none jobs,← givenOr? none sessions,
      ← givenOr? none stale,← givenOr? none flash,← givenOr? none session⟩
  | _ => none

instance : Coded StartRequest where
  encode r := record StartRequest.fields [encode r.apiBaseUrl,encode r.pushUrl,
    encode r.positionsPollMs,encode r.discoveryPollMs,encode r.jobsPollMs,encode r.sessionsPollMs,
    encode r.staleAfterMs,encode r.flashMs,encode r.sessionId]
  decode? v := (slots? StartRequest.fields v).bind StartRequest.ofSlots?

structure Settings where
  apiBaseUrl : String
  pushUrl : String
  positionsPollMs : UInt64
  discoveryPollMs : UInt64
  jobsPollMs : UInt64
  sessionsPollMs : UInt64
  staleAfterMs : UInt64
  flashMs : UInt64
  sessionId : Option String

def fromSurroundings (ambient : Option String) (default : String) : String :=
  (ambient.bind Text.content?).getD default

-- The address asked for, else that of the surroundings, else the default; white
-- space around it does not count, and blank ones count as missing.
def chosenUrl (asked ambient : Option String) (default : String) : String :=
  (asked.bind Text.content?).getD (fromSurroundings ambient default)

def withoutSlashes (url : String) : String := String.ofList (Text.dropEnd (· == '/') url.toList)

def startsWithOneOf (schemes : List String) (url : String) : Bool :=
  schemes.any fun scheme => scheme.toList.isPrefixOf url.toList

structure UrlRule where
  field : String
  default : String
  schemes : List String

def UrlRule.api : UrlRule := ⟨"apiBaseUrl",defaultApiBaseUrl,["http://","https://"]⟩
def UrlRule.push : UrlRule := ⟨"pushUrl",defaultPushUrl,["ws://","wss://"]⟩

def UrlRule.resolve (rule : UrlRule) (asked ambient : Option String) : Except Fault String :=
  let url := withoutSlashes (chosenUrl asked ambient rule.default)
  if startsWithOneOf rule.schemes url then .ok url
  else .error (.argument (.scheme rule.field rule.schemes))

structure DurationRule where
  field : String
  default : UInt64
  low : UInt64
  high : UInt64

def DurationRule.positionsPoll : DurationRule := ⟨"positionsPollMs",5000,1000,300000⟩
def DurationRule.discoveryPoll : DurationRule := ⟨"discoveryPollMs",10000,1000,300000⟩
def DurationRule.jobsPoll : DurationRule := ⟨"jobsPollMs",15000,1000,300000⟩
def DurationRule.sessionsPoll : DurationRule := ⟨"sessionsPollMs",15000,1000,300000⟩
def DurationRule.staleAfter : DurationRule := ⟨"staleAfterMs",60000,5000,3600000⟩
def DurationRule.flash : DurationRule := ⟨"flashMs",600,50,10000⟩

def DurationRule.resolve (rule : DurationRule) (asked : Option UInt64) : Except Fault UInt64 :=
  let value := asked.getD rule.default
  if rule.low ≤ value ∧ value ≤ rule.high then .ok value
  else .error (.argument (.outOfBounds rule.field rule.low.toNat rule.high.toNat))

-- The settings that a request comes to. Of several faults the first in the order of
-- the fields is reported.
def Settings.ofRequest (r : StartRequest) (env : Environment) : Except Fault Settings := do
  let apiBaseUrl ← UrlRule.api.resolve r.apiBaseUrl env.apiBaseUrl
  let pushUrl ← UrlRule.push.resolve r.pushUrl env.pushUrl
  let positionsPollMs ← DurationRule.positionsPoll.resolve r.positionsPollMs
  let discoveryPollMs ← DurationRule.discoveryPoll.resolve r.discoveryPollMs
  let jobsPollMs ← DurationRule.jobsPoll.resolve r.jobsPollMs
  let sessionsPollMs ← DurationRule.sessionsPoll.resolve r.sessionsPollMs
  let staleAfterMs ← DurationRule.staleAfter.resolve r.staleAfterMs
  let flashMs ← DurationRule.flash.resolve r.flashMs
  return ⟨apiBaseUrl,pushUrl,positionsPollMs,discoveryPollMs,jobsPollMs,sessionsPollMs,staleAfterMs,
    flashMs,r.sessionId.bind Text.content?⟩

def Settings.asRequest (s : Settings) : StartRequest :=
  ⟨some s.apiBaseUrl,some s.pushUrl,some s.positionsPollMs,some s.discoveryPollMs,some s.jobsPollMs,
    some s.sessionsPollMs,some s.staleAfterMs,some s.flashMs,s.sessionId⟩

def Settings.document (s : Settings) : Json :=
  .object [("running",encode true),("apiBaseUrl",encode s.apiBaseUrl),("pushUrl",encode s.pushUrl),
    ("positionsPollMs",encode s.positionsPollMs),("discoveryPollMs",encode s.discoveryPollMs),
    ("jobsPollMs",encode s.jobsPollMs),("sessionsPollMs",encode s.sessionsPollMs),
    ("staleAfterMs",encode s.staleAfterMs),("flashMs",encode s.flashMs),("sessionId",encode s.sessionId)]

structure About where
  productName : String
  version : String
  identifier : String
  apiBaseUrl : String
  pushUrl : String

def About.of (productName version identifier : String) (env : Environment) : About :=
  ⟨productName,version,identifier,fromSurroundings env.apiBaseUrl defaultApiBaseUrl,
    fromSurroundings env.pushUrl defaultPushUrl⟩

def About.document (a : About) : Json :=
  .object [("productName",encode a.productName),("version",encode a.version),
    ("identifier",encode a.identifier),("apiBaseUrl",encode a.apiBaseUrl),("pushUrl",encode a.pushUrl)]

end RunWatch
