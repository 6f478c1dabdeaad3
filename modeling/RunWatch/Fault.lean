import RunWatch.Decimal.Layout
namespace RunWatch

inductive ArgumentFault where
  | jobWithoutId
  | sessionWithoutId
  | unknownDirection (word : String)
  | positionNotFinite
  | candleNotFinite
  | runId (id : String)
  | scheme (field : String) (schemes : List String)
  | outOfBounds (field : String) (low high : Nat)
  | emptyWindow
  | histogramNotFinite
  | histogramWithoutRange
  | histogramUnusable (low high step : Float)
  | histogramTooFine (bins : Float)
  | stated (words : String)

inductive PayloadFault where
  | unreadable
  | progressWithoutRun
  | fitnessNotFinite
  | pnlNotFinite
  | positionWithoutSymbol
  | stated (words : String)

inductive RequestFault where
  | unsent (url : String)
  | status (code : Nat) (phrase : String) (url : String)
  | undecodable

inductive SocketFault where
  | closed
  | alreadyClosed
  | notUtf8
  | refused
  | unreachable
  | unsupportedScheme
  | handshake (code : Nat) (phrase : String)
  | reset
  | tooLong (size limit : Nat)

inductive Fault where
  | argument (cause : ArgumentFault)
  | emptyGrid
  | payload (cause : PayloadFault)
  | remediation (collection reason : String)
  | request (cause : RequestFault)
  | socket (cause : SocketFault)
  | windowNotFound (label : String)

def maxBins : Nat := 10000

def plainNumber (f : Float) : String := Decimal.write .plain f

def ArgumentFault.message : ArgumentFault → String
  | .jobWithoutId => "job record without run_id"
  | .sessionWithoutId => "session record without session_id"
  | .unknownDirection word => "unknown position direction '" ++ word ++ "'"
  | .positionNotFinite => "position values must be finite"
  | .candleNotFinite => "candle values must be finite"
  | .runId id => "invalid run id '" ++ id ++ "'"
  | .scheme field schemes => field ++ " must start with one of " ++ ", ".intercalate schemes
  | .outOfBounds field low high => field ++ " must be between " ++ toString low ++ " and " ++ toString high
  | .emptyWindow => "rolling window must be at least 1"
  | .histogramNotFinite => "histogram bounds and step must be finite"
  | .histogramWithoutRange => "histogram requires step > 0 and max > min"
  | .histogramUnusable low high step =>
    "histogram range " ++ plainNumber low ++ ".." ++ plainNumber high ++ " with step " ++
      plainNumber step ++ " yields no usable bins"
  | .histogramTooFine bins =>
    "histogram would need " ++ plainNumber bins ++ " bins; at most " ++ toString maxBins ++ " allowed"
  | .stated words => words

def PayloadFault.message : PayloadFault → String
  | .unreadable => "no push message"
  | .progressWithoutRun => "progress message without run_id"
  | .fitnessNotFinite => "fitness values must be finite"
  | .pnlNotFinite => "pnl values must be finite"
  | .positionWithoutSymbol => "position update without symbol"
  | .stated words => words

def RequestFault.message : RequestFault → String
  | .unsent url => "error sending request for url (" ++ url ++ ")"
  | .status code phrase url =>
    let side := if code < 500 then "client" else "server"
    "HTTP status " ++ side ++ " error (" ++ toString code ++ " " ++ phrase ++ ") for url (" ++ url ++ ")"
  | .undecodable => "error decoding response body"

def SocketFault.message : SocketFault → String
  | .closed => "Connection closed normally"
  | .alreadyClosed => "Trying to work with closed connection"
  | .notUtf8 => "UTF-8 encoding error"
  | .refused => "IO error: Connection refused (os error 111)"
  | .unreachable => "IO error: Network is unreachable (os error 101)"
  | .unsupportedScheme => "URL error: URL scheme not supported"
  | .handshake code phrase => "HTTP error: " ++ toString code ++ " " ++ phrase
  | .reset => "WebSocket protocol error: Connection reset without closing handshake"
  | .tooLong size limit =>
    "Space limit exceeded: Message too long: " ++ toString size ++ " > " ++ toString limit

def Fault.message : Fault → String
  | .argument cause => "invalid argument: " ++ cause.message
  | .emptyGrid => "time grid is empty; snapping requires at least one bar"
  | .payload cause => "malformed push payload: " ++ cause.message
  | .remediation collection reason => "remediation failed for " ++ collection ++ ": " ++ reason
  | .request cause => "request error: " ++ cause.message
  | .socket cause => "websocket error: " ++ cause.message
  | .windowNotFound label => "window not found: " ++ label

end RunWatch
