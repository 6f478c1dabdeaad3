import RunWatch.Api.Phrase
import RunWatch.Fault
import RunWatch.Push.Frame
namespace RunWatch.Push

inductive Peer where
  | unreachable
  | refusing
  | declining (code : Nat)
  | sending (frames : List Frame) (drops : Bool)

inductive Delivery where
  | frame (f : Frame)
  | fault (cause : SocketFault)

def maxFrameSize : Nat := 4194304

def isPushUrl (url : String) : Bool :=
  "ws://".toList.isPrefixOf url.toList || "wss://".toList.isPrefixOf url.toList

def deliveries (drops : Bool) : List Frame → List Delivery
  | [] => [if drops then .fault .reset else .frame .close]
  | f :: rest =>
    if maxFrameSize < f.size then [.fault (.tooLong f.size maxFrameSize)]
    else .frame f :: deliveries drops rest

-- The scheme of the address is looked at once there is a connection.
def connect (url : String) (peer : Peer) : Except SocketFault (List Delivery) :=
  match peer with
  | .unreachable => .error .unreachable
  | .refusing => .error .refused
  | .declining code =>
    if isPushUrl url then .error (.handshake code (Api.phrase code)) else .error .unsupportedScheme
  | .sending frames drops =>
    if isPushUrl url then .ok (deliveries drops frames) else .error .unsupportedScheme

end RunWatch.Push
