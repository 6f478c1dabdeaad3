import RunWatch.Json.Fields
namespace RunWatch
open Json

inductive JobStatus where
  | queued | running | completed | failed | cancelled
deriving DecidableEq

instance : Coded JobStatus where
  encode
    | .queued => .text "queued"
    | .running => .text "running"
    | .completed => .text "completed"
    | .failed => .text "failed"
    | .cancelled => .text "cancelled"
  decode? := word? [("queued",.queued),("running",.running),("completed",.completed),
    ("failed",.failed),("cancelled",.cancelled)]

def JobStatus.terminal : JobStatus → Bool
  | .queued | .running => false
  | .completed | .failed | .cancelled => true

def JobStatus.accepts (status next : JobStatus) : Bool := !status.terminal || next.terminal

def JobStatus.advance (status reported : JobStatus) : JobStatus :=
  if status.accepts reported then reported else status

-- How long ago, as a 64-bit number; a distance that does not fit counts as the
-- largest or smallest one that does.
def elapsed (since now : Int64) : Int64 := Int64.ofIntClamp (now.toInt - since.toInt)

def heartbeatIsStale (status : JobStatus) (heartbeatAt : Option Int64) (flag : Bool)
    (now staleAfter : Int64) : Bool :=
  !status.terminal && (flag || heartbeatAt.any fun beat => staleAfter < elapsed beat now)

end RunWatch
