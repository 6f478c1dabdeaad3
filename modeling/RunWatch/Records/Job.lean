import RunWatch.Records.Monitored
import RunWatch.Records.Status
import RunWatch.Text.Blank
namespace RunWatch
open Json

structure JobProgress where
  generation : UInt32
  bestFitness : Float
  avgFitness : Float
  worstFitness : Float
  bestMetrics : Option Metrics

def JobProgress.fields : List Field :=
  [required "generation",required "bestFitness",required "avgFitness",required "worstFitness",
   optional "bestMetrics"]

def JobProgress.ofSlots? : List (Option Json) → Option JobProgress
  | [generation,best,avg,worst,metrics] => do
    return ⟨← given? generation,← given? best,← given? avg,← given? worst,← givenOr? none metrics⟩
  | _ => none

instance : Coded JobProgress where
  encode p := record JobProgress.fields
    [encode p.generation,encode p.bestFitness,encode p.avgFitness,encode p.worstFitness,encode p.bestMetrics]
  decode? v := (slots? JobProgress.fields v).bind JobProgress.ofSlots?

structure JobRecord where
  id : String
  jobType : String
  status : JobStatus
  startedAt : Option Int64
  heartbeatAt : Option Int64
  isStaleFlag : Bool
  progress : Option JobProgress

def JobRecord.fields : List Field :=
  [required "id",required "jobType",required "status",optional "startedAt",optional "heartbeatAt",
   required "isStaleFlag",optional "progress"]

def JobRecord.ofSlots? : List (Option Json) → Option JobRecord
  | [id,jobType,status,startedAt,heartbeatAt,flag,progress] => do
    return ⟨← given? id,← given? jobType,← given? status,← givenOr? none startedAt,
      ← givenOr? none heartbeatAt,← given? flag,← givenOr? none progress⟩
  | _ => none

instance : Coded JobRecord where
  encode r := record JobRecord.fields [encode r.id,encode r.jobType,encode r.status,encode r.startedAt,
    encode r.heartbeatAt,encode r.isStaleFlag,encode r.progress]
  decode? v := (slots? JobRecord.fields v).bind JobRecord.ofSlots?

structure JobPatch where
  status : Option JobStatus := none
  heartbeatAt : Option Int64 := none
  isStaleFlag : Option Bool := none
  progress : Option JobProgress := none

def JobRecord.patch (p : JobPatch) (r : JobRecord) : JobRecord :=
  { r with
    status:=(p.status.map r.status.advance).getD r.status
    heartbeatAt:=p.heartbeatAt.or r.heartbeatAt
    isStaleFlag:=p.isStaleFlag.getD r.isStaleFlag
    progress:=p.progress.or r.progress }

instance : Monitored JobRecord where
  Patch := JobPatch
  id := JobRecord.id
  patch := JobRecord.patch
  isStale r now staleAfter := heartbeatIsStale r.status r.heartbeatAt r.isStaleFlag now staleAfter
  carryForward previous polled := { polled with status:=previous.status.advance polled.status }
  id_patch _ _ := rfl
  id_carryForward _ _ := rfl

structure JobRow where
  runId : String
  jobType : String
  status : JobStatus
  startedAt : Option Int64
  heartbeatAt : Option Int64
  isStale : Bool

def JobRow.fields : List Field :=
  [required "run_id",required "job_type",required "status",defaulted "started_at",
   defaulted "heartbeat_at",defaulted "is_stale"]

def JobRow.ofSlots? : List (Option Json) → Option JobRow
  | [runId,jobType,status,startedAt,heartbeatAt,isStale] => do
    return ⟨← given? runId,← given? jobType,← given? status,← givenOr? none startedAt,
      ← givenOr? none heartbeatAt,← givenOr? false isStale⟩
  | _ => none

def JobRow.accept (row : JobRow) : Except Fault JobRecord :=
  if Text.allBlank row.runId then .error (.argument .jobWithoutId)
  else .ok ⟨row.runId,row.jobType,row.status,row.startedAt,row.heartbeatAt,row.isStale,none⟩

instance : Row JobRow JobRecord where
  read? v := (slots? JobRow.fields v).bind JobRow.ofSlots?
  accept := JobRow.accept

end RunWatch
