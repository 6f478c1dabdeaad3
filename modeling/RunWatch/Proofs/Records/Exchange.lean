import RunWatch.Api.Client
import RunWatch.Chart.Marker
import RunWatch.Generations
import RunWatch.Histogram
import RunWatch.Proofs.Json.Exchanged
import RunWatch.Records.Session
import RunWatch.Series
import RunWatch.Session.Status
namespace RunWatch
open Json

instance : Plain JobStatus := ⟨fun _ => True⟩
instance : Plain Direction := ⟨fun _ => True⟩
instance : Plain Chart.Side := ⟨fun _ => True⟩
instance : Plain Chart.MarkerKind := ⟨fun _ => True⟩
instance : Plain ConnectionState := ⟨fun _ => True⟩

instance : Exchanged JobStatus :=
  exchanged_words (fun _ => trivial) (fun s => by cases s <;> exact ⟨_,rfl,by decide⟩) fun _ => rfl

instance : Exchanged Direction :=
  exchanged_words (fun _ => trivial) (fun d => by cases d <;> exact ⟨_,rfl,by decide⟩) fun _ => rfl

instance : Exchanged Chart.Side :=
  exchanged_words (fun _ => trivial) (fun s => by cases s <;> exact ⟨_,rfl,by decide⟩) fun _ => rfl

instance : Exchanged Chart.MarkerKind :=
  exchanged_words (fun _ => trivial) (fun k => by cases k <;> exact ⟨_,rfl,by decide⟩) fun _ => rfl

instance : Exchanged ConnectionState :=
  exchanged_words (fun _ => trivial) (fun s => by cases s <;> exact ⟨_,rfl,by decide⟩) fun _ => rfl

instance : Recorded JobProgress where
  fields := JobProgress.fields
  parts p := [.required p.generation,.required p.bestFitness,.required p.avgFitness,
    .required p.worstFitness,.optional p.bestMetrics]
  ofSlots? := JobProgress.ofSlots?
  read_parts
    | [_,_,_,_,_], _, ⟨_,_,_,_,_⟩ => by simp [JobProgress.ofSlots?,Part.Reads,Option.bind_eq_some_iff]

instance : Recorded JobRecord where
  fields := JobRecord.fields
  parts r := [.required r.id,.required r.jobType,.required r.status,.optional r.startedAt,
    .optional r.heartbeatAt,.required r.isStaleFlag,.optional r.progress]
  ofSlots? := JobRecord.ofSlots?
  read_parts
    | [_,_,_,_,_,_,_], _, ⟨_,_,_,_,_,_,_⟩ => by
      simp [JobRecord.ofSlots?,Part.Reads,Option.bind_eq_some_iff,-Bool.exists_bool]

instance : Recorded PositionRecord where
  fields := PositionRecord.fields
  parts r := [.required r.symbol,.required r.direction,.required r.entryPrice,.required r.quantity,
    .required r.leverage,.required r.unrealizedPnl,.optional r.pushedAt]
  ofSlots? := PositionRecord.ofSlots?
  read_parts
    | [_,_,_,_,_,_,_], _, ⟨_,_,_,_,_,_,_⟩ => by
      simp [PositionRecord.ofSlots?,Part.Reads,Option.bind_eq_some_iff]

instance : Recorded SessionRecord where
  fields := SessionRecord.fields
  parts r := [.required r.id,.required r.status,.optional r.startedAt,.optional r.heartbeatAt,
    .required r.isStaleFlag,.optional r.totalPnl,.optional r.equity]
  ofSlots? := SessionRecord.ofSlots?
  read_parts
    | [_,_,_,_,_,_,_], _, ⟨_,_,_,_,_,_,_⟩ => by
      simp [SessionRecord.ofSlots?,Part.Reads,Option.bind_eq_some_iff,-Bool.exists_bool]

instance : Recorded Sample where
  fields := Sample.fields
  parts s := [.required s.generation,.required s.best,.required s.avg,.required s.worst]
  ofSlots? := Sample.ofSlots?
  read_parts
    | [_,_,_,_], _, ⟨_,_,_,_⟩ => by simp [Sample.ofSlots?,Part.Reads,Option.bind_eq_some_iff]

instance : Recorded Chart.Candle where
  fields := Chart.Candle.fields
  parts c := [.required c.openTime,.required c.opening,.required c.high,.required c.low,.required c.closing,
    .required c.volume]
  ofSlots? := Chart.Candle.ofSlots?
  read_parts
    | [_,_,_,_,_,_], _, ⟨_,_,_,_,_,_⟩ => by simp [Chart.Candle.ofSlots?,Part.Reads,Option.bind_eq_some_iff]

instance : Recorded Chart.Trade where
  fields := Chart.Trade.fields
  parts t := [.required t.time,.required t.kind,.required t.side,.required t.label]
  ofSlots? := Chart.Trade.ofSlots?
  read_parts
    | [_,_,_,_], _, ⟨_,_,_,_⟩ => by simp [Chart.Trade.ofSlots?,Part.Reads,Option.bind_eq_some_iff]

instance : Recorded Chart.Marker where
  fields := Chart.Marker.fields
  parts m := [.required m.snappedTime,.required m.eventTime,.required m.kind,.required m.side,
    .required m.label]
  ofSlots? := Chart.Marker.ofSlots?
  read_parts
    | [_,_,_,_,_], _, ⟨_,_,_,_,_⟩ => by simp [Chart.Marker.ofSlots?,Part.Reads,Option.bind_eq_some_iff]

instance : Recorded Chart.MarkerRequest where
  fields := Chart.MarkerRequest.fields
  parts r := [.required r.runId,.required r.trades]
  ofSlots? := Chart.MarkerRequest.ofSlots?
  read_parts
    | [_,_], _, ⟨_,_⟩ => by simp [Chart.MarkerRequest.ofSlots?,Part.Reads,Option.bind_eq_some_iff]

instance : Recorded Series.Point where
  fields := Series.Point.fields
  parts p := [.required p.t,.required p.value]
  ofSlots? := Series.Point.ofSlots?
  read_parts
    | [_,_], _, ⟨_,_⟩ => by simp [Series.Point.ofSlots?,Part.Reads,Option.bind_eq_some_iff]

instance : Recorded Series.RatioRequest where
  fields := Series.RatioRequest.fields
  parts r := [.required r.points,.required r.window]
  ofSlots? := Series.RatioRequest.ofSlots?
  read_parts
    | [_,_], _, ⟨_,_⟩ => by simp [Series.RatioRequest.ofSlots?,Part.Reads,Option.bind_eq_some_iff]

instance : Recorded Histogram.LabelledBin where
  fields := Histogram.LabelledBin.fields
  parts b := [.required b.rangeLabel,.required b.center,.required b.count]
  ofSlots? := Histogram.LabelledBin.ofSlots?
  read_parts
    | [_,_,_], _, ⟨_,_,_⟩ => by simp [Histogram.LabelledBin.ofSlots?,Part.Reads,Option.bind_eq_some_iff]

instance : Recorded Histogram.Request where
  fields := Histogram.Request.fields
  parts r := [.required r.values,.required r.min,.required r.max,.required r.step]
  ofSlots? := Histogram.Request.ofSlots?
  read_parts
    | [_,_,_,_], _, ⟨_,_,_,_⟩ => by simp [Histogram.Request.ofSlots?,Part.Reads,Option.bind_eq_some_iff]

instance : Recorded MonitorStatus where
  fields := MonitorStatus.fields
  parts s := [.required s.state,.required s.pushUrl,.required s.reconnectAttempt,.optional s.lastMessageAt,
    .required s.staleJobs,.required s.staleSessions,.optional s.reason]
  ofSlots? := MonitorStatus.ofSlots?
  read_parts
    | [_,_,_,_,_,_,_], _, ⟨_,_,_,_,_,_,_⟩ => by
      simp [MonitorStatus.ofSlots?,Part.Reads,Option.bind_eq_some_iff]

instance : Recorded StartRequest where
  fields := StartRequest.fields
  parts r := [.optional r.apiBaseUrl,.optional r.pushUrl,.optional r.positionsPollMs,
    .optional r.discoveryPollMs,.optional r.jobsPollMs,.optional r.sessionsPollMs,.optional r.staleAfterMs,
    .optional r.flashMs,.optional r.sessionId]
  ofSlots? := StartRequest.ofSlots?
  read_parts
    | [_,_,_,_,_,_,_,_,_], _, ⟨_,_,_,_,_,_,_,_,_⟩ => by
      simp [StartRequest.ofSlots?,Part.Reads,Option.bind_eq_some_iff]

instance : Recorded Api.KillRequest where
  fields := Api.KillRequest.fields
  parts r := [.required r.runId]
  ofSlots? := Api.KillRequest.ofSlots?
  read_parts
    | [_], _, ⟨_⟩ => by simp [Api.KillRequest.ofSlots?,Part.Reads,Option.bind_eq_some_iff]

structure Form where
  Value : Type
  [coded : Coded Value]
  [plain : Plain Value]
  [exchanged : Exchanged Value]

attribute [instance] Form.coded Form.plain Form.exchanged

inductive Kind where
  | job | progress | position | session | sample
  | candle | trade | marker | point | bin
  | status | start | kill | markers | ratio | histogram
  | jobStatus | direction | side | markerKind | connection

def Kind.form : Kind → Form
  | .job => ⟨JobRecord⟩
  | .progress => ⟨JobProgress⟩
  | .position => ⟨PositionRecord⟩
  | .session => ⟨SessionRecord⟩
  | .sample => ⟨Sample⟩
  | .candle => ⟨Chart.Candle⟩
  | .trade => ⟨Chart.Trade⟩
  | .marker => ⟨Chart.Marker⟩
  | .point => ⟨Series.Point⟩
  | .bin => ⟨Histogram.LabelledBin⟩
  | .status => ⟨MonitorStatus⟩
  | .start => ⟨StartRequest⟩
  | .kill => ⟨Api.KillRequest⟩
  | .markers => ⟨Chart.MarkerRequest⟩
  | .ratio => ⟨Series.RatioRequest⟩
  | .histogram => ⟨Histogram.Request⟩
  | .jobStatus => ⟨JobStatus⟩
  | .direction => ⟨Direction⟩
  | .side => ⟨Chart.Side⟩
  | .markerKind => ⟨Chart.MarkerKind⟩
  | .connection => ⟨ConnectionState⟩

def ofText? [Coded α] (text : String) : Option α := (Reading.polled.read? text).bind decode?

def toText [Coded α] (a : α) : String := write (encode a)

def Clear [Coded α] (a : α) : Prop := ∀ f ∈ doubles (encode a), Legible f

-- What was read is not changed by writing it and reading that; nor is any other value that
-- has a spelling, if it does not nest deeper than the reader goes.
structure Faithful (α : Type) [Coded α] [Plain α] : Prop where
  accepted : ∀ (text : String) (a : α), ofText? text = some a → Clear a → ofText? (toText a) = some a
  idempotent : ∀ (text : String) (a : α), ofText? text = some a → Clear a →
    (ofText? (toText a) : Option α).map toText = (ofText? text : Option α).map toText
  kept : ∀ a : α, plain a → depth (encode a) ≤ 127 → Clear a → ofText? (toText a) = some a

theorem ofText_toText [Coded α] [Plain α] [Exchanged α] {a : α} (plain : plain a)
    (shallow : depth (encode a) ≤ 127) (clear : Clear a) : ofText? (toText a) = some a := by
  rw [ofText?,toText,read_write (encode_writable plain) clear shallow]
  exact decode_encode plain

theorem ofText_plain [Coded α] [Plain α] [Exchanged α] {text : String} {a : α} (read : ofText? text = some a) :
    plain a ∧ depth (encode a) ≤ 127 := by
  obtain ⟨v,document,decoded⟩ := Option.bind_eq_some_iff.mp read
  exact ⟨decode_plain decoded,Nat.le_trans (decode_depth decoded) (read_depth rfl document)⟩

theorem exchanged_faithful (k : Kind) : Faithful k.form.Value where
  accepted _ _ read clear := ofText_toText (ofText_plain read).1 (ofText_plain read).2 clear
  idempotent _ _ read clear := by
    have again := ofText_toText (ofText_plain read).1 (ofText_plain read).2 clear
    exact congrArg (Option.map toText) (again.trans read.symm)
  kept _ plain shallow clear := ofText_toText plain shallow clear

theorem generation_read_again : ∃ p : JobProgress,
    ofText? "[5,3,2,1,\x7b\"b\":4,\"a\":null\x7d]" = some p ∧ p.bestMetrics.isSome = true ∧
      ofText? (toText p) = some p ∧ ofText? (toText JobStatus.queued) = some JobStatus.queued := by
  let metrics : Metrics := ⟨.object [("a",.null),("b",.int 4)],rfl⟩
  let p : JobProgress := ⟨5,3.0,2.0,1.0,some metrics⟩
  let number (n : Nat) : Token := .number ⟨false,n,0,none,false⟩
  have split : tokens? false "[5,3,2,1,\x7b\"b\":4,\"a\":null\x7d]".toList = some [.openArray,number 5,.comma,
      number 3,.comma,number 2,.comma,number 1,.comma,.openObject,.text (some "b"),.colon,number 4,.comma,
      .text (some "a"),.colon,.null,.closeObject,.closeArray] := by decide +kernel
  have read : ofText? "[5,3,2,1,\x7b\"b\":4,\"a\":null\x7d]" = some p := by
    rw [ofText?,Reading.read?,show Reading.polled.hasty = false from rfl,split]
    rfl
  have written : encode p = .object [("generation",.int 5),("bestFitness",.float 3.0),("avgFitness",.float 2.0),
      ("worstFitness",.float 1.0),("bestMetrics",.object [("a",.null),("b",.int 4)])] := by
    change record JobProgress.fields [encode (5 : UInt32),encode (3.0 : Float),encode (2.0 : Float),
      encode (1.0 : Float),metrics.document] = _
    rw [show encode (5 : UInt32) = .int 5 from rfl,show encode (3.0 : Float) = .float 3.0 from rfl,
      show encode (2.0 : Float) = .float 2.0 from rfl,show encode (1.0 : Float) = .float 1.0 from rfl]
    rfl
  have clear : Clear p := by
    have legible : Legible 3.0 ∧ Legible 2.0 ∧ Legible 1.0 := ⟨rfl,rfl,rfl⟩
    simpa [Clear,written,doubles,doublesOfMembers] using legible
  have wordless : Clear JobStatus.queued := by
    simp [Clear,doubles,show encode JobStatus.queued = .text "queued" from rfl]
  exact ⟨p,read,rfl,(exchanged_faithful .progress).accepted _ p read clear,
    (exchanged_faithful .jobStatus).kept .queued trivial (Nat.zero_le _) wordless⟩

end RunWatch
