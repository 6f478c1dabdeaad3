import RunWatch.Api.Address
import RunWatch.Api.Client
import RunWatch.Api.Exchange
import RunWatch.Api.Phrase
import RunWatch.Board
import RunWatch.Chart.Candle
import RunWatch.Chart.Grid
import RunWatch.Chart.Marker
import RunWatch.Decimal.Layout
import RunWatch.Decimal.Shortest
import RunWatch.Desk
import RunWatch.Fault
import RunWatch.Flash
import RunWatch.Generations
import RunWatch.Histogram
import RunWatch.Json.Basic
import RunWatch.Json.Coded
import RunWatch.Json.Fields
import RunWatch.Json.Literal
import RunWatch.Json.Meaning
import RunWatch.Json.Piece
import RunWatch.Json.Reading
import RunWatch.Json.Token
import RunWatch.Json.Writing
import RunWatch.Push.Channel
import RunWatch.Push.Frame
import RunWatch.Push.Message
import RunWatch.Records.Job
import RunWatch.Records.Monitored
import RunWatch.Records.Position
import RunWatch.Records.Row
import RunWatch.Records.Session
import RunWatch.Records.Status
import RunWatch.Roster.Basic
import RunWatch.Roster.Collection
import RunWatch.Roster.Operation
import RunWatch.Series
import RunWatch.Session.Event
import RunWatch.Session.Monitor
import RunWatch.Session.Rehearsal
import RunWatch.Session.Script
import RunWatch.Session.Status
import RunWatch.Settings
import RunWatch.Text.Blank
import RunWatch.Proofs.Lookup
import RunWatch.Proofs.Roster.Lifecycle
import RunWatch.Proofs.Roster.Remediation
import RunWatch.Proofs.Roster.Replay
import RunWatch.Proofs.Roster.Revision
import RunWatch.Proofs.Flash.Run
import RunWatch.Proofs.Flash.Expiry
import RunWatch.Proofs.Flash.Signals
import RunWatch.Proofs.Generations.History
import RunWatch.Proofs.Board.Rosters
import RunWatch.Proofs.Board.Run
import RunWatch.Proofs.Board.Effects
import RunWatch.Proofs.Board.Progress
import RunWatch.Proofs.Board.Pruning
import RunWatch.Proofs.Session.Run
import RunWatch.Proofs.Session.Display
import RunWatch.Proofs.Session.Turns
import RunWatch.Proofs.Session.History
import RunWatch.Proofs.Session.Cleanups
import RunWatch.Proofs.Session.Ledger
import RunWatch.Proofs.Session.Episodes
import RunWatch.Proofs.Board.Acceptance
import RunWatch.Proofs.Roster.Pushes
import RunWatch.Proofs.Board.Independence
import RunWatch.Proofs.Session.Channel
import RunWatch.Proofs.Session.Protocol
import RunWatch.Proofs.Session.Reconnect
import RunWatch.Proofs.Board.Staleness
import RunWatch.Proofs.Session.Refresh
import RunWatch.Proofs.Push.Spellings
import RunWatch.Proofs.Json.Numerals
import RunWatch.Proofs.Json.Roundtrip
import RunWatch.Proofs.Json.Nesting
import RunWatch.Proofs.Json.Exchanged
import RunWatch.Proofs.Records.Exchange
import RunWatch.Proofs.Api.Rows
import RunWatch.Proofs.Board.Polling
import RunWatch.Proofs.Chart.Placement
import RunWatch.Proofs.Chart.Bars
import RunWatch.Proofs.Series.Window
import RunWatch.Proofs.Histogram.Counting
import RunWatch.Proofs.Histogram.Doubles
import RunWatch.Proofs.Generations.Fitness
import RunWatch.Proofs.Histogram.Partition
import RunWatch.Proofs.Api.Address
import RunWatch.Proofs.Api.Paths
import RunWatch.Proofs.Text
import RunWatch.Proofs.Settings.Addresses
import RunWatch.Proofs.Settings.Acceptance
import RunWatch.Proofs.Settings.Renewal
import RunWatch.Proofs.Settings.About
import RunWatch.Proofs.Board.Symbols
import RunWatch.Proofs.Push.Checks
import RunWatch.Proofs.Board.Reach
import RunWatch.Proofs.Json.Spelt
