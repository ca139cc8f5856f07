import MlatBench.Library.Hex
import MlatBench.Library.Lfsr
import MlatBench.Core.Modes
import MlatBench.Core.Proto
import MlatBench.Core.Engine
import MlatBench.Theory.Crc24
import MlatBench.Theory.Engine
import MlatBench.Theory.Df11
import MlatBench.Core.Router
import MlatBench.Theory.Assignment
import MlatBench.Theory.CellTree
import MlatBench.Core.Uplink
import MlatBench.Library.Segments
import MlatBench.Theory.Uplink
import MlatBench.Core.Geo
import MlatBench.Core.PairModel
import MlatBench.Core.Solve
import MlatBench.Core.State
import MlatBench.Core.Group
import MlatBench.Theory.State
import MlatBench.Theory.Fixes
import MlatBench.Theory.Isolation
import MlatBench.Core.Daemon
import MlatBench.Theory.Accounting
import MlatBench.Core.Session
import MlatBench.Theory.Session
import MlatBench.Theory.Requests
import MlatBench.Theory.Quarantine
import MlatBench.Core.Beast
import MlatBench.Theory.Beast
import MlatBench.Theory.Waiting
import MlatBench.Theory.Traffic
import MlatBench.Theory.Pairing
import MlatBench.Theory.Announce
import MlatBench.Theory.Representation
import MlatBench.Core.Client
import MlatBench.Theory.Handles
import MlatBench.Core.Link
import MlatBench.Theory.Reconnect
import MlatBench.Theory.Epochs
import MlatBench.Core.Metrics
import MlatBench.Library.Tally
import MlatBench.Theory.Coverage
import MlatBench.Library.Decimal
import MlatBench.Library.Lines
import MlatBench.Core.Csv
import MlatBench.Theory.Csv
import MlatBench.Library.Zones
import MlatBench.Library.Reals
import MlatBench.Theory.Cpr
import MlatBench.Theory.Grid
import MlatBench.Library.Ext
import MlatBench.Theory.Gates
import MlatBench.Theory.Sweep
import MlatBench.Theory.Overflow
import MlatBench.Core.Scenario
import MlatBench.Core.Clock
import MlatBench.Core.Frames
import MlatBench.Theory.Frames
import MlatBench.Core.Gen
import MlatBench.Library.Held
import MlatBench.Theory.Reception
import MlatBench.Theory.Stamps
import MlatBench.Theory.Apart
import MlatBench.Library.Partners
import MlatBench.Theory.Trail
import MlatBench.Theory.Jumps
import MlatBench.Library.Decay
import MlatBench.Theory.Fit
import MlatBench.Theory.Outliers
import MlatBench.Core.Capture
import MlatBench.Core.Tap
import MlatBench.Theory.Capture
import MlatBench.Theory.Tap
import MlatBench.Theory.Resync
import MlatBench.Core.Idle
import MlatBench.Theory.Idle
import MlatBench.Core.Downlink
import MlatBench.Theory.Downlink
import MlatBench.Theory.Select
import MlatBench.Core.Framing
import MlatBench.Core.Batch
import MlatBench.Library.Units
import MlatBench.Theory.Framing
import MlatBench.Theory.Batch
import MlatBench.Theory.Forward
import MlatBench.Core.Locards
import MlatBench.Theory.Pairs
import MlatBench.Core.Records
import MlatBench.Theory.Records
import MlatBench.Theory.Haversine
import MlatBench.Theory.Truth
import MlatBench.Theory.Scoring
import MlatBench.Core.Anchor
import MlatBench.Theory.Anchor
import MlatBench.Theory.Clusters
import MlatBench.Theory.Residuals
import MlatBench.Theory.Credit
import MlatBench.Theory.LastStep
import MlatBench.Theory.ColdStart
import MlatBench.Core.Backoff
import MlatBench.Library.Renaming
import MlatBench.Theory.Backoff
import MlatBench.Theory.Locards
import MlatBench.Theory.Spelling
import MlatBench.Library.Iteration
import MlatBench.Core.Expand
import MlatBench.Theory.Addresses
import MlatBench.Library.Calendar
import MlatBench.Core.Sbs
import MlatBench.Theory.Sbs
import MlatBench.Theory.Altitude
import MlatBench.Theory.Forgetting
import MlatBench.Library.Bursts
import MlatBench.Theory.Parity
import MlatBench.Library.LeastSquares
import MlatBench.Theory.Normal
import MlatBench.Library.Recency
import MlatBench.Library.Broadcast
import MlatBench.Core.Servers
import MlatBench.Theory.Servers
import MlatBench.Library.Feed
import MlatBench.Core.Output
import MlatBench.Theory.Output
import MlatBench.Core.Returns
import MlatBench.Theory.Returns
import MlatBench.Core.Outlets
import MlatBench.Theory.Outlets
import MlatBench.Library.Batches
import MlatBench.Theory.Groups
import MlatBench.Core.Uploads
import MlatBench.Theory.Uploads
import MlatBench.Theory.Channel
import MlatBench.Library.Ledger
import MlatBench.Theory.Training
import MlatBench.Theory.Partition
import MlatBench.Core.Partition
import MlatBench.Core.Handshake
import MlatBench.Theory.Handshake
import MlatBench.Library.Layers
import MlatBench.Core.Replay
import MlatBench.Theory.Replay
