import Crossbook.Lib.Visit
import Crossbook.Lib.SortedList
import Crossbook.Lib.Gregorian
import Crossbook.Lib.Absorb
import Crossbook.Lib.MachineInt
import Crossbook.Types
import Crossbook.Book.MapSide
import Crossbook.Book.ArraySide
import Crossbook.Book.ArrayWindow
import Crossbook.Book.ArrayScan
import Crossbook.Book.ArrayLevels
import Crossbook.Book.ArrayRebuild
import Crossbook.Book.ArrayRefinement
import Crossbook.Book.SideImpl
import Crossbook.Book.Book
import Crossbook.Book.BookSpec
import Crossbook.Checksum
import Crossbook.Book.BookEquivalence
import Crossbook.Sequence.Tracker
import Crossbook.Lib.Run
import Crossbook.Sequence.Order
import Crossbook.Sequence.Convergence
import Crossbook.Divergence
import Crossbook.Feed.Feed
import Crossbook.Feed.Steps
import Crossbook.Feed.MatchRate
import Crossbook.Book.Top
import Crossbook.Book.StateHash
import Crossbook.Feed.Load
import Crossbook.Feed.Guard
import Crossbook.Feed.Safety
import Crossbook.Feed.Staleness
import Crossbook.Feed.Reconcile
import Crossbook.Feed.DepthLimit
import Crossbook.Lib.ProbeTable
import Crossbook.Lib.LinkedQueue
import Crossbook.L3.Book
import Crossbook.L3.IdTable
import Crossbook.L3.Spec
import Crossbook.L3.Queues
import Crossbook.L3.LevelQueues
import Crossbook.L3.Relink
import Crossbook.L3.OrderChanges
import Crossbook.L3.Agreement
import Crossbook.Fixed
import Crossbook.Json.Scan
import Crossbook.Json.Walk
import Crossbook.Venues.Rfc3339
import Crossbook.Venues.CivilDays
import Crossbook.Venues.Timestamp
import Crossbook.Venues.Kraken
import Crossbook.Json.Values
import Crossbook.Venues.KrakenWire
import Crossbook.Venues.KrakenPayload
import Crossbook.Json.Grammar
import Crossbook.Lib.Spans
import Crossbook.Json.Language
import Crossbook.Json.Cursor
import Crossbook.Json.CursorScan
import Crossbook.Json.WalkLanguage
import Crossbook.Venues.Binance
import Crossbook.Venues.BinanceWire
import Crossbook.Json.StringValue
import Crossbook.Venues.BinanceRouting
import Crossbook.Lib.LittleEndian
import Crossbook.Venues.BinanceSbe
import Crossbook.Venues.BinanceSbeLayout
import Crossbook.Venues.BinanceSbeWire
import Crossbook.Json.Truncation
import Crossbook.Venues.Atomic
import Crossbook.Venues.AtomicSbe
import Crossbook.Lib.BigEndian
import Crossbook.Net.Frame
import Crossbook.Net.FrameReader
import Crossbook.Net.FrameStream
import Crossbook.Net.ReaderRefinement
import Crossbook.Net.Segmentation
import Crossbook.Net.FrameLayout
import Crossbook.Net.ControlFrames
import Crossbook.Net.Latching
import Crossbook.Lib.Ranking
import Crossbook.SignedArithmetic
import Crossbook.Execution
import Crossbook.Consolidated.Book
import Crossbook.Consolidated.History
import Crossbook.Consolidated.Fees
import Crossbook.Consolidated.Ranked
import Crossbook.Consolidated.BestExecution
import Crossbook.Consolidated.ArrivalOrder
import Crossbook.Json.Find
import Crossbook.Json.Listing
import Crossbook.Json.Rescan
import Crossbook.Json.Spelled
import Crossbook.Venues.BinanceFaithful
import Crossbook.Net.FrameWriter
import Crossbook.Net.WebSocketClient
import Crossbook.Net.ClosingHandshake
import Crossbook.Net.SentFrames
import Crossbook.Net.Handshake
import Crossbook.Net.HandshakeStrict
import Crossbook.Net.HandshakeReads
import Crossbook.Lib.Decimal
import Crossbook.Capture.Capture
import Crossbook.Capture.Records
import Crossbook.Capture.RoundTrip
import Crossbook.Capture.Soundness
import Crossbook.Lib.Loop
import Crossbook.Lib.Search
import Crossbook.Net.Chunked
import Crossbook.Net.ChunkedCoding
import Crossbook.Net.HttpResponse
import Crossbook.L3.TableGrowth
import Crossbook.Book.Trimming
import Crossbook.Execution.ExecutableSize
import Crossbook.Fixed.Reading
import Crossbook.Fixed.Exactness
import Crossbook.Fixed.Contract
import Crossbook.Fixed.Canonical
import Crossbook.Checksum.SliceByEight
import Crossbook.Histogram.Histogram
import Crossbook.Histogram.Sizing
import Crossbook.Histogram.Index
import Crossbook.Histogram.Merge
import Crossbook.Book.RebuildHysteresis
import Crossbook.Book.Degraded
import Crossbook.Lib.Lots
import Crossbook.Execution.Filling
import Crossbook.Execution.CostToTrade
import Crossbook.Execution.Comparison
import Crossbook.Execution.Slippage
import Crossbook.Consolidated.EffectiveVwap
import Crossbook.Consolidated.Accounting
import Crossbook.Consolidated.Crossing
import Crossbook.Histogram.Bucketing
import Crossbook.Histogram.Percentile
import Crossbook.Histogram.Optimism
import Crossbook.Venues.Rescale
import Crossbook.Lib.Signed
import Crossbook.SignedArithmetic.Defined
import Crossbook.Lib.Regular
import Crossbook.Json.NumberGrammar
import Crossbook.Json.StringEquals
import Crossbook.Capture.Integers
import Crossbook.Histogram.Corrected
import Crossbook.Lib.Packed
import Crossbook.Lib.Sha1
import Crossbook.Net.Sha1
import Crossbook.Lib.Base64
import Crossbook.Net.Base64
import Crossbook.Lib.PartitionPoint
import Crossbook.Lib.Tiling
import Crossbook.Replay.Replay
import Crossbook.Replay.Tiling
import Crossbook.Lib.Replies
import Crossbook.Feed.Containers
import Crossbook.Net.Session
import Crossbook.Net.SessionWire
import Crossbook.Net.KeepAlive
import Crossbook.Net.TcpSocket
import Crossbook.Net.PlainSession
import Crossbook.Net.Url
import Crossbook.Net.HandshakeRequest
import Crossbook.Net.Connect
import Crossbook.Feed.Accounting
import Crossbook.Tools.Verdict
import Crossbook.Feed.Lockstep
import Crossbook.Venues.Kinds
import Crossbook.Tools.Live
import Crossbook.Tools.Reproduce
import Crossbook.Tools.Drive
import Crossbook.Json.Tree
import Crossbook.Tools.Subscribe
import Crossbook.Lib.OneServer
import Crossbook.Replay.OpenLoop
import Crossbook.Replay.Queueing
import Crossbook.Replay.Sweep
import Crossbook.Feed.Resync
import Crossbook.Tools.Modes
import Crossbook.L3.Arena
import Crossbook.Feed.OnRecord
import Crossbook.Net.HttpsGet
import Crossbook.Tools.Recorder
