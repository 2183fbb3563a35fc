import RtbEngine.Engine.Benchmark
import RtbEngine.Engine.Buffer
import RtbEngine.Engine.CampaignStore
import RtbEngine.Engine.Decision
import RtbEngine.Engine.Normalize
import RtbEngine.Engine.Process
import RtbEngine.Engine.Request
import RtbEngine.Engine.Server
import RtbEngine.Engine.Ssp
import RtbEngine.Engine.SspClient
import RtbEngine.Engine.Thread
import RtbEngine.Engine.Types
import RtbEngine.Engine.Wire
import RtbEngine.Engine.Worker
import RtbEngine.Lib.BitPolynomial
import RtbEngine.Lib.Exec
import RtbEngine.Lib.Framing
import RtbEngine.Lib.Json
import RtbEngine.Lib.Mealy
import RtbEngine.Lib.Queue
import RtbEngine.Lib.Ranks
import RtbEngine.Lib.Rounding
import RtbEngine.Lib.Steps
import RtbEngine.Lib.Table
import RtbEngine.Lib.Trace
import RtbEngine.Lib.Tracks
import RtbEngine.Lib.Transport
import RtbEngine.Lib.Varint
import RtbEngine.Lib.XorLinear
import RtbEngine.Logic.Conversation
import RtbEngine.Logic.Decimal
import RtbEngine.Logic.Decision
import RtbEngine.Logic.Handlers
import RtbEngine.Logic.Lines
import RtbEngine.Logic.Oblivious
import RtbEngine.Logic.Ownership
import RtbEngine.Logic.Pipeline
import RtbEngine.Logic.Process
import RtbEngine.Logic.Rows
import RtbEngine.Logic.Run
import RtbEngine.Logic.Serve
import RtbEngine.Logic.Session
import RtbEngine.Logic.SspClient
import RtbEngine.Logic.Steps
import RtbEngine.Logic.Store
import RtbEngine.Logic.Thread
import RtbEngine.Logic.Worker
import RtbEngine.Theorems.Accounting
import RtbEngine.Theorems.Bidding
import RtbEngine.Theorems.Buffering
import RtbEngine.Theorems.Closing
import RtbEngine.Theorems.Codec
import RtbEngine.Theorems.Deadline
import RtbEngine.Theorems.Descriptors
import RtbEngine.Theorems.Exchange
import RtbEngine.Theorems.Extraction
import RtbEngine.Theorems.Generator
import RtbEngine.Theorems.Isolation
import RtbEngine.Theorems.Ledger
import RtbEngine.Theorems.Lifecycle
import RtbEngine.Theorems.Limits
import RtbEngine.Theorems.Loading
import RtbEngine.Theorems.Memory
import RtbEngine.Theorems.Options
import RtbEngine.Theorems.Parking
import RtbEngine.Theorems.Rendering
import RtbEngine.Theorems.Report
import RtbEngine.Theorems.Retrieval
import RtbEngine.Theorems.Selection
import RtbEngine.Theorems.Sentinel
import RtbEngine.Theorems.Serial
import RtbEngine.Theorems.Shutdown
import RtbEngine.Theorems.Siblings
import RtbEngine.Theorems.Stopping
import RtbEngine.Theorems.Stream
import RtbEngine.Theorems.Summaries
import RtbEngine.Theorems.Targeting
import RtbEngine.Theorems.Timing
import RtbEngine.Theorems.Traceless
import RtbEngine.Theorems.Workers
