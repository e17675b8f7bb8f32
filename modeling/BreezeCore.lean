import BreezeCore.Lib.Exec
import BreezeCore.Lib.Bytes
import BreezeCore.Lib.Blocks
import BreezeCore.Lib.Text
import BreezeCore.Proto.Crc8
import BreezeCore.Proto.Frame
import BreezeCore.Proto.Packet
import BreezeCore.Proto.Lan
import BreezeCore.Proto.Types
import BreezeCore.Proto.Response
import BreezeCore.Proto.Command
import BreezeCore.Proto.Capabilities
import BreezeCore.Lib.Parts
import BreezeCore.Proto.CapabilityRecords
import BreezeCore.Lib.Ip
import BreezeCore.Proto.Discover
import BreezeCore.Proto.Stack
import BreezeCore.Device.Error
import BreezeCore.Device.Device
import BreezeCore.Device.CapabilityQuery
import BreezeCore.Store.Control
import BreezeCore.Device.Change
import BreezeCore.Http.Control
import BreezeCore.Device.Session
import BreezeCore.Device.StaleReply
import BreezeCore.Lib.Runs
import BreezeCore.Store.Devices
import BreezeCore.Lib.Grid
import BreezeCore.Auth.Signing
import BreezeCore.Auth.Nonce
import BreezeCore.Auth.Verify
import BreezeCore.Auth.Bearer
import BreezeCore.Auth.Replay
import BreezeCore.Auth.Net
import BreezeCore.Auth.Enroll
import BreezeCore.Auth.Pairing
import BreezeCore.Auth.Rejected
import BreezeCore.Http.Server
import BreezeCore.Http.LanGuard
import BreezeCore.Http.AuthRoutes
import BreezeCore.Http.Soundness
import BreezeCore.Lib.Tally
import BreezeCore.Device.Manager
import BreezeCore.Device.Merge
import BreezeCore.Device.MergeInvariant
import BreezeCore.Device.ControlMerging
import BreezeCore.Device.Told
import BreezeCore.Device.FreshReads
import BreezeCore.Lib.Framing
import BreezeCore.Device.Reassembly
import BreezeCore.Store.Timers
import BreezeCore.Http.TimerRoutes
import BreezeCore.Http.TimerPerUnit
import BreezeCore.Http.TimerRuns
import BreezeCore.Lib.Files
import BreezeCore.Store.Save
import BreezeCore.Http.Persistence
import BreezeCore.Lib.Claims
import BreezeCore.Store.Programs
import BreezeCore.Http.ProgramRoutes
import BreezeCore.Http.ScheduleRuns
import BreezeCore.Http.CurveRuns
import BreezeCore.Lib.Decimal
import BreezeCore.Http.Stream
import BreezeCore.Http.StreamRuns
import BreezeCore.Device.Units
import BreezeCore.Store.Config
import BreezeCore.Http.ConfigRoutes
import BreezeCore.Http.ConfigRuns
import BreezeCore.Device.Poison
import BreezeCore.Lib.Ranges
import BreezeCore.Cli.ProxyConf
import BreezeCore.Lib.Actions
import BreezeCore.Cli.Journal
import BreezeCore.Cli.Proxy
import BreezeCore.Cli.ProxyFates
import BreezeCore.Cli.ProxyBooks
import BreezeCore.Cli.ProxyRuns
import BreezeCore.Lib.Backups
import BreezeCore.Cli.Undo
import BreezeCore.Lib.Keccak
import BreezeCore.Lib.Loops
import BreezeCore.Lib.Words
import BreezeCore.Panel.Sha3
import BreezeCore.Panel.Fips202
import BreezeCore.Panel.Signer
import BreezeCore.Panel.ClockSkew
import BreezeCore.Lib.Circle
import BreezeCore.Lib.Rounding
import BreezeCore.Store.StoredTimes
import BreezeCore.Store.Curve
import BreezeCore.Store.Executable
import BreezeCore.Device.CapabilityReplies
import BreezeCore.Http.Batch
import BreezeCore.Lib.Monitor
import BreezeCore.Http.Wakeup
import BreezeCore.Panel.Live
import BreezeCore.Lib.Utf8
import BreezeCore.Panel.EventReader
import BreezeCore.Lib.Groups
import BreezeCore.Panel.EventChunks
import BreezeCore.Panel.EventFrames
import BreezeCore.Lib.Numerals
import BreezeCore.Device.Composition
import BreezeCore.Store.Normalisation
import BreezeCore.Store.Hhmm
import BreezeCore.Http.Credentials
import BreezeCore.Http.Feedback
import BreezeCore.Http.Compress
import BreezeCore.Cli.Control
import BreezeCore.Cli.ControlGrammar
import BreezeCore.Auth.SharedNonces
import BreezeCore.Http.Routes
import BreezeCore.Http.TimerTiming
import BreezeCore.Http.History
import BreezeCore.Http.KeepWarm
import BreezeCore.Lib.Base64
import BreezeCore.Auth.Encodings
import BreezeCore.Http.Lanes
import BreezeCore.Lib.Remainder
import BreezeCore.Proto.CrcPolynomial
import BreezeCore.Auth.Canonical
import BreezeCore.Lib.Subnets
import BreezeCore.Device.Scan
import BreezeCore.Lib.Civil
import BreezeCore.Cloud.Timestamp
import BreezeCore.Proto.DiscoverReply
import BreezeCore.Lib.Lines
import BreezeCore.Cli.EnvFile
import BreezeCore.Lib.Talks
import BreezeCore.Lib.JsonValue
import BreezeCore.Cloud.Cloud
import BreezeCore.Cloud.V5
import BreezeCore.Cloud.Apps
import BreezeCore.Cloud.Password
import BreezeCore.Cloud.UnitToken
import BreezeCore.Cli.Fetch
import BreezeCore.Cli.FetchRuns
import BreezeCore.Cli.FetchSaves
import BreezeCore.Http.Warm
import BreezeCore.Http.WarmReads
import BreezeCore.Http.UnitStatus
import BreezeCore.Http.KeptWarm
import BreezeCore.Lib.Keyed
import BreezeCore.Device.Listen
import BreezeCore.Http.Query
import BreezeCore.Http.ScanRoute
import BreezeCore.Cli.Pair
import BreezeCore.Cli.PairRuns
import BreezeCore.Cli.PairAgain
import BreezeCore.Cli.PairSecrets
