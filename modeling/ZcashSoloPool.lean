import ZcashSoloPool.Bytes.Endian
import ZcashSoloPool.Bytes.BitGroup
import ZcashSoloPool.Equihash.ExpandArray
import ZcashSoloPool.Equihash.Puzzle
import ZcashSoloPool.Equihash.Verifier
import ZcashSoloPool.Bytes.Hex
import ZcashSoloPool.JavaScript.Json
import ZcashSoloPool.JavaScript.Value
import ZcashSoloPool.Wire.CompactSize
import ZcashSoloPool.WorkManager.Encoding
import ZcashSoloPool.Collections.OrderedMap
import ZcashSoloPool.Collections.RelatedMaps
import ZcashSoloPool.Collections.Groups
import ZcashSoloPool.Transition.Run
import ZcashSoloPool.Transition.Timeline
import ZcashSoloPool.Transition.Projection
import ZcashSoloPool.Pool.UpdateJob
import ZcashSoloPool.Merkle.Tree
import ZcashSoloPool.WorkManager.Template
import ZcashSoloPool.Wire.Transaction
import ZcashSoloPool.WorkManager.GenerateJob
import ZcashSoloPool.Crypto.Sha256
import ZcashSoloPool.WorkManager.Payout
import ZcashSoloPool.Search.FirstHit
import ZcashSoloPool.WorkManager.Candidates
import ZcashSoloPool.WorkManager.ValidateShare
import ZcashSoloPool.WorkManager.Quality
import ZcashSoloPool.WorkManager.ShareSearch
import ZcashSoloPool.WorkManager.LowDiff
import ZcashSoloPool.WorkManager.JobTable
import ZcashSoloPool.Pool.System
import ZcashSoloPool.Pool.Announcements
import ZcashSoloPool.Pool.HeightPoll
import ZcashSoloPool.JavaScript.CodeUnits
import ZcashSoloPool.Stratum.Delivery
import ZcashSoloPool.Pool.Broadcast
import ZcashSoloPool.Stratum.Difficulty
import ZcashSoloPool.Stratum.Miner
import ZcashSoloPool.Stratum.Course
import ZcashSoloPool.Stratum.Grace
import ZcashSoloPool.Stratum.Vardiff
import ZcashSoloPool.Stratum.HashRate
import ZcashSoloPool.Stratum.IdleDescent
import ZcashSoloPool.Stratum.Requests
import ZcashSoloPool.Stratum.AllOrNothing
import ZcashSoloPool.Stratum.CleanText
import ZcashSoloPool.Stratum.Told
import ZcashSoloPool.Pool.BlockLedger
import ZcashSoloPool.Pool.BlockDedup
import ZcashSoloPool.Pool.SubmitHandler
import ZcashSoloPool.Pool.ShareAccounting
import ZcashSoloPool.Pool.FoundBlocks
import ZcashSoloPool.Pool.Sanitised
import ZcashSoloPool.Pool.Lifetime
import ZcashSoloPool.Pool.Restore
import ZcashSoloPool.Pool.EffortClock
import ZcashSoloPool.Pool.ShareCredit
import ZcashSoloPool.Pool.PingSweep
import ZcashSoloPool.Pool.Service
import ZcashSoloPool.Pool.Agreement
import ZcashSoloPool.Web.Ipv4
import ZcashSoloPool.Dashboard.Endpoints
import ZcashSoloPool.Dashboard.ApiKey
import ZcashSoloPool.Bytes.Utf8
import ZcashSoloPool.Framing.Receiver
import ZcashSoloPool.Pool.RequestHandler
import ZcashSoloPool.Pool.DataHandler
import ZcashSoloPool.WorkManager.ConsensusHash
import ZcashSoloPool.WorkManager.BlockSearch
import ZcashSoloPool.Wire.Block
import ZcashSoloPool.WorkManager.Header
import ZcashSoloPool.WorkManager.AssembledBlock
import ZcashSoloPool.Stratum.Messages
import ZcashSoloPool.Stratum.HonestWork
import ZcashSoloPool.Stratum.TargetLaw
import ZcashSoloPool.WorkManager.WalletAddress
import ZcashSoloPool.WorkManager.SolutionFields
import ZcashSoloPool.WorkManager.MerkleRoot
import ZcashSoloPool.Stratum.SubmitFields
import ZcashSoloPool.Rpc.Call
import ZcashSoloPool.Rpc.SubmitBlock
import ZcashSoloPool.Rpc.NetworkRate
import ZcashSoloPool.Rpc.NodeInfo
import ZcashSoloPool.Pool.Startup
import ZcashSoloPool.Pool.BlockReply
import ZcashSoloPool.Effects.Atomic
import ZcashSoloPool.Effects.Agree
import ZcashSoloPool.WorkManager.AtomicJob
import ZcashSoloPool.WorkManager.PlainReply
import ZcashSoloPool.WorkManager.ReplyRuns
import ZcashSoloPool.Web.Cidr
import ZcashSoloPool.Stratum.Acl
import ZcashSoloPool.Collections.Census
import ZcashSoloPool.Stratum.Admission
import ZcashSoloPool.Stratum.Bans
import ZcashSoloPool.Stratum.Liveness
import ZcashSoloPool.WorkManager.CompactSizeText
import ZcashSoloPool.Stratum.ShareTarget
import ZcashSoloPool.Stratum.CompactBits
import ZcashSoloPool.Stratum.NotifyLine
import ZcashSoloPool.Limits.FixedWindow
import ZcashSoloPool.Limits.Smoothing
import ZcashSoloPool.Limits.Expiry
import ZcashSoloPool.Dashboard.RateLimiter
import ZcashSoloPool.Storage.Disk
import ZcashSoloPool.Logging.Rotation
import ZcashSoloPool.Calendar.Civil
import ZcashSoloPool.Collections.Newest
import ZcashSoloPool.Logging.Stream
import ZcashSoloPool.Logging.Daily
import ZcashSoloPool.Web.PosixPath
import ZcashSoloPool.Dashboard.StaticFiles
import ZcashSoloPool.Dashboard.FileCache
import ZcashSoloPool.Dashboard.ApiServer
import ZcashSoloPool.Stratum.AclExact
import ZcashSoloPool.WorkManager.Rejections
import ZcashSoloPool.Pool.Classified
import ZcashSoloPool.Dashboard.NumberText
import ZcashSoloPool.Dashboard.ScaledNumber
import ZcashSoloPool.Dashboard.DurationText
import ZcashSoloPool.Numbers.Grid
import ZcashSoloPool.Dashboard.DifficultyText
import ZcashSoloPool.Dashboard.MinerRows
import ZcashSoloPool.Dashboard.ApiMiner
import ZcashSoloPool.Collections.SortBy
import ZcashSoloPool.Dashboard.MinerTable
import ZcashSoloPool.Dashboard.BestShares
import ZcashSoloPool.Storage.Buffer
import ZcashSoloPool.Storage.Chain
import ZcashSoloPool.Equihash.InPlace
import ZcashSoloPool.Search.Recorded
import ZcashSoloPool.WorkManager.CandidateLists
import ZcashSoloPool.WorkManager.VerifierCalls
import ZcashSoloPool.WorkManager.QualityText
