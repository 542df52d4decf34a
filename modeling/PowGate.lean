import PowGate.Runs
import PowGate.Ledger
import PowGate.Access
import PowGate.Flows
import PowGate.LedgerRefinement
import PowGate.RedisScript
import PowGate.VerdictCache
import PowGate.VerdictHistory
import PowGate.OneUse
import PowGate.ClusterSafety
import PowGate.FleetOneUse
import PowGate.Feeds
import PowGate.Target
import PowGate.ClearanceChecks
import PowGate.Binding
import PowGate.Scopes
import PowGate.Replay
import PowGate.Portability
import PowGate.ProofFetch
import PowGate.Crawlers
import PowGate.KeyFailure
import PowGate.FailedRedemption
import PowGate.Commands
import PowGate.Fragments
import PowGate.SolverDigest
import PowGate.Cycles
import PowGate.Database
import PowGate.Sockets
import PowGate.DnsPool
import PowGate.Crew
import PowGate.Bodies
import PowGate.Rewriting
import PowGate.Pages
import PowGate.Effects
import PowGate.PageLoad
import PowGate.Visits
import PowGate.Reloads
import PowGate.Caching
import PowGate.Blocks
import PowGate.Rotation
import PowGate.Verifiers
import PowGate.Provisioning
