import A2AGateway.Lib.Interleave
import A2AGateway.ScanHead
import A2AGateway.PeerAccess
import A2AGateway.LogAuthenticity
import A2AGateway.LinkFrame
import A2AGateway.PullHead
import A2AGateway.PulledObjects
import A2AGateway.LogVerifiable
import A2AGateway.LogDelivery
import A2AGateway.CallPolicy
import A2AGateway.CallChains
import A2AGateway.DecidedVotes
import A2AGateway.DistinctGateways
import A2AGateway.ResolvedProposals
import A2AGateway.VisibilityMoves
import A2AGateway.ConcurrentAppends
import A2AGateway.OnboardingOrder
import A2AGateway.SingleUseInvites
import A2AGateway.TranscriptRoundTrip
import A2AGateway.ContentAddressed
import A2AGateway.ServedObjects
import A2AGateway.OwnHeads
import A2AGateway.PendingPrompts
import A2AGateway.CallRetries
import A2AGateway.ReplicatedEntries
import A2AGateway.CursorPolling
import A2AGateway.AgentDirectory
import A2AGateway.LastingSouls
import A2AGateway.AgentMemory
import A2AGateway.RegistryRestart
import A2AGateway.StaleAssignments
import A2AGateway.RepeatedAnnouncements
import A2AGateway.RoutingDecision
import A2AGateway.SnapshotDiff
import A2AGateway.ListedProjects
import A2AGateway.GroupJoins
import A2AGateway.OwnerReviews
import A2AGateway.StrandedProposals
import A2AGateway.AgentEndpoints
import A2AGateway.DeltaHeads
import A2AGateway.CursorRange
import A2AGateway.CanonicalTranscripts
import A2AGateway.ObjectPaths
import A2AGateway.FilePatterns
import A2AGateway.LogHalf
import A2AGateway.CapabilityRule
import A2AGateway.RepeatedPasses
import A2AGateway.RegistryCache
import A2AGateway.WebAuth
import A2AGateway.RetryLoop
import A2AGateway.AgentFailures
import A2AGateway.Containers
import A2AGateway.FinishedTodos
import A2AGateway.MemoryFacts
import A2AGateway.ContextBuilder
import A2AGateway.LogAgreement
import A2AGateway.SyncDaemon
import A2AGateway.StoredRows
import A2AGateway.Handlers
import A2AGateway.WebServer
import A2AGateway.Process
import A2AGateway.Provenance
import A2AGateway.VettedEndpoints
import A2AGateway.Assignments
import A2AGateway.Events
import A2AGateway.ProposalRules
import A2AGateway.SharedSnapshots
import A2AGateway.DirectCalls
import A2AGateway.Restarts
