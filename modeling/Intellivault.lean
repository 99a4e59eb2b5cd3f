import Intellivault.Lib.Json
import Intellivault.Lib.Keyed
import Intellivault.Lib.Walk
import Intellivault.Lib.Prog
import Intellivault.Lib.Tandem
import Intellivault.Lib.Pool
import Intellivault.Agent.Additive
import Intellivault.Agent.FailureRecord
import Intellivault.Agent.ReviewPath
import Intellivault.Graph.Frame
import Intellivault.Graph.Additive
import Intellivault.Graph.NonInterference
import Intellivault.Auth.Passkeys
import Intellivault.Agent.System
import Intellivault.Agent.Acts
import Intellivault.Agent.Census
import Intellivault.Agent.Lifecycle
import Intellivault.Agent.RowMachine
import Intellivault.Auth.Routes
import Intellivault.Auth.Protocol
import Intellivault.Auth.Challenges
import Intellivault.Auth.SignCount
import Intellivault.Auth.Profile
import Intellivault.Auth.Registration
import Intellivault.Auth.SessionTokens
import Intellivault.Graph.Commute
import Intellivault.Graph.ReadCommitted
import Intellivault.Agent.Supersteps
import Intellivault.Agent.Rounds
import Intellivault.Lib.Rounds
import Intellivault.Agent.Drafts
import Intellivault.Agent.Reviews
import Intellivault.Agent.Stranding
import Intellivault.Graph.Provenance
import Intellivault.Graph.Cascade
import Intellivault.Graph.Search
import Intellivault.Agent.Fetch
import Intellivault.Agent.FetchRuns
import Intellivault.Agent.BadHits
import Intellivault.Lib.Framing
import Intellivault.Stream.Sse
import Intellivault.Stream.RoundTrip
import Intellivault.Chat.Service
import Intellivault.Chat.Tools
import Intellivault.Chat.Rounds
import Intellivault.Lib.Ensure
import Intellivault.Lib.Guarded
import Intellivault.Graph.Migrations
import Intellivault.Graph.MigrationRuns
import Intellivault.Graph.Rollback
import Intellivault.Agent.Addresses
import Intellivault.Agent.Enrichment
import Intellivault.Agent.Conservation
import Intellivault.Agent.Counts
import Intellivault.Agent.References
import Intellivault.Agent.Mirror
import Intellivault.Agent.SearchSpec
import Intellivault.Agent.Notes
import Intellivault.Agent.SearchGraph
import Intellivault.Agent.StatusStream
import Intellivault.Agent.TextExtraction
import Intellivault.Graph.Splitting
import Intellivault.Graph.Toggle
import Intellivault.Agent.Ownership
import Intellivault.Agent.Fleet
import Intellivault.Agent.Tenants
import Intellivault.Chat.Conversation
import Intellivault.Graph.Increments
import Intellivault.Agent.Vault
import Intellivault.Auth.Custody
import Intellivault.Frontend.GraphPage
import Intellivault.Frontend.Outdated
import Intellivault.Frontend.Api
import Intellivault.Frontend.SampleGraph
import Intellivault.Agent.StreamParts
import Intellivault.Frontend.Following
