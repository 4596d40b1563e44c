import ClotoCore.Audit.Continuity
import ClotoCore.Events.Cascade
import ClotoCore.Events.History
import ClotoCore.Approval.Soundness
import ClotoCore.Approval.Persistence
import ClotoCore.Seal.VerdictParity
import ClotoCore.Installer.Atomicity
import ClotoCore.Mcp.Sandbox
import ClotoCore.Mcp.Wedge
import ClotoCore.Mcp.EntryPoint
import ClotoCore.Mcp.Finality
import ClotoCore.Mcp.Reinstall
import ClotoCore.Mcp.RestartBudget
import ClotoCore.Mcp.Offer
import ClotoCore.Mcp.Delegation
import ClotoCore.Mcp.Streaming
import ClotoCore.Mcp.Callbacks
import ClotoCore.Access.Yolo
import ClotoCore.Replay.Delivery
import ClotoCore.Turns.Stops
import ClotoCore.Turns.Sessions
import ClotoCore.Turns.Titles
import ClotoCore.Cron.Scheduler
import ClotoCore.Cron.OwnContexts
import ClotoCore.Panels.Relay
import ClotoCore.Proxy.TokenEvidence
import ClotoCore.Mcp.Era
import ClotoCore.Chat.Paging
import ClotoCore.Chat.Branches
import ClotoCore.Turns.ToolHistory
import ClotoCore.Defender.Ledger
import ClotoCore.Defender.Containment
import ClotoCore.Defender.Boundary
import ClotoCore.Defender.Converge
import ClotoCore.Defender.Precedence
import ClotoCore.Defender.Secrets
import ClotoCore.Mcp.Pending
import ClotoCore.Mcp.HttpTransport
import ClotoCore.Mcp.SettingsSaved
import ClotoCore.Turns.ApprovedCalls
import ClotoCore.Approval.Items
import ClotoCore.Access.RetiredKeys
import ClotoCore.Events.Resume
import ClotoCore.Agents.Metadata
import ClotoCore.Agents.Deletion
import ClotoCore.Mcp.ToolCache
import ClotoCore.Mcp.ToolDiscovery
import ClotoCore.Panels.RateWindow
import ClotoCore.Chat.Context
import ClotoCore.Mcp.Framing
import ClotoCore.Access.KeyFile
import ClotoCore.Agents.EngineSelection
import ClotoCore.Mcp.UpdateEnv
import ClotoCore.Mcp.LoopbackUrl
import ClotoCore.Access.FileSandbox
import ClotoCore.Mcp.SandboxArgs
import ClotoCore.Installer.Fetch
import ClotoCore.Installer.Extraction
import ClotoCore.Marketplace.InstallState
import ClotoCore.Admission.RateLimiter
import ClotoCore.Mcp.PathVars
import ClotoCore.Access.DefaultEngine
import ClotoCore.Access.TeamDomain
import ClotoCore.Mcp.GeneratedScript
import ClotoCore.Turns.Consensus
