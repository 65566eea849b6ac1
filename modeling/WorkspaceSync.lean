import WorkspaceSync.CommandLine
import WorkspaceSync.Config
import WorkspaceSync.Lint.Command
import WorkspaceSync.Loading
import WorkspaceSync.Server
import WorkspaceSync.Server.Frame
import WorkspaceSync.Sync.Engine
import WorkspaceSync.Tool.Runner
import WorkspaceSync.Tracking
import WorkspaceSync.Url
import WorkspaceSync.Proofs.Analysis
import WorkspaceSync.Proofs.Overlay
import WorkspaceSync.Proofs.Publication
import WorkspaceSync.Proofs.Turns
import WorkspaceSync.Proofs.Locality
import WorkspaceSync.Proofs.Rebuilding
import WorkspaceSync.Proofs.Walk
import WorkspaceSync.Proofs.Reversion
import WorkspaceSync.Proofs.Commutation
import WorkspaceSync.Proofs.Text
import WorkspaceSync.Proofs.Clause
import WorkspaceSync.Proofs.Report
import WorkspaceSync.Proofs.Rounds
import WorkspaceSync.Proofs.Fetching
import WorkspaceSync.Proofs.History
import WorkspaceSync.Proofs.Lookup
import WorkspaceSync.Proofs.Positions
import WorkspaceSync.Proofs.Conversation
import WorkspaceSync.Proofs.Precedence
