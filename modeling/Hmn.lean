import Hmn.Approval.Agreement
import Hmn.Approval.CallbackPoll
import Hmn.Approval.CardSecrets
import Hmn.Approval.OutboxRuns
import Hmn.Components.Archive
import Hmn.Components.Gate
import Hmn.Components.ManifestDigest
import Hmn.Docs.FreeText
import Hmn.Docs.Noninterference
import Hmn.Docs.RenameActions
import Hmn.Docs.SyncContained
import Hmn.Framework.JsonLine
import Hmn.Framework.ShellWords
import Hmn.Join.OneTime
import Hmn.Join.Stores
import Hmn.Network.AclAudit
import Hmn.Network.Consumed
import Hmn.Network.SyncRuns
import Hmn.Nodes.Commands
import Hmn.Nodes.Fingerprints
import Hmn.Nodes.Liveness
import Hmn.Nodes.NodeConsole
import Hmn.Nodes.Revocation
import Hmn.Orchestrator.Race
import Hmn.Orchestrator.Worktrees
import Hmn.Playbook.Executor
import Hmn.Playbook.Rendering
import Hmn.Rollback.Contained
import Hmn.Services.ComposeBlocks
import Hmn.Services.Converges
import Hmn.Services.DockerPorts
import Hmn.Services.InventoryBindings
import Hmn.Services.PlannersTotal
import Hmn.Services.ProxyBinding
import Hmn.Services.ProxyOwners
import Hmn.Services.RegistryFile
import Hmn.Services.Resave
import Hmn.Store.History
import Hmn.Store.OutputCap
import Hmn.Store.StoredTime
import Hmn.Tasks.AuditReplay
import Hmn.Tasks.Console
import Hmn.Tasks.Provenance
import Hmn.Tasks.SshOutcome
import Hmn.Tasks.SshRuns
import Hmn.Uptime.Agreement
import Hmn.Web.Session
import Hmn.Worker.Delivery
import Hmn.Worker.Rotation
import Hmn.Worker.Transfer
