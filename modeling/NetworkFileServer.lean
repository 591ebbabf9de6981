import NetworkFileServer.Client.WebSocketHook
import NetworkFileServer.Agent.ReconnectLoop
import NetworkFileServer.Client.FileRequestList
import NetworkFileServer.Framework.TransitionSystem
import NetworkFileServer.Tunnel.Delivery
import NetworkFileServer.Agent.RequestBody
import NetworkFileServer.Relay.ProxyStreams
import NetworkFileServer.Relay.ReceiveLoop
import NetworkFileServer.Tunnel.Teardown
import NetworkFileServer.Framework.OrderedDict
import NetworkFileServer.Framework.Text
import NetworkFileServer.Relay.AccessPolicy
import NetworkFileServer.Shared.IdentitySig
import NetworkFileServer.Relay.ForwardHeaders
import NetworkFileServer.Server.RelayIdentity
import NetworkFileServer.Relay.MountSystem
import NetworkFileServer.Relay.SessionEnd
import NetworkFileServer.Relay.ProxyAuthorization
import NetworkFileServer.Framework.FileSystem
import NetworkFileServer.Framework.FileUpdate
import NetworkFileServer.Framework.FileM
import NetworkFileServer.Server.FileService
import NetworkFileServer.Server.Confinement
import NetworkFileServer.Server.ServiceConfinement
import NetworkFileServer.Server.ZipWalk
import NetworkFileServer.Server.SpaCatchAll
import NetworkFileServer.Server.FilesRouter
import NetworkFileServer.Server.UploadEffects
import NetworkFileServer.Server.UploadKeys
import NetworkFileServer.Server.RequestEffects
import NetworkFileServer.Server.ReceiveScope
import NetworkFileServer.Server.ReceiveInvariant
import NetworkFileServer.Server.ReceiveReads
import NetworkFileServer.Relay.SessionExclusion
import NetworkFileServer.Relay.RegistryMethods
import NetworkFileServer.Relay.RegistryRuns
import NetworkFileServer.Relay.Ownership
import NetworkFileServer.Accounts.Groups
import NetworkFileServer.Relay.AccessDecision
import NetworkFileServer.Server.ModeGuard
import NetworkFileServer.Server.Permissions
import NetworkFileServer.Relay.ResponseDelivery
import NetworkFileServer.Relay.ResponsePrefix
import NetworkFileServer.Relay.StreamTable
import NetworkFileServer.Agent.Handlers
import NetworkFileServer.Agent.Termination
import NetworkFileServer.Agent.AnswerSent
import NetworkFileServer.Agent.AllowEntry
import NetworkFileServer.Agent.Cancellation
import NetworkFileServer.Agent.StreamTable
import NetworkFileServer.Framework.SharedTransaction
import NetworkFileServer.Accounts.Database
import NetworkFileServer.Accounts.GroupCycles
import NetworkFileServer.Accounts.GroupDepth
import NetworkFileServer.Accounts.AddMember
import NetworkFileServer.Accounts.GroupMethods
import NetworkFileServer.Relay.GroupSync
import NetworkFileServer.Accounts.StoreAtomicity
import NetworkFileServer.Accounts.StoreMethods
import NetworkFileServer.Framework.KeyedTable
import NetworkFileServer.Relay.AccessRequests
import NetworkFileServer.Relay.AdminNames
import NetworkFileServer.Relay.ApprovedAccess
import NetworkFileServer.Framework.LastChange
import NetworkFileServer.Relay.AccessProvenance
import NetworkFileServer.Relay.CodeReuse
import NetworkFileServer.Relay.Deactivation
import NetworkFileServer.Relay.SsoResolution
import NetworkFileServer.Tunnel.Joint
import NetworkFileServer.Tunnel.StreamLimit
import NetworkFileServer.Tunnel.Bridge
import NetworkFileServer.Tunnel.BridgeFidelity
import NetworkFileServer.Framework.Json
import NetworkFileServer.Server.OwnUploads
import NetworkFileServer.Server.SnippetSocket
import NetworkFileServer.Relay.AgentConnect
import NetworkFileServer.Relay.AgentControl
import NetworkFileServer.Relay.MountCap
import NetworkFileServer.Relay.TtlSweep
import NetworkFileServer.Relay.DropBox
import NetworkFileServer.Relay.DropBoxSweep
import NetworkFileServer.Server.ShareLinks
import NetworkFileServer.Relay.DropBoxRecords
import NetworkFileServer.Relay.RecordedFiles
import NetworkFileServer.Relay.DropBoxAlone
import NetworkFileServer.Relay.MemoryRegistry
import NetworkFileServer.Server.FileRequests
import NetworkFileServer.Server.RequestOutcomes
import NetworkFileServer.Server.ConnectionManager
import NetworkFileServer.Framework.FileRegion
import NetworkFileServer.Framework.LocalPrograms
import NetworkFileServer.Server.FolderLocality
import NetworkFileServer.Relay.UserStorage
import NetworkFileServer.Relay.StorageIsolation
import NetworkFileServer.Server.UploadNames
import NetworkFileServer.Server.UploadChanges
import NetworkFileServer.Relay.UsageBytes
import NetworkFileServer.Relay.UploadRollback
import NetworkFileServer.Server.ClipboardService
import NetworkFileServer.Client.Clipboard
import NetworkFileServer.Client.SnippetReplica
import NetworkFileServer.Client.ClipboardReplicas
import NetworkFileServer.Framework.BigEndian
import NetworkFileServer.Tunnel.FrameCodec
import NetworkFileServer.Framework.JsonText
import NetworkFileServer.Tunnel.Metadata
import NetworkFileServer.Server.IdentityTrust
import NetworkFileServer.Framework.ReTemplate
import NetworkFileServer.Framework.HtmlText
import NetworkFileServer.Relay.HtmlRewriter
import NetworkFileServer.Relay.AssetInsertion
import NetworkFileServer.Relay.AttributeValues
import NetworkFileServer.Relay.RewriteOutcome
import NetworkFileServer.Relay.HtmlDelivery
import NetworkFileServer.Agent.RetryLimit
import NetworkFileServer.Agent.PreferredCode
import NetworkFileServer.Relay.SecureCookies
import NetworkFileServer.Server.ClipboardCapacity
import NetworkFileServer.Relay.LoginRedirect
import NetworkFileServer.Server.UploadFrame
import NetworkFileServer.Server.FulfilRoute
import NetworkFileServer.Server.UploadTasks
import NetworkFileServer.Server.UploadSeparation
import NetworkFileServer.Server.DeleteEffects
import NetworkFileServer.Client.UploadQueue
import NetworkFileServer.Server.RenameSearch
import NetworkFileServer.Client.UploadEntries
import NetworkFileServer.Client.UploadTargets
import NetworkFileServer.Tunnel.HttpRequest
import NetworkFileServer.Tunnel.HttpExchange
import NetworkFileServer.Relay.OidcFlow
import NetworkFileServer.Relay.LoginBinding
import NetworkFileServer.Framework.RecursiveListing
import NetworkFileServer.Server.FolderPaths
import NetworkFileServer.Server.SearchFiles
import NetworkFileServer.Server.ArchiveContents
import NetworkFileServer.Framework.Folders
import NetworkFileServer.Framework.FolderPrograms
import NetworkFileServer.Server.FolderService
import NetworkFileServer.Server.FolderRefinement
import NetworkFileServer.Server.FolderRuns
import NetworkFileServer.Tunnel.HttpTransparency
import NetworkFileServer.Server.LinkTable
import NetworkFileServer.Server.SharedDownloads
import NetworkFileServer.Server.MountedOperations
