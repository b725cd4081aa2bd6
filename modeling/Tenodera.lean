import Tenodera.Lib.Run
import Tenodera.Lib.Fifo
import Tenodera.Lib.Cell
import Tenodera.Lib.Text
import Tenodera.Lib.Utf8
import Tenodera.Lib.Table
import Tenodera.Lib.SortedMap
import Tenodera.Lib.IpAddr
import Tenodera.Lib.LossyUtf8
import Tenodera.Lib.Path
import Tenodera.Lib.Base64
import Tenodera.Lib.Effects
import Tenodera.Lib.Lines
import Tenodera.Lib.Words
import Tenodera.Lib.Slices
import Tenodera.Lib.Trim
import Tenodera.Lib.Descriptors
import Tenodera.Lib.Shell
import Tenodera.Lib.FileTree
import Tenodera.Lib.Columns
import Tenodera.Lib.Trailing
import Tenodera.Lib.Keyed
import Tenodera.Lib.Exclusive
import Tenodera.Lib.Getopt
import Tenodera.Lib.Process
import Tenodera.Protocol.Message
import Tenodera.Protocol.Codec
import Tenodera.Protocol.Roundtrip
import Tenodera.Protocol.Auth
import Tenodera.Agent.TerminalPty
import Tenodera.Agent.Router
import Tenodera.Agent.RouterTables
import Tenodera.Agent.StreamLoops
import Tenodera.Agent.GatewayPin
import Tenodera.Agent.Host
import Tenodera.Agent.FileOps
import Tenodera.Agent.Containers
import Tenodera.Agent.ContainerEffects
import Tenodera.Agent.Look
import Tenodera.Agent.Monitors
import Tenodera.Agent.Kdump
import Tenodera.Agent.Managers
import Tenodera.Agent.Networking
import Tenodera.Agent.TerminalEffects
import Tenodera.Agent.RoleGate
import Tenodera.Agent.Brokering
import Tenodera.Agent.TerminalOutput
import Tenodera.Agent.GatewayUrl
import Tenodera.Agent.LogTimestamps
import Tenodera.Agent.LogFiles
import Tenodera.Agent.GrepOutput
import Tenodera.Agent.AuditLog
import Tenodera.Agent.TextParsers
import Tenodera.Agent.AuthorizedKeys
import Tenodera.Agent.ChronyConfig
import Tenodera.Agent.PtyWriters
import Tenodera.Agent.ShellScripts
import Tenodera.Agent.UserPasswords
import Tenodera.Agent.HomeConfinement
import Tenodera.Agent.VolumePaths
import Tenodera.Agent.ContainerCreation
import Tenodera.Agent.ReadPaths
import Tenodera.Agent.KdumpConfig
import Tenodera.Agent.IniConfig
import Tenodera.Agent.PacmanRepos
import Tenodera.Agent.CertFiles
import Tenodera.Agent.PasswordLockout
import Tenodera.Agent.EnvFile
import Tenodera.Agent.RoleConfig
import Tenodera.Agent.ResolvedConf
import Tenodera.Agent.LsListing
import Tenodera.Agent.SocketLines
import Tenodera.Agent.FirewallRules
import Tenodera.Agent.FirewallRemoval
import Tenodera.Agent.NumericParams
import Tenodera.Agent.DiskScans
import Tenodera.Agent.DiskScanRuns
import Tenodera.Agent.Crontabs
import Tenodera.Agent.CappedReads
import Tenodera.Agent.Identity
import Tenodera.Agent.BlockDevices
import Tenodera.Agent.AutoUpdates
import Tenodera.Agent.UserProcesses
import Tenodera.Agent.Accounts
import Tenodera.Gateway.HostsConfig
import Tenodera.Gateway.HostsFileSafety
import Tenodera.Gateway.Identities
import Tenodera.Gateway.AgentAuth
import Tenodera.Gateway.TokenBudget
import Tenodera.Gateway.Enrollment
import Tenodera.Gateway.Registration
import Tenodera.Gateway.LiveTrust
import Tenodera.Gateway.UniqueHosts
import Tenodera.Gateway.TokenUse
import Tenodera.Gateway.AgentKeys
import Tenodera.Gateway.Handshake
import Tenodera.Gateway.Agreement
import Tenodera.Gateway.PendingQueue
import Tenodera.Gateway.Transactions
import Tenodera.Gateway.Approvals
import Tenodera.Gateway.KeyChanges
import Tenodera.Gateway.Channels
import Tenodera.Gateway.ChannelPrefix
import Tenodera.Gateway.Relay
import Tenodera.Gateway.Forwarding
import Tenodera.Gateway.Incarnations
import Tenodera.Gateway.Isolation
import Tenodera.Gateway.Kick
import Tenodera.Gateway.ConnectionEnds
import Tenodera.Gateway.Routing
import Tenodera.Gateway.Teardown
import Tenodera.Gateway.AgentRouters
import Tenodera.Gateway.Scrubbed
import Tenodera.Gateway.Impersonation
import Tenodera.Gateway.Sessions
import Tenodera.Gateway.SocketLoop
import Tenodera.Gateway.ClientIp
import Tenodera.Gateway.RateLimit
import Tenodera.Gateway.LimiterLaws
import Tenodera.Gateway.PendingCaps
import Tenodera.Gateway.ApprovalWait
import Tenodera.Gateway.ChallengeBinding
import Tenodera.Gateway.RpcCleanup
import Tenodera.Gateway.FullQueues
import Tenodera.Gateway.LocalHosts
import Tenodera.Gateway.RelayInbound
import Tenodera.Gateway.RelayOutbound
import Tenodera.Gateway.PamLogin
import Tenodera.Gateway.Panel
import Tenodera.Gateway.MutualAgreement
import Tenodera.Gateway.GatewayId
import Tenodera.Gateway.Privileges
import Tenodera.Gateway.HostChanges
import Tenodera.Ui.Transport
import Tenodera.Ui.StaleEvents
import Tenodera.Ui.TableEditors
