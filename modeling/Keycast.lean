import Keycast.Atproto.OAuth
import Keycast.Atproto.Proofs
import Keycast.Atproto.Replay
import Keycast.Atproto.Session
import Keycast.Atproto.SingleUse
import Keycast.Atproto.Statements
import Keycast.Atproto.Stored
import Keycast.Atproto.Subject
import Keycast.Cluster.Cleanup
import Keycast.Cluster.Coordinator
import Keycast.Cluster.Disruption
import Keycast.Cluster.Races
import Keycast.Cluster.Registration
import Keycast.Cluster.Ring
import Keycast.Cluster.TokenCache
import Keycast.Core.Accounts
import Keycast.Core.BuiltIn
import Keycast.Core.BunkerKey
import Keycast.Core.Credentials
import Keycast.Core.Db
import Keycast.Core.External
import Keycast.Core.Grants
import Keycast.Core.KeyCache
import Keycast.Core.OAuthCodes
import Keycast.Core.Permission
import Keycast.Core.RegisteredClients
import Keycast.Core.Reinvitation
import Keycast.Core.Schema
import Keycast.Core.Scope
import Keycast.Core.SharedPermissions
import Keycast.Core.Teams
import Keycast.Core.Wildcards
import Keycast.Http.Acceptance
import Keycast.Http.Account
import Keycast.Http.ApiCalls
import Keycast.Http.AppRevocation
import Keycast.Http.BroughtKey
import Keycast.Http.Callback
import Keycast.Http.Claims
import Keycast.Http.Commerce
import Keycast.Http.Confined
import Keycast.Http.ConfinedCalls
import Keycast.Http.CustomerDeletion
import Keycast.Http.DevicePoll
import Keycast.Http.DirectSign
import Keycast.Http.EmailProof
import Keycast.Http.EmailTokens
import Keycast.Http.Escalation
import Keycast.Http.Exchange
import Keycast.Http.FastPath
import Keycast.Http.FirstSignIn
import Keycast.Http.Freshness
import Keycast.Http.Handler
import Keycast.Http.Invitations
import Keycast.Http.Isolation
import Keycast.Http.KeyChange
import Keycast.Http.LastAdmin
import Keycast.Http.LinkLimit
import Keycast.Http.LinkRefusal
import Keycast.Http.MagicLink
import Keycast.Http.Nip98
import Keycast.Http.Nip98Replay
import Keycast.Http.Notices
import Keycast.Http.OAuth
import Keycast.Http.OldLinks
import Keycast.Http.PasswordChange
import Keycast.Http.Policy
import Keycast.Http.PolicyCreation
import Keycast.Http.PolicyOrder
import Keycast.Http.Preload
import Keycast.Http.Presented
import Keycast.Http.RateLimit
import Keycast.Http.Redirects
import Keycast.Http.RefreshGrant
import Keycast.Http.Register
import Keycast.Http.ResetTokens
import Keycast.Http.Revocation
import Keycast.Http.Rpc
import Keycast.Http.SecretPool
import Keycast.Http.Signup
import Keycast.Http.SignupPassword
import Keycast.Http.SilentApproval
import Keycast.Http.SingleUse
import Keycast.Http.Slices
import Keycast.Http.SupportAccess
import Keycast.Http.SupportAdmins
import Keycast.Http.System
import Keycast.Http.Teams
import Keycast.Http.Tenancy
import Keycast.Http.Tenants
import Keycast.Http.TokenServer
import Keycast.Http.Validity
import Keycast.Http.Verification
import Keycast.Lib.Bech32
import Keycast.Lib.Cache
import Keycast.Lib.Faults
import Keycast.Lib.Histories
import Keycast.Lib.Interleave
import Keycast.Lib.Interrupted
import Keycast.Lib.Ledger
import Keycast.Lib.Mutex
import Keycast.Lib.Outbox
import Keycast.Lib.Percent
import Keycast.Lib.Prog
import Keycast.Lib.ReadThrough
import Keycast.Lib.Replay
import Keycast.Lib.Run
import Keycast.Lib.Table
import Keycast.Lib.Url
import Keycast.Lib.Utf8
import Keycast.Lib.Within
import Keycast.Signer.ClientBinding
import Keycast.Signer.ConnectedClient
import Keycast.Signer.Daemon
import Keycast.Signer.DeadConnect
import Keycast.Signer.Handler
import Keycast.Signer.OAuthRevocation
import Keycast.Signer.RelayQueue
import Keycast.Signer.SignEvent
import Keycast.Signer.System
import Keycast.Signer.TeamRevocation
