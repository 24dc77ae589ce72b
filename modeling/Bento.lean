import Bento.Proofs.HostOrder
import Bento.Proofs.Replay
import Bento.Proofs.Restore
import Bento.Proofs.LoginRedirect
import Bento.Proofs.Isolation
import Bento.Proofs.SlotOwnership
import Bento.Proofs.SlotRuns
import Bento.Proofs.DiskSizes
import Bento.Proofs.NetworkSyncRuns
import Bento.Proofs.ProxyAccess
import Bento.Proofs.NameCooldown
import Bento.Proofs.StartStop
import Bento.Proofs.RestoreRuns
import Bento.Proofs.FailedRequests
import Bento.Proofs.Ownership
import Bento.Proofs.DefinitionRuns
import Bento.Proofs.RemoteCreateRuns
import Bento.Proofs.Challenges
import Bento.Proofs.ServedCertificate
import Bento.Proofs.OpenMachines
import Bento.Proofs.SessionOutput
import Bento.Proofs.MigrationRuns
import Bento.Proofs.ImageFiles
import Bento.Proofs.Credentials
import Bento.Proofs.DomainSpelling
import Bento.Proofs.SessionCookie
import Bento.Proofs.CrossOrigin
import Bento.Proofs.RpcRuns
import Bento.Proofs.Negotiation
import Bento.Proofs.SessionInput
import Bento.Proofs.CommandInput
import Bento.Proofs.CopiedDisk
import Bento.Proofs.SeedKeys
import Bento.Proofs.NewlineTranslation
import Bento.Proofs.ClientCalls
import Bento.Proofs.HeaderHygiene
import Bento.Sshfront.Command
import Bento.Tlscert.X509
import Bento.Auth.AccountName
