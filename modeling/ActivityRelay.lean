import ActivityRelay.Fallible.Result
import ActivityRelay.Transition.Run
import ActivityRelay.GoString.Utf8
import ActivityRelay.GoString.Case
import ActivityRelay.GoString.Text
import ActivityRelay.HttpSignature.Profile
import ActivityRelay.Interaction.Program
import ActivityRelay.Redis.Cell
import ActivityRelay.Deliver.Task
import ActivityRelay.Deliver.FanOut
import ActivityRelay.Deliver.RemainCount
import ActivityRelay.Directory.State
import ActivityRelay.Directory.Store
import ActivityRelay.Directory.Client
import ActivityRelay.Directory.Scheduler
import ActivityRelay.Directory.Backoff
import ActivityRelay.Directory.Command
import ActivityRelay.Directory.Cycle
import ActivityRelay.Directory.Deadline
import ActivityRelay.Directory.Startup
import ActivityRelay.Directory.Persisted
import ActivityRelay.Directory.Observed
import ActivityRelay.Directory.Process
import ActivityRelay.GoJson.Decode
import ActivityRelay.GoJson.Tokens
import ActivityRelay.GoJson.Encode
import ActivityRelay.GoJson.Grammar
import ActivityRelay.GoJson.Parts
import ActivityRelay.GoJson.Reorder
import ActivityRelay.GoJson.Strict
import ActivityRelay.DirectoryClient.StrictJson
import ActivityRelay.DirectoryClient.Vocabulary
import ActivityRelay.DirectoryClient.MemberOrder
import ActivityRelay.GoTime.HttpDate
import ActivityRelay.Mime.MediaType
import ActivityRelay.DirectoryClient.RetryAfter
import ActivityRelay.GoString.Base64
import ActivityRelay.HttpMessage.Request
import ActivityRelay.HttpMessage.Challenge
import ActivityRelay.HttpSignature.Identity
import ActivityRelay.HttpSignature.NonceStore
import ActivityRelay.Inbound.Accepted
import ActivityRelay.Inbound.Binding
import ActivityRelay.Inbound.LegacySignature
import ActivityRelay.Queue.Capacity
import ActivityRelay.Models.Reload
import ActivityRelay.HttpSignature.DestinationStore
import ActivityRelay.HttpSignature.Fetch
import ActivityRelay.HttpSignature.Rejection
import ActivityRelay.Api.FanOut
import ActivityRelay.Api.Inbox
import ActivityRelay.Api.LoopGuard
import ActivityRelay.Models.Followers
import ActivityRelay.Control.Config
import ActivityRelay.DirectoryConfig.Concurrent
import ActivityRelay.DirectoryConfig.Backup
import ActivityRelay.DirectoryConfig.Durability
import ActivityRelay.Api.Targets
import ActivityRelay.Models.Snapshot
import ActivityRelay.NetIp.RoundTrip
import ActivityRelay.GoString.TrimSpace
import ActivityRelay.NetUrl.HostBytes
import ActivityRelay.NetUrl.Authority
import ActivityRelay.Api.Distribution
import ActivityRelay.HttpSignature.Origin
import ActivityRelay.Directory.OriginForm
import ActivityRelay.DirectoryClient.ProfileLaws
import ActivityRelay.DirectoryClient.Http
import ActivityRelay.DirectoryClient.Reconciliation
import ActivityRelay.HttpSignature.Normalization
import ActivityRelay.Interaction.Store
import ActivityRelay.Interaction.Panic
import ActivityRelay.Api.Registration
import ActivityRelay.Api.Following
import ActivityRelay.Models.ReceiverHealth
import ActivityRelay.Api.Status
import ActivityRelay.Control.Domain
import ActivityRelay.HttpClient.Redirect
import ActivityRelay.Deliver.Sender
import ActivityRelay.ResourceGuard.Scheduled
