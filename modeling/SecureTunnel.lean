import SecureTunnel.General.Transition
import SecureTunnel.Core.Channel
import SecureTunnel.Core.Identities
import SecureTunnel.Relay.Reader
import SecureTunnel.Relay.Stop
import SecureTunnel.Relay.Drain
import SecureTunnel.Relay.Idle
import SecureTunnel.Relay.Deadline
import SecureTunnel.Relay.Limits
import SecureTunnel.Relay.Progress
import SecureTunnel.Client.Accounting
import SecureTunnel.Server.Relayed
import SecureTunnel.Service.Ledger
import SecureTunnel.Service.Shutdown
import SecureTunnel.Service.Confinement
import SecureTunnel.Config.Keygen
import SecureTunnel.Bench.Report
import SecureTunnel.Deploy.Keeping
import SecureTunnel.Deploy.Outcome
import SecureTunnel.Protocol.Sessions
import SecureTunnel.Protocol.Conversation
import SecureTunnel.Startup.Approval
