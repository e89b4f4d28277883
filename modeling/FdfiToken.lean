import FdfiToken.Lib.Checked
import FdfiToken.Lib.Run
import FdfiToken.Lib.FeeSchedule
import FdfiToken.Lib.TokenBucket
import FdfiToken.Lib.BigEndian
import FdfiToken.Lib.LockIssue
import FdfiToken.Lib.Shift
import FdfiToken.Lib.Rounding
import FdfiToken.Solana.Runtime
import FdfiToken.Solana.TokenProgram
import FdfiToken.Solana.Counters
import FdfiToken.Solana.Reference
import FdfiToken.Oft.Store
import FdfiToken.Oft.PeerConfig
import FdfiToken.Oft.MsgCodec
import FdfiToken.Oft.WireFormat
import FdfiToken.Oft.Fees
import FdfiToken.Oft.World
import FdfiToken.Oft.Admin
import FdfiToken.Oft.Send
import FdfiToken.Oft.Receive
import FdfiToken.Oft.Program
import FdfiToken.Oft.Reference
import FdfiToken.Oft.LimiterRefinement
import FdfiToken.Oft.NetFlow
import FdfiToken.Oft.Solvency
import FdfiToken.Oft.Authorisation
import FdfiToken.Oft.Peers
import FdfiToken.Oft.Deliverability
import FdfiToken.Oft.Quotes
import FdfiToken.Oft.Options
import FdfiToken.Oft.SendErrors
import FdfiToken.Oft.Amounts
import FdfiToken.Oft.Forecast
import FdfiToken.Oft.Limits
import FdfiToken.Oft.ReceiveTypes
import FdfiToken.Oft.Acceptance
import FdfiToken.Oft.Delivery
import FdfiToken.Oft.Dispatch
import FdfiToken.Oft.Waiting
import FdfiToken.Oft.Settings
import FdfiToken.Oft.Commutation
import FdfiToken.Mesh.Network
import FdfiToken.Mesh.Conservation
import FdfiToken.Mesh.EndToEnd
import FdfiToken.Evm.Runtime
import FdfiToken.Evm.ERC20
import FdfiToken.Evm.Token
import FdfiToken.Evm.Supply
import FdfiToken.Evm.RateLimiter
import FdfiToken.Evm.OFTCore
import FdfiToken.Evm.Contracts
import FdfiToken.Evm.Lanes
import FdfiToken.Evm.Mesh
import FdfiToken.Evm.Hooks
import FdfiToken.Evm.Backing
import FdfiToken.Mesh.Omnichain
import FdfiToken.Mesh.OmnichainBooks
import FdfiToken.Mesh.OmnichainBacking
import FdfiToken.Mesh.OmnichainDelivery
import FdfiToken.Mesh.OmnichainTransfer
import FdfiToken.Lib.Schedule
import FdfiToken.Oft.Schedules
import FdfiToken.Lib.LeakyBucket
import FdfiToken.Evm.LaneFlow
import FdfiToken.Evm.Schedules
import FdfiToken.Lib.Authority
import FdfiToken.Oft.Control
import FdfiToken.Evm.Proxy
import FdfiToken.Evm.Control
import FdfiToken.Lib.Weights
import FdfiToken.Lib.Ticket
import FdfiToken.Evm.Signatures
import FdfiToken.Evm.Votes
