import Elephant.Schemes.Run
import Elephant.Schemes.Js
import Elephant.Schemes.Table
import Elephant.Schemes.Queue
import Elephant.Model.Session
import Elephant.Listen.Worker
import Elephant.Listen.Pipeline
import Elephant.ClientMap.Store
import Elephant.ClientMap.Network
import Elephant.ClientMap.Ordering
import Elephant.Push.World
import Elephant.Push.Invariant
import Elephant.Push.Callback
import Elephant.Push.Dropped
import Elephant.Push.AckRace
import Elephant.Refresh.Counter
import Elephant.Refresh.Exchange
import Elephant.Api.Body
import Elephant.Api.Validate
import Elephant.Schemes.Waterfall
import Elephant.Blacklist.Agreement
import Elephant.App.Dispatch
import Elephant.ClientMap.Backends
import Elephant.ClientMap.Deletion
import Elephant.Api.Handlers
import Elephant.App.LocalPush
import Elephant.App.Accounting
import Elephant.Api.Spdy
import Elephant.App.Farm
import Elephant.App.Removal
import Elephant.App.Delivery
import Elephant.App.Address
import Elephant.ClientMap.Adding
import Elephant.Push.Stream
import Elephant.Push.Cancel
import Elephant.Push.BackOut
import Elephant.Schemes.Retry
import Elephant.Push.Retries
import Elephant.Persistence.SequelizeWrapper
import Elephant.Model.ClientPushId
import Elephant.Api.PingInterval
import Elephant.Schemes.JsonText
import Elephant.Schemes.CString
import Elephant.Api.Chunks
import Elephant.Refresh.Atomic
import Elephant.Schemes.Stringify
import Elephant.Api.BasicAuth
import Elephant.Api.Framing
import Elephant.Api.FieldSizes
import Elephant.App.CallbackData
import Elephant.Client.Spdycli
import Elephant.Client.Registration
import Elephant.Client.Ack
import Elephant.Listen.Connected
import Elephant.App.Ownership
import Elephant.Push.Success
import Elephant.Api.Admin
import Elephant.App.Forwarding
import Elephant.Client.ParseUri
import Elephant.Pool.PoolLayer
import Elephant.Router.Routes
import Elephant.Client.Protocol
import Elephant.Blacklist.Authority
import Elephant.App.Reached
