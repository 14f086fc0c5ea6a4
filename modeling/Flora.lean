import Flora.Lib.Transition
import Flora.Lib.AssocMap
import Flora.Wire
import Flora.Socket.Framing
import Flora.Socket.Streams
import Flora.Client.Framing
import Flora.Socket.ClientEnd
import Flora.Socket.Uplink
import Flora.Client.Api
import Flora.Client.Callbacks
import Flora.Dispatcher.State
import Flora.Dispatcher.Ownership
import Flora.Dispatcher.Subscriptions
import Flora.Dispatcher.PendingCalls
import Flora.Dispatcher.Relay
import Flora.Dispatcher.Persist
import Flora.Dispatcher.Expiry
import Flora.Dispatcher.InfoReads
import Flora.Dispatcher.Methods
import Flora.Monitor.Watch
import Flora.Monitor.Grammar
import Flora.Service.Zombies
import Flora.Service.Records
import Flora.Service.Closing
import Flora.Service.Departures
import Flora.Poll.Keepalive
import Flora.Poll.Timeout
import Flora.Poll.Lifecycle
import Flora.Rpc.Matching
import Flora.Rpc.Deadline
import Flora.Rpc.Sleep
import Flora.Rpc.Topics
import Flora.Client.Entries
import Flora.Client.Auth
import Flora.Client.Reply
import Flora.Client.MsgSender
import Flora.Dispatcher.Tags
import Flora.Agent.Wake
import Flora.Agent.Sync
import Flora.Agent.Gabages
import Flora.Agent.Closing
import Flora.Client.Lifecycle
