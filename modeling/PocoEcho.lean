import PocoEcho.Library.BoundedQueue
import PocoEcho.Library.Channel
import PocoEcho.Library.CharArray
import PocoEcho.Library.Console
import PocoEcho.Library.Decimal
import PocoEcho.Library.FifoService
import PocoEcho.Library.Istream
import PocoEcho.Library.Logged
import PocoEcho.Library.Machine
import PocoEcho.Library.Pointer
import PocoEcho.Library.Prompts
import PocoEcho.Library.Registry
import PocoEcho.Library.Relay
import PocoEcho.Library.Simulation
import PocoEcho.Library.Sql
import PocoEcho.Library.Trace
import PocoEcho.Library.Transfer
import PocoEcho.Library.Word
import PocoEcho.Library.Words
import PocoEcho.Poco.FIFOBuffer
import PocoEcho.Network.CNetwork
import PocoEcho.Network.CNetworkServer
import PocoEcho.Network.ClientLoop
import PocoEcho.Network.Environment
import PocoEcho.Network.Handler
import PocoEcho.Network.HandlerList
import PocoEcho.Network.MessageBody
import PocoEcho.Network.Packets
import PocoEcho.Network.ServerLoop
import PocoEcho.Network.ServerLoop.Clients
import PocoEcho.Network.ServerLoop.Steps
import PocoEcho.Network.SharedBuffer
import PocoEcho.Network.Shutdown
import PocoEcho.Network.Teardown
import PocoEcho.Network.TryClientStart
import PocoEcho.Server.Admission
import PocoEcho.Server.CServer
import PocoEcho.Server.CWhiteList
import PocoEcho.Server.Console
import PocoEcho.Server.CrossTalk
import PocoEcho.Server.Dispatch
import PocoEcho.Server.Echo
import PocoEcho.Server.EchoSize
import PocoEcho.Server.Failure
import PocoEcho.Server.Grammar
import PocoEcho.Server.Isolation
import PocoEcho.Server.Packets
import PocoEcho.Server.Program
import PocoEcho.Server.Reassembly
import PocoEcho.Server.Runs
import PocoEcho.Server.Script
import PocoEcho.Server.Sessions
import PocoEcho.Server.WhiteListRestart
import PocoEcho.Server.WhiteListSql
import PocoEcho.Server.WhiteListStore
import PocoEcho.Client.CActionManager
import PocoEcho.Client.CClient
import PocoEcho.Client.COption
import PocoEcho.Client.Connection
import PocoEcho.Client.Console
import PocoEcho.Client.Encoders
import PocoEcho.Client.Framing
import PocoEcho.Client.Grammar
import PocoEcho.Client.Mailbox
import PocoEcho.Client.Reassembly
import PocoEcho.Client.Runs
import PocoEcho.Client.Script
import PocoEcho.Client.SendRace
import PocoEcho.System.Accounting
import PocoEcho.System.CatchUp
import PocoEcho.System.Closing
import PocoEcho.System.ClientSteps
import PocoEcho.System.EchoSystem
import PocoEcho.System.Failures
import PocoEcho.System.Frames
import PocoEcho.System.Interruptions
import PocoEcho.System.Progress
import PocoEcho.System.ServerSteps
import PocoEcho.System.Situation
import PocoEcho.System.Steps
import PocoEcho.System.Turns
import PocoEcho.System.Whitelist
import PocoEcho.ConsoleInput
import PocoEcho.RoundTrip
import PocoEcho.ShortSends
import PocoEcho.WholeFrames
