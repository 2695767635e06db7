import PServer.Support.Bytes
import PServer.Support.Run
import PServer.Support.History
import PServer.Support.Readiness
import PServer.Support.Effort
import PServer.Support.Heap
import PServer.Support.Linked
import PServer.Support.Ownership
import PServer.Support.Printf
import PServer.HashTable
import PServer.HashMap
import PServer.HashNodes
import PServer.Despatch
import PServer.EventManager
import PServer.LogManager
import PServer.Database.Pool
import PServer.Database.Exclusive
import PServer.Database.Shortage
import PServer.Database.Results
import PServer.Lua.State
import PServer.Lua.GetVal
import PServer.Lua.Path
import PServer.Lua.Contained
import PServer.Lua.Call
import PServer.Lua.Arguments
import PServer.Lua.Discipline
import PServer.Message.Basic
import PServer.Message.Receive
import PServer.Message.Output
import PServer.Message.Codec
import PServer.Message.Decoding
import PServer.Message.ReadBack
import PServer.Framing.Parser
import PServer.Framing.Arrival
import PServer.Framing.Alone
import PServer.Framing.Stream
import PServer.Queue.PackageList
import PServer.Queue.Interleaving
import PServer.Server.State
import PServer.Server.Receive
import PServer.Server.Output
import PServer.Server.Connection
import PServer.Server.Ownership
import PServer.Server.Frame
import PServer.Server.Pending
import PServer.Server.Arming
import PServer.System.Machine
import PServer.System.Invariant
import PServer.System.Orderly
import PServer.System.Moves
import PServer.System.Ownership
import PServer.System.Outgoing
import PServer.System.PartialSend
import PServer.System.ClearOld
import PServer.System.Views
import PServer.System.Transit
import PServer.System.Isolation
import PServer.System.Rest
import PServer.System.Stream
import PServer.System.Bounds
import PServer.System.Closing
import PServer.System.Delivery
import PServer.System.Handlers
import PServer.System.Dispatch
import PServer.System.Reply
import PServer.System.ConnectTime
import PServer.System.Faults
import PServer.System.Draining
import PServer.System.Sent
import PServer.System.PackDeal
import PServer.System.Answers
import PServer.Kernel.Socket
import PServer.Kernel.World
import PServer.Kernel.Taken
import PServer.Kernel.Unread
import PServer.Kernel.Waiting
import PServer.Kernel.Unsent
import PServer.Kernel.Progress
import PServer.Process.Machine
import PServer.Process.Invariant
import PServer.Process.Freed
import PServer.Process.Ledger
import PServer.Process.Table
import PServer.Process.Shutdown
