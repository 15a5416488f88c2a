import Spmfilter.Lib.CString
import Spmfilter.Lib.Source
import Spmfilter.Lib.Machine
import Spmfilter.Lib.Chunks
import Spmfilter.Lib.Stdio
import Spmfilter.Lib.Buffer
import Spmfilter.Lib.IoFaults
import Spmfilter.Lib.Files
import Spmfilter.Lib.Scanf
import Spmfilter.Lib.Slots
import Spmfilter.Lib.Graph
import Spmfilter.Lib.Transition
import Spmfilter.Lib.Overwrite
import Spmfilter.Core
import Spmfilter.Core.Expand
import Spmfilter.Core.ExpandBuffer
import Spmfilter.Dict
import Spmfilter.Internal
import Spmfilter.Internal.Readline
import Spmfilter.Session
import Spmfilter.Event
import Spmfilter.Settings
import Spmfilter.Settings.Parse
import Spmfilter.Settings.Values
import Spmfilter.Settings.Reading
import Spmfilter.Settings.Groups
import Spmfilter.Settings.Writes
import Spmfilter.Settings.Lines
import Spmfilter.Settings.Bounds
import Spmfilter.Settings.Continuation
import Spmfilter.Message
import Spmfilter.Message.Files
import Spmfilter.Message.Faults
import Spmfilter.Nexthop
import Spmfilter.Modules
import Spmfilter.Lookup
import Spmfilter.Internal.Users
import Spmfilter.Internal.Query
import Spmfilter.Modules.Dirty
import Spmfilter.Modules.Stop
import Spmfilter.Modules.Sequence
import Spmfilter.Smtpd.Reply
import Spmfilter.Smtpd.Data
import Spmfilter.Smtpd.Client
import Spmfilter.Smtpd.DataLoop
import Spmfilter.Smtpd.DotStuffing
import Spmfilter.Smtpd.Run
import Spmfilter.Smtpd.Append
import Spmfilter.Smtpd.Flags
import Spmfilter.Smtpd.Repair
import Spmfilter.Smtpd.Pipelining
import Spmfilter.Smtpd.Transaction
import Spmfilter.Smtpd.Reset
import Spmfilter.Smtpd.Process
import Spmfilter.Smtpd.Outcome
import Spmfilter.Smtpd.Size
import Spmfilter.Smtpd.FinalReply
import Spmfilter.Smtpd.Verbatim
import Spmfilter.Smtpd.Delivery
import Spmfilter.Smtpd.Incomplete
import Spmfilter.Pipe
import Spmfilter.Modules.Queue
import Spmfilter.Modules.Proceed
import Spmfilter.Modules.Flush
import Spmfilter.Modules.Replace
import Spmfilter.Modules.Reload
import Spmfilter.Modules.Header
import Spmfilter.Server
import Spmfilter.Server.Pool
import Spmfilter.Server.Counters
import Spmfilter.Server.Accounting
import Spmfilter.Server.Faults
import Spmfilter.Server.Loop
import Spmfilter.Server.Capacity
import Spmfilter.Server.Refill
import Spmfilter.Server.Wakeup
import Spmfilter.Trace
import Spmfilter.Core.Copy
import Spmfilter.Internal.Stream
import Spmfilter.Nexthop.File
import Spmfilter.Lookup.Hosts
import Spmfilter.Lookup.Target
import Spmfilter.Lookup.Pool
import Spmfilter.Lookup.Query
import Spmfilter.Lookup.Ldap
import Spmfilter.Dict.Growth
import Spmfilter.Lib.Decimal
import Spmfilter.Lookup.Configured
import Spmfilter.Settings.Limits
import Spmfilter.Dict.Ulong
import Spmfilter.Core.Split
import Spmfilter.Internal.Writen
import Spmfilter.Internal.Slicing
import Spmfilter.Lib.Search
import Spmfilter.Smtpd.Address
import Spmfilter.Smtpd.Xforward
import Spmfilter.Lib.Calls
import Spmfilter.Wrappers
import Spmfilter.Message.Skip
import Spmfilter.Smtpd.Cleanup
import Spmfilter.Lib.Blocks
import Spmfilter.Md5
import Spmfilter.Md5.Stream
import Spmfilter.Pipe.Engines
import Spmfilter.Pipe.Load
import Spmfilter.Lib.Heap
import Spmfilter.Session.Memory
import Spmfilter.Lib.Turns
import Spmfilter.Smtpd.Answers
import Spmfilter.Handover
import Spmfilter.Dict.Memory
import Spmfilter.Dict.Calls
import Spmfilter.Lib.Handles
import Spmfilter.Lookup.Entries
import Spmfilter.Lookup.Process
import Spmfilter.Lookup.Fetch
import Spmfilter.Lib.Locality
import Spmfilter.Settings.Loading
import Spmfilter.Settings.Order
import Spmfilter.Settings.Meaning
import Spmfilter.Nexthop.Deliver
import Spmfilter.Lib.Permits
import Spmfilter.Lookup.Exhaustion
