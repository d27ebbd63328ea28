import Serval.Bst.Basic
import Serval.Bst.Layout
import Serval.Bst.Insert
import Serval.Bst.History
import Serval.Bst.Sound
import Serval.Bst.Subtree
import Serval.Service.Basic
import Serval.Service.TargetSets
import Serval.Service.Entry
import Serval.Service.EntrySweep
import Serval.Service.EntryHistory
import Serval.Service.EntryUndo
import Serval.Service.Sampling
import Serval.Service.Table
import Serval.Service.TableRep
import Serval.Service.TableAdd
import Serval.Service.TableHistory
import Serval.Service.ReadBack
import Serval.Service.Accounting
import Serval.Service.Isolation
import Serval.Service.AddDelete
import Serval.Service.Uniqueness
import Serval.Sal.Parse
import Serval.Sal.Grammar
import Serval.Sal.Accept
import Serval.Sal.Checksum
import Serval.Sal.Build
import Serval.Sal.RoundTrip
import Serval.Sal.Source
import Serval.Sal.Insert
import Serval.Sal.Sources
import Serval.Sal.AddSource
import Serval.Sal.Forward
import Serval.Sal.Resolve
import Serval.Sal.Hop
import Serval.Sal.Wrap
import Serval.Sal.Loops
import Serval.Sal.Header
import Serval.Support.Serial
import Serval.Sal.Socket
import Serval.Sal.Transmit
import Serval.Sal.Control
import Serval.Sal.State
import Serval.Sal.Listener
import Serval.Sal.Acts
import Serval.Sal.Calls
import Serval.Sal.Close
import Serval.Sal.Fin
import Serval.Sal.Resolution
import Serval.Sal.Overread
import Serval.Delay.Conservation
import Serval.Sal.Custody
import Serval.Sal.Backlog
import Serval.Sock.Registry
import Serval.Sock.Owners
import Serval.Sock.Registration
import Serval.Sal.Migration
import Serval.Ctrl.Handlers
import Serval.Ctrl.Loops
import Serval.Ctrl.Replies
import Serval.Servd.Router
import Serval.Servd.Agreement
import Serval.Sal.Backoff
import Serval.Sock.Migrate
import Serval.Sal.SeqNumbers
import Serval.Sal.LostAck
import Serval.Sal.Answers
import Serval.Sal.Requests
import Serval.Sal.Malformed
import Serval.Sal.Addresses
import Serval.Sal.Parties
import Serval.Sal.Handshake
import Serval.Sal.Udp
import Serval.Service.Statistics
import Serval.Client.Message
import Serval.Tools.ServiceArgs
import Serval.Tools.Hex
import Serval.Channel.Lookup
import Serval.Servd.TimerOps
import Serval.Userlevel.Timer
import Serval.Servd.HeapOrder
import Serval.Bst.Destroy
import Serval.Bst.Print
import Serval.Userlevel.Iovec
import Serval.Bst.Lifecycle
import Serval.Service.Lookup
import Serval.Tcp.Window
import Serval.Sal.Survival
import Serval.Sal.Nonce
