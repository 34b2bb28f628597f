import PhxSql.Lib.Transition
import PhxSql.Lib.SortedMap
import PhxSql.Lib.Bytes
import PhxSql.Lib.Framing
import PhxSql.Proto.Messages
import PhxSql.Proto.Codec
import PhxSql.Store.Storage
import PhxSql.Store.StorageFileManager
import PhxSql.Store.EventIndex
import PhxSql.Store.EventStorage
import PhxSql.Gtid.GtidHandler
import PhxSql.Master.MasterStorage
import PhxSql.Master.Cluster
import PhxSql.Master.MasterLog
import PhxSql.Master.Lease
import PhxSql.Master.Restart
import PhxSql.Store.Segments
import PhxSql.Paxos.Executer
import PhxSql.Lib.Wire
import PhxSql.Proto.Wire
import PhxSql.Paxos.ExactlyOnce
import PhxSql.Store.CheckPointManager
import PhxSql.Store.Lookup
import PhxSql.Store.Deletion
import PhxSql.Store.History
import PhxSql.Store.Representation
import PhxSql.Store.Reading
import PhxSql.Store.EmptySignUp
import PhxSql.Gtid.GtidSet
import PhxSql.Store.Groups
import PhxSql.Store.SignUp
import PhxSql.Monitor.MasterMonitor
import PhxSql.Store.GlobalCheckPoint
import PhxSql.Lib.Crash
import PhxSql.Store.Recovery
import PhxSql.Paxos.CrashRun
import PhxSql.Store.RecordFile
import PhxSql.Store.NoGap
import PhxSql.Client.PhxBinlogClient
import PhxSql.Client.QuorumRead
import PhxSql.Proxy.GroupStatusCache
import PhxSql.Proxy.IORoutine
import PhxSql.Proxy.Routing
import PhxSql.Monitor.AgentMonitor
import PhxSql.Binlog.BinlogGtidState
import PhxSql.Binlog.Truncation
import PhxSql.Store.FailingIo
import PhxSql.Paxos.Retry
import PhxSql.Store.FileShape
import PhxSql.Store.Transfer
import PhxSql.Store.LoadFiles
import PhxSql.Store.CheckPointTransfer
import PhxSql.Store.EventStream
import PhxSql.Gtid.EventSplit
import PhxSql.Repl.ReplicationTransfer
import PhxSql.Repl.CheckSum
import PhxSql.Store.Reload
import PhxSql.Store.CrashWrites
import PhxSql.Paxos.LogTable
import PhxSql.Paxos.CrashInvariant
import PhxSql.Monitor.PrintedSet
import PhxSql.Monitor.CatchUp
import PhxSql.Repl.PacketFraming
import PhxSql.Gtid.EventReads
import PhxSql.Gtid.EventChunks
import PhxSql.Proxy.ClientBuffer
import PhxSql.Lib.Tokens
import PhxSql.Proxy.ProxyProtocol
import PhxSql.Proxy.HeaderAcceptance
import PhxSql.Store.LastGtid
import PhxSql.Paxos.CrashHeaded
import PhxSql.Paxos.CrashRecovery
import PhxSql.Gtid.OrderedKey
import PhxSql.Store.OrderedIndex
import PhxSql.Store.UuidSnapshot
import PhxSql.Monitor.PaxosLogCount
import PhxSql.Proxy.FreqCtrl
import PhxSql.Proxy.FreqFilter
import PhxSql.Client.LeakyBucket
import PhxSql.Proxy.WriteToDest
import PhxSql.Repl.QueryRelay
import PhxSql.Store.NewestCheckPoint
import PhxSql.Lib.Subsequence
import PhxSql.Commit.SendBinLog
import PhxSql.Commit.Acknowledged
import PhxSql.Repl.Session
import PhxSql.Repl.EventFeed
import PhxSql.Lib.Script
import PhxSql.Monitor.ReadOnlySwitch
import PhxSql.Monitor.EventMonitor
import PhxSql.Monitor.MemberSignUp
import PhxSql.Monitor.CheckPointExport
import PhxSql.Master.RecordHistory
import PhxSql.Client.MasterInfoRpc
import PhxSql.Proxy.GroupView
import PhxSql.Proxy.GroupAgreement
import PhxSql.Monitor.MySqlUserInfo
import PhxSql.Proxy.HeaderExchange
import PhxSql.Proxy.ConnectionRelay
import PhxSql.Proxy.RelayExact
import PhxSql.Proxy.RelayChain
import PhxSql.Commit.BinlogFollowsLog
