import TunnelServer.Lib.Run
import TunnelServer.Lib.Ring
import TunnelServer.Lib.Fifo
import TunnelServer.Lib.CMemory
import TunnelServer.Lib.HashIndex
import TunnelServer.Lib.LinkedList
import TunnelServer.Lib.Calls
import TunnelServer.ServerIp
import TunnelServer.Client
import TunnelServer.Protocol
import TunnelServer.ServerCommon
import TunnelServer.ServerConnect
import TunnelServer.ServerTransout
import TunnelServer.ServerTransin
import TunnelServer.Events
import TunnelServer.ServerAccesses
import TunnelServer.PoolRuns
import TunnelServer.ClientRuns
import TunnelServer.ServerRuns
import TunnelServer.Uthash
import TunnelServer.HashRuns
import TunnelServer.HashJen
import TunnelServer.UtClient
import TunnelServer.Gateway
import TunnelServer.UtServer
import TunnelServer.ServerStart
import TunnelServer.Proof.Pool
import TunnelServer.Proof.PoolRuns
import TunnelServer.Proof.PoolQueue
import TunnelServer.Proof.PoolSids
import TunnelServer.Proof.PoolTables
import TunnelServer.Proof.Registry
import TunnelServer.Proof.ClientRuns
import TunnelServer.Proof.Handlers
import TunnelServer.Proof.Step
import TunnelServer.Proof.Sound
import TunnelServer.Proof.Addresses
import TunnelServer.Proof.Conservation
import TunnelServer.Proof.Filling
import TunnelServer.Proof.Eviction
import TunnelServer.Proof.TimerOwners
import TunnelServer.Proof.Cleanup
import TunnelServer.Proof.Datagram
import TunnelServer.Proof.Handshake
import TunnelServer.Proof.Reconnect
import TunnelServer.Proof.Resending
import TunnelServer.Proof.Sessions
import TunnelServer.Proof.Guids
import TunnelServer.Proof.Watchers
import TunnelServer.Proof.Traffic
import TunnelServer.Proof.TunErrors
import TunnelServer.Proof.Genuine
import TunnelServer.Proof.Lengths
import TunnelServer.Proof.Routing
import TunnelServer.Proof.Expiry
import TunnelServer.Proof.HashTable
import TunnelServer.Proof.HashAdd
import TunnelServer.Proof.HashExpand
import TunnelServer.Proof.HashDelete
import TunnelServer.Proof.HashLoad
import TunnelServer.Proof.HashIndex
import TunnelServer.Proof.HashRuns
import TunnelServer.Proof.HashJen
import TunnelServer.Proof.UtClient
import TunnelServer.Proof.Gateway
import TunnelServer.Proof.Leases
import TunnelServer.Proof.Service
import TunnelServer.Proof.UtServer
import TunnelServer.Proof.Defined
import TunnelServer.Proof.Session
import TunnelServer.Proof.Relay
import TunnelServer.Proof.Alone
import TunnelServer.Proof.Start
