import TunnelServer.Events
import TunnelServer.UtClient

/-!
# The server over its hash tables

`Server` looks clients up in two keyed indexes. This is the same server over what `client.c` and `uthash.h`
make of them. A handler that looks somebody up, enrolls a client or deletes one goes through the hash tables
here; what the handlers do to a record they have found does not concern the tables, and is taken from
`Server`.
-/

namespace TunnelServer

structure UtServer where
  pool : IpPool
  clients : UtClientTable
  timers : Handle → Option Timer
  ctx : ServerCtx
  trace : List Effect

namespace UtServer

def records (u : UtServer) : Server where
  pool := u.pool
  clients := { heap := u.clients.heap, brk := u.clients.brk, gClientsIp := .empty, gClientsGuid := .empty }
  timers := u.timers
  ctx := u.ctx
  trace := u.trace

def onRecords (f : Server → Option Server) (u : UtServer) : Option UtServer := do
  let s ← f u.records
  some
    { pool := s.pool
      clients := { u.clients with heap := s.clients.heap, brk := s.clients.brk }
      timers := s.timers
      ctx := s.ctx
      trace := s.trace }

variable (hash : List UInt8 → UInt32) (fuel : Nat) (alloc : Handle → UtAlloc)

def deleteClient (cli : Handle) (u : UtServer) : Option UtServer := do
  let (pool, clients) ← u.clients.deleteClient IpPool.serverReclaimIp (some cli) u.pool
  some { u with pool, clients }

def serverOnConnect (env : Env) (u : UtServer) : Option UtServer := do
  guard (0 ≤ u.ctx.guidLen ∧ u.ctx.guidLen < 60)
  let guid := u.ctx.guidBytes ++ [0]
  match ← u.clients.findClientByGuid hash fuel guid with
  | some cli => u.onRecords (Server.startHandshake env cli)
  | none => do
    let (cli, clients) := u.clients.newClient alloc env.mem
    let cli ← cli
    let c ← clients.heap cli
    let (ip, sid, pool) ← u.pool.serverAllocateIp
    let c := { c with guid := memcpy c.guid guid, ip, sid }
    let clients := { clients with heap := Function.update clients.heap cli (some c) }
    let (added, pool, clients) ←
      clients.addClient hash fuel IpPool.serverReclaimIp alloc (some cli) pool
    let u := { u with pool, clients, trace := u.trace ++ [Effect.allocate ip sid] }
    if added then u.onRecords (Server.startHandshake env cli)
    else some { u with clients := u.clients.free cli }

def timeoutCb (env : Env) (error : Bool) (w : Handle) (u : UtServer) : Option UtServer := do
  if error then some u
  else
    let watcher ← u.clients.heap w
    match watcher.timeoutWatcher.data with
    | none => some u
    | some cli =>
      let c ← u.clients.heap cli
      match c.state with
      | .connect =>
        let u ← u.onRecords fun s =>
          some (s.setClient cli { c with resendCounter := c.resendCounter + 1 })
        if c.resendCounter < SERVER_MAX_RESEND_COUNT then u.onRecords (Server.sendConnectOk env cli)
        else u.deleteClient cli
      | .connectDone =>
        u.onRecords fun s => do
          let s := s.evTimerStop cli
          let s ← s.evTimerInit cli .timeoutCbDeleteClient CLIENT_TIMEOUT_TO_DELETE
          s.evTimerStart cli env.now

def timeoutCbDeleteClient (error : Bool) (w : Handle) (u : UtServer) : Option UtServer := do
  if error then some u
  else
    let watcher ← u.clients.heap w
    match watcher.timeoutWatcher.data with
    | none => some u
    | some cli =>
      let c ← u.clients.heap cli
      if c.state = .connectDone then u.deleteClient cli else some u

def serverOnConnectDone (u : UtServer) : Option UtServer := do
  match ← u.clients.findClient hash fuel u.ctx.doneIp with
  | none => some u
  | some cli => do
    let c ← u.clients.heap cli
    u.onRecords fun s => some (s.setClient cli { c with state := .connectDone })

def serverOnTransout (env : Env) (u : UtServer) : Option UtServer := do
  match ← u.clients.findClient hash fuel (u.ctx.transoutIp env.cliIp) with
  | none => u.onRecords fun s => some s.sendDisconnect
  | some cli => do
    let c ← u.clients.heap cli
    if c.sid ≠ u.ctx.transoutSid then u.onRecords fun s => some s.sendDisconnect
    else
      let c := { c with srcAddr := u.ctx.srcAddr }
      u.onRecords fun s =>
        let s := (s.setClient cli c).writeTun env.nwrite
        if env.now - c.ts > CLIENT_EXPAND_TIMEOUT_TIME then do
          let s := s.setClient cli { c with ts := env.now }
          let s := s.evTimerStop cli
          let s ← s.evTimerInit cli .timeoutCbDeleteClient CLIENT_TIMEOUT_TO_DELETE
          s.evTimerStart cli env.now
        else some s

def serverOnTransin (cliIp : UInt32) (u : UtServer) : Option UtServer := do
  match ← u.clients.findClient hash fuel (u.ctx.tunBuffer.transinIp cliIp) with
  | none => some u
  | some cli => do
    let c ← u.clients.heap cli
    u.onRecords fun s =>
      let bufSize := s.ctx.tunBuffer.transinSize
      let data := memcpy s.ctx.tunBuffer.data [TUNNEL_VERSION, TUNNEL_CMD_TRANS_IN]
      let s := { s with ctx := { s.ctx with tunBuffer := { s.ctx.tunBuffer with data } } }
      some (s.emit (.sendto (some cli) c.srcAddr (data.take bufSize.toNat)))

def dispatch (env : Env) (u : UtServer) : Option UtServer :=
  if u.ctx.cmd = TUNNEL_CMD_CONNECT then u.serverOnConnect hash fuel alloc env
  else if u.ctx.cmd = TUNNEL_CMD_CONNECT_DONE then u.serverOnConnectDone hash fuel
  else if u.ctx.cmd = TUNNEL_CMD_TRANS_OUT then u.serverOnTransout hash fuel env
  else some u

def socketRead (error : Bool) (received : Option (List UInt8 × SockAddr)) (env : Env) (u : UtServer) :
    Option UtServer :=
  if error then some u
  else
    match received with
    | none =>
      some
        { u with
          ctx := { u.ctx with sockBuffer := List.replicate TUNNEL_BUF_SIZE 0, sockBufSize := 0 } }
    | some (bytes, src) => do
      let u ← u.onRecords fun s => some (s.receive bytes src)
      u.dispatch hash fuel alloc env

def tunRead (error : Bool) (received : Option (List UInt8)) (cliIp : UInt32) (u : UtServer) :
    Option UtServer :=
  if error then some u
  else
    let head := sizeofTunnelTransInHeader
    let bytes := (received.getD []).take (TUNNEL_BUF_SIZE - head)
    let nread : UInt64 := if received.isSome then UInt64.ofNat bytes.length else UInt64.ofInt (-1)
    let buf := u.ctx.tunBuffer
    let data := buf.data.take head ++ memcpy (buf.data.drop head) bytes
    let u := { u with ctx := { u.ctx with tunBuffer := { buf with data, head } } }
    if nread < 0 then some u
    else
      let buf := { u.ctx.tunBuffer with size := nread }
      { u with ctx := { u.ctx with tunBuffer := buf } }.serverOnTransin hash fuel cliIp

def fire (w : Handle) (error : Bool) (env : Env) (u : UtServer) : Option UtServer := do
  let timer ← u.timers w
  let _ ← u.clients.heap w
  let u := { u with timers := Function.update u.timers w none }
  match timer.cb with
  | .timeoutCb => u.timeoutCb env error w
  | .timeoutCbDeleteClient => u.timeoutCbDeleteClient error w

end UtServer

def utStep (hash : List UInt8 → UInt32) (fuel : Nat) (alloc : Handle → UtAlloc) (u : UtServer) :
    Event → Option UtServer
  | .socketRead error received env => u.socketRead hash fuel alloc error received env
  | .tunRead error received cliIp => u.tunRead hash fuel error received cliIp
  | .timer w error env => u.fire w error env

def utServerInit (pool : IpPool) : UtServer where
  pool := pool
  clients := .empty
  timers := fun _ => none
  ctx := serverCtxInit
  trace := []

end TunnelServer
