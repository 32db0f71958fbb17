import TunnelServer.ServerCommon

/-!
# The handshake: `server_connect.c`
-/

namespace TunnelServer

namespace Server

def deleteClient (cli : Handle) (s : Server) : Option Server := do
  let (pool, clients) ← ClientTable.deleteClient IpPool.serverReclaimIp (some cli) s.pool s.clients
  some { s with pool, clients }

def sendConnectOk (env : Env) (cli : Handle) (s : Server) : Option Server := do
  let c ← s.clients.heap cli
  let packet : TunnelConnectOkDone :=
    { ver := TUNNEL_VERSION, cmd := TUNNEL_CMD_CONNECT_OK, ip := c.ip, sid := c.sid }
  let s := s.emit (.sendto (some cli) c.srcAddr packet.bytes)
  -- the timer that resends the packet until a connect done arrives
  let watcher := { c.timeoutWatcher with data := some cli }
  let s := s.setClient cli { c with timeoutWatcher := watcher }
  let s ← s.evTimerInit cli .timeoutCb (1 / 2)
  s.evTimerStart cli env.now

/-- The end of `server_on_connect`, common to a new client and a reconnecting one. -/
def startHandshake (env : Env) (cli : Handle) (s : Server) : Option Server := do
  let c ← s.clients.heap cli
  let s := s.setClient cli
    { c with
      state := .connect
      srcAddr := s.ctx.srcAddr
      version := s.ctx.sockByte TUNNEL_PAK_VER_IDX
      resendCounter := 0
      ts := env.now }
  let s := s.evTimerStop cli
  s.sendConnectOk env cli

def serverOnConnect (env : Env) (s : Server) : Option Server := do
  -- both the `memcpy` and the terminator must stay inside `char guid[60]`
  guard (0 ≤ s.ctx.guidLen ∧ s.ctx.guidLen < 60)
  let guid := s.ctx.guidBytes ++ [0]
  match s.clients.findClientByGuid guid with
  | some cli => s.startHandshake env cli
  | none =>
    let (cli, clients) := ClientTable.newClient env.mem s.clients
    let cli ← cli
    let c ← clients.heap cli
    let (ip, sid, pool) ← s.pool.serverAllocateIp
    let clients := clients.set cli { c with guid := memcpy c.guid guid, ip, sid }
    let (added, pool, clients) ←
      ClientTable.addClient IpPool.serverReclaimIp (some cli) pool clients
    let s := { s with pool, clients }.emit (.allocate ip sid)
    if added then s.startHandshake env cli
    else some { s with clients := s.clients.free cli }

def timeoutCb (env : Env) (error : Bool) (w : Handle) (s : Server) : Option Server := do
  if error then some s
  else
    let watcher ← s.clients.heap w
    match watcher.timeoutWatcher.data with
    | none => some s
    | some cli =>
      let c ← s.clients.heap cli
      match c.state with
      | .connect =>
        let s := s.setClient cli { c with resendCounter := c.resendCounter + 1 }
        if c.resendCounter < SERVER_MAX_RESEND_COUNT then s.sendConnectOk env cli
        else s.deleteClient cli
      | .connectDone =>
        let s := s.evTimerStop cli
        let s ← s.evTimerInit cli .timeoutCbDeleteClient CLIENT_TIMEOUT_TO_DELETE
        s.evTimerStart cli env.now

def timeoutCbDeleteClient (error : Bool) (w : Handle) (s : Server) : Option Server := do
  if error then some s
  else
    let watcher ← s.clients.heap w
    match watcher.timeoutWatcher.data with
    | none => some s
    | some cli =>
      let c ← s.clients.heap cli
      if c.state = .connectDone then s.deleteClient cli else some s

def serverOnConnectDone (s : Server) : Option Server :=
  match s.clients.findClient s.ctx.doneIp with
  | none => some s
  | some cli => do
    let c ← s.clients.heap cli
    some (s.setClient cli { c with state := .connectDone })

end Server

end TunnelServer
