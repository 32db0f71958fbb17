import TunnelServer.ServerCommon

/-!
# Packets from a client to the tun device: `server_transout.c`
-/

namespace TunnelServer

namespace ServerCtx

variable (ctx : ServerCtx)

def transoutSid : UInt8 := ctx.sockByte 2

/-- `cli_ip` of `server_on_transout`; `junk` is the value of the local before the switch. -/
def transoutIp (junk : UInt32) : UInt32 :=
  if ipVersion ctx.ippack = 4 then ipSaddr ctx.ippack else junk

/-- `ippack_size`: a `size_t` difference stored in an `int`. -/
def ippackSize : Int :=
  (ctx.sockBufSize - UInt64.ofNat sizeofTunnelTransOutHeader).toUInt32.toInt32.toInt

end ServerCtx

namespace Server

def sendDisconnect (s : Server) : Server := s.emit (.sendto none s.ctx.srcAddr tunnelDisconnect)

/-- The write to the tun device. `nwrite` is a `size_t`, so the test for an error never succeeds. -/
def writeTun (nwrite : Int) (s : Server) : Server :=
  let size := s.ctx.ippackSize
  let s := s.emit (.write size (s.ctx.ippack.take size.toNat))
  if UInt64.ofInt nwrite < 0 then s
  else if s.ctx.tunReadStart then s
  else { s with ctx := { s.ctx with tunReadStart := true } }.emit .evIoStart

def serverOnTransout (env : Env) (s : Server) : Option Server :=
  match s.clients.findClient (s.ctx.transoutIp env.cliIp) with
  | none => some s.sendDisconnect
  | some cli => do
    let c ← s.clients.heap cli
    if c.sid ≠ s.ctx.transoutSid then some s.sendDisconnect
    else
      let c := { c with srcAddr := s.ctx.srcAddr }
      let s := (s.setClient cli c).writeTun env.nwrite
      if env.now - c.ts > CLIENT_EXPAND_TIMEOUT_TIME then
        let s := s.setClient cli { c with ts := env.now }
        let s := s.evTimerStop cli
        let s ← s.evTimerInit cli .timeoutCbDeleteClient CLIENT_TIMEOUT_TO_DELETE
        s.evTimerStart cli env.now
      else some s

end Server

end TunnelServer
