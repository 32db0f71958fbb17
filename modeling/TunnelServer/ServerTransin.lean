import TunnelServer.ServerCommon

/-!
# Packets from the tun device to a client: `server_transin.c`
-/

namespace TunnelServer

namespace ServerBuf

/-- The buffer from `head` on, as far as it was allocated. -/
def ippack (buf : ServerBuf) : List UInt8 := buf.data.drop buf.head

/-- `cli_ip` of `server_on_transin`; `junk` is the value of the local before the switch. -/
def transinIp (buf : ServerBuf) (junk : UInt32) : UInt32 :=
  if ipVersion buf.ippack = 4 then ipDaddr buf.ippack else junk

/-- `buf_size`: a `size_t` sum stored in an `int`. -/
def transinSize (buf : ServerBuf) : Int :=
  (buf.size + UInt64.ofNat sizeofTunnelTransInHeader).toUInt32.toInt32.toInt

end ServerBuf

namespace Server

def serverOnTransin (cliIp : UInt32) (s : Server) : Option Server :=
  match s.clients.findClient (s.ctx.tunBuffer.transinIp cliIp) with
  | none => some s
  | some cli => do
    let c ← s.clients.heap cli
    let bufSize := s.ctx.tunBuffer.transinSize
    let data := memcpy s.ctx.tunBuffer.data [TUNNEL_VERSION, TUNNEL_CMD_TRANS_IN]
    let s := { s with ctx := { s.ctx with tunBuffer := { s.ctx.tunBuffer with data } } }
    some (s.emit (.sendto (some cli) c.srcAddr (data.take bufSize.toNat)))

end Server

end TunnelServer
