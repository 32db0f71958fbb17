import TunnelServer.Events

/-!
# The bytes a datagram makes the handlers touch

The accesses of `server_on_connect` and `server_on_connect_done` to the datagram and to the two arrays
for a GUID. Of `sock_buffer` only the bytes received count; behind them are zeros.
-/

namespace TunnelServer

def sizeofGuid : Nat := 60

namespace ServerCtx

variable (ctx : ServerCtx)

/-- The bytes received, as the object the handlers read. -/
def received : Nat := ctx.sockBufSize.toNat

/-- `server_on_connect`: the length, the two sides of the first `memcpy` and the terminator. -/
def connectAccesses : List Access :=
  [{ size := ctx.received, first := TUNNEL_PAK_GUID_LEN_IDX, count := 1 },
    { size := ctx.received, first := sizeofTunnelConnectHeader, count := UInt64.ofInt ctx.guidLen },
    { size := sizeofGuid, first := 0, count := UInt64.ofInt ctx.guidLen },
    { size := sizeofGuid, first := ctx.guidLen, count := 1 }]

def copyAccesses : List Access :=
  [{ size := sizeofGuid, first := 0, count := UInt64.ofInt (ctx.guidLen + 1) },
    { size := sizeofGuid, first := 0, count := UInt64.ofInt (ctx.guidLen + 1) }]

def connectDoneAccesses : List Access := [{ size := ctx.received, first := 2, count := 4 }]

end ServerCtx

namespace Server

def accesses (s : Server) (ctx : ServerCtx) : List Access :=
  if ctx.cmd = TUNNEL_CMD_CONNECT then
    match s.clients.findClientByGuid (ctx.guidBytes ++ [0]) with
    | some _ => ctx.connectAccesses
    | none => ctx.connectAccesses ++ ctx.copyAccesses
  else if ctx.cmd = TUNNEL_CMD_CONNECT_DONE then ctx.connectDoneAccesses
  else []

end Server

end TunnelServer
