import TunnelServer.Client
import TunnelServer.Protocol
import TunnelServer.ServerIp

/-!
# The server's state: `server_common.h` and what the code uses of libev

`Server` is everything an event handler can read or write: the pool, the client memory, the active
timers of the event loop, the context and a log of the calls that leave the program. A handler takes
the state before an event to the state after, or to `none` where it touches freed memory, follows `NULL`
or leaves an array.

Each client record embeds one watcher, so the loop's active timers are a partial function of the
handle. Freeing a record does not tell the loop anything: its timer stays active.
-/

namespace TunnelServer

def TUNNEL_BUF_SIZE : Nat := 10240

def SERVER_MAX_RESEND_COUNT : UInt8 := 10

/-- `struct server_buf`; `head` is an offset into `data`. -/
structure ServerBuf where
  data : List UInt8
  head : Nat
  size : UInt64

structure ServerCtx where
  sockBuffer : List UInt8
  sockBufSize : UInt64
  tunBuffer : ServerBuf
  tunReadStart : Bool
  srcAddr : SockAddr

structure Timer where
  cb : TimerCb
  due : ℚ
deriving DecidableEq

/-- A call that leaves the program, or a result of `server_allocate_ip`. A datagram sent on behalf of
a client carries that client's handle, a `write` the count it was given. -/
inductive Effect
  | allocate (ip : UInt32) (sid : UInt8)
  | sendto (cli : Option Handle) (dst : SockAddr) (packet : List UInt8)
  | write (count : Int) (packet : List UInt8)
  | evIoStart
  | evTimerStop (h : Handle)
  | evTimerInit (h : Handle) (cb : TimerCb)
  | evTimerStart (h : Handle)
deriving DecidableEq

structure Server where
  pool : IpPool
  clients : ClientTable
  timers : Handle → Option Timer
  ctx : ServerCtx
  trace : List Effect

/-- What the outside answers while one event is handled: the clock, the block `malloc` returns, the
value of the local `cli_ip` where no branch assigns it, and the result of `write`. -/
structure Env where
  now : ℚ
  mem : Option Client
  cliIp : UInt32
  nwrite : Int

/-- The context after the `memset` and the assignments of `tunnel_server_start`. -/
def serverCtxInit : ServerCtx where
  sockBuffer := List.replicate TUNNEL_BUF_SIZE 0
  sockBufSize := 0
  tunBuffer := { data := List.replicate TUNNEL_BUF_SIZE 0, head := 0, size := 0 }
  tunReadStart := false
  srcAddr := { storage := [], len := 0 }

def serverInit (pool : IpPool) : Server where
  pool := pool
  clients := .empty
  timers := fun _ => none
  ctx := serverCtxInit
  trace := []

namespace ServerCtx

variable (ctx : ServerCtx)

def sockByte (i : Nat) : UInt8 := ctx.sockBuffer.getD i 0

/-- The command byte `socket_read` switches on. -/
def cmd : UInt8 := ctx.sockByte TUNNEL_PAK_CMD_IDX

/-- `guid_len` of `server_on_connect`: a `char`, signed on the target, widened to an `int`. -/
def guidLen : Int := (ctx.sockByte TUNNEL_PAK_GUID_LEN_IDX).toInt8.toInt

/-- The bytes `server_on_connect` copies into its local `guid`. -/
def guidBytes : List UInt8 :=
  (ctx.sockBuffer.drop sizeofTunnelConnectHeader).take ctx.guidLen.toNat

def doneIp : UInt32 := leWord (ctx.sockBuffer.drop 2)

def ippack : List UInt8 := ctx.sockBuffer.drop sizeofTunnelTransOutHeader

end ServerCtx

/-- `ipheader->version`: the high half of the first byte. -/
def ipVersion (ippack : List UInt8) : UInt8 := ippack.getD 0 0 >>> 4

def ipSaddr (ippack : List UInt8) : UInt32 := leWord (ippack.drop 12)

def ipDaddr (ippack : List UInt8) : UInt32 := leWord (ippack.drop 16)

namespace Server

def emit (s : Server) (x : Effect) : Server := { s with trace := s.trace ++ [x] }

def setClient (s : Server) (h : Handle) (c : Client) : Server :=
  { s with clients := s.clients.set h c }

/-- `ev_timer_stop`. On a watcher that was never initialised it reads whatever `malloc` left; the
model lets it find the watcher inactive. -/
def evTimerStop (s : Server) (h : Handle) : Server :=
  { s with timers := Function.update s.timers h none }.emit (.evTimerStop h)

def evTimerInit (h : Handle) (cb : TimerCb) (after : ℚ) (s : Server) : Option Server := do
  let c ← s.clients.heap h
  let watcher := { c.timeoutWatcher with init := some (cb, after) }
  some ((s.setClient h { c with timeoutWatcher := watcher }).emit (.evTimerInit h cb))

/-- `ev_timer_start`: without effect on a watcher that is active. -/
def evTimerStart (h : Handle) (now : ℚ) (s : Server) : Option Server := do
  let c ← s.clients.heap h
  let (cb, after) ← c.timeoutWatcher.init
  let s := s.emit (.evTimerStart h)
  if (s.timers h).isSome then some s
  else some { s with timers := Function.update s.timers h (some { cb, due := now + after }) }

end Server

end TunnelServer
