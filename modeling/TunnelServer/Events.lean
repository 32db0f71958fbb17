import TunnelServer.Lib.Run
import TunnelServer.ServerConnect
import TunnelServer.ServerTransin
import TunnelServer.ServerTransout

/-!
# The event loop: `tunnel_server.c`

`step` handles one event the loop delivers: a readable socket, a readable tun device, or a timer that
has run out. Which of the active timers fires next, and when, is left open: every order is a run.
-/

namespace TunnelServer

/-- An event, with what the system calls made while handling it return. `error` says that `EV_ERROR`
is set; a failed `recvfrom` or `read` has no result. -/
inductive Event
  | socketRead (error : Bool) (received : Option (List UInt8 × SockAddr)) (env : Env)
  | tunRead (error : Bool) (received : Option (List UInt8)) (cliIp : UInt32)
  | timer (w : Handle) (error : Bool) (env : Env)

namespace Server

def receive (received : List UInt8) (src : SockAddr) (s : Server) : Server :=
  let bytes := received.take TUNNEL_BUF_SIZE
  { s with
    ctx :=
      { s.ctx with
        sockBuffer := memcpy (List.replicate TUNNEL_BUF_SIZE 0) bytes
        sockBufSize := UInt64.ofNat bytes.length
        srcAddr := src } }

def dispatch (env : Env) (s : Server) : Option Server :=
  if s.ctx.cmd = TUNNEL_CMD_CONNECT then s.serverOnConnect env
  else if s.ctx.cmd = TUNNEL_CMD_CONNECT_DONE then s.serverOnConnectDone
  else if s.ctx.cmd = TUNNEL_CMD_TRANS_OUT then s.serverOnTransout env
  else some s

def socketRead (error : Bool) (received : Option (List UInt8 × SockAddr)) (env : Env) (s : Server) :
    Option Server :=
  if error then some s
  else
    match received with
    | none =>
      some
        { s with
          ctx := { s.ctx with sockBuffer := List.replicate TUNNEL_BUF_SIZE 0, sockBufSize := 0 } }
    | some (bytes, src) => (s.receive bytes src).dispatch env

/-- `tun_read`. The result of `read` is compared with zero only after it went into a `size_t`, so a
failed read goes on with the largest size. -/
def tunRead (error : Bool) (received : Option (List UInt8)) (cliIp : UInt32) (s : Server) :
    Option Server :=
  if error then some s
  else
    let head := sizeofTunnelTransInHeader
    let bytes := (received.getD []).take (TUNNEL_BUF_SIZE - head)
    let nread : UInt64 := if received.isSome then UInt64.ofNat bytes.length else UInt64.ofInt (-1)
    let buf := s.ctx.tunBuffer
    let data := buf.data.take head ++ memcpy (buf.data.drop head) bytes
    let s := { s with ctx := { s.ctx with tunBuffer := { buf with data, head } } }
    if nread < 0 then some s
    else
      let buf := { s.ctx.tunBuffer with size := nread }
      { s with ctx := { s.ctx with tunBuffer := buf } }.serverOnTransin cliIp

/-- A timer that ran out is inactive when its callback is invoked. The loop takes the callback from
the watcher in the record, so a freed record leaves the outcome undefined. -/
def fire (w : Handle) (error : Bool) (env : Env) (s : Server) : Option Server := do
  let timer ← s.timers w
  let _ ← s.clients.heap w
  let s := { s with timers := Function.update s.timers w none }
  match timer.cb with
  | .timeoutCb => s.timeoutCb env error w
  | .timeoutCbDeleteClient => s.timeoutCbDeleteClient error w

end Server

/-- One event: `none` when it cannot happen in that state or a handler touches freed memory, follows `NULL`
or leaves an array. -/
def step (s : Server) : Event → Option Server
  | .socketRead error received env => s.socketRead error received env
  | .tunRead error received cliIp => s.tunRead error received cliIp
  | .timer w error env => s.fire w error env

end TunnelServer
