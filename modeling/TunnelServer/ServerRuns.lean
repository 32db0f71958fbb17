import TunnelServer.Events
import TunnelServer.PoolRuns

/-!
# Runs of the server

What is said about the events and the states of a run: which datagram an event delivers, which client
it makes the server delete, what a log of effects shows, and what the handlers ask of an event.
-/

namespace TunnelServer

/-- The part of the context that `recvfrom` sets, as a handler finds it. -/
def datagramCtx (bytes : List UInt8) (src : SockAddr) : ServerCtx :=
  ((serverInit serverIpInit).receive bytes src).ctx

/-- The context and the environment in which an event delivers a datagram with this command. -/
def Event.command (cmd : UInt8) : Event → Option (ServerCtx × Env)
  | .socketRead false (some (bytes, src)) env =>
    if (datagramCtx bytes src).cmd = cmd then some (datagramCtx bytes src, env) else none
  | _ => none

/-- The GUID of a CONNECT datagram, with the terminator `server_on_connect` puts behind it. -/
def ServerCtx.connectGuid (ctx : ServerCtx) : List UInt8 := ctx.guidBytes ++ [0]

def IpPool.nextIp (p : IpPool) : UInt32 := htonl (p.ipList.cell p.nextAvaliableIpIdx).ip

def IpPool.nextSid (p : IpPool) : UInt8 := (p.ipList.cell p.nextAvaliableIpIdx).sid

def Client.connectOk (c : Client) : List UInt8 :=
  TunnelConnectOkDone.bytes
    { ver := TUNNEL_VERSION, cmd := TUNNEL_CMD_CONNECT_OK, ip := c.ip, sid := c.sid }

/-! ### What the log shows -/

def Effect.allocation : Effect → Option (UInt32 × UInt8)
  | .allocate ip sid => some (ip, sid)
  | _ => none

def Effect.connectOk (h : Handle) : Effect → Option (List UInt8)
  | .sendto (some cli) _ packet =>
    if cli = h ∧ packet[1]? = some TUNNEL_CMD_CONNECT_OK then some packet else none
  | _ => none

def issuedIn (trace : List Effect) : List (UInt32 × UInt8) := trace.filterMap Effect.allocation

/-- The CONNECT_OK datagrams of a log that were sent for a client. -/
def connectOks (h : Handle) (trace : List Effect) : List (List UInt8) :=
  trace.filterMap (Effect.connectOk h)

def logged (s t : Server) : List Effect := t.trace.drop s.trace.length

theorem logged_append {s t : Server} {xs : List Effect} (h : t.trace = s.trace ++ xs) :
    logged s t = xs := by
  rw [logged, h, List.drop_left]

namespace Server

/-- The client whose timer fires and which the callback is going to delete. -/
def expiring (s : Server) : Event → Option (Handle × Client)
  | .timer w false _ => do
    let timer ← s.timers w
    let c ← s.clients.heap w
    match timer.cb, c.state with
    | .timeoutCb, .connect =>
      if c.resendCounter < SERVER_MAX_RESEND_COUNT then none else some (w, c)
    | .timeoutCbDeleteClient, .connectDone => some (w, c)
    | _, _ => none
  | _ => none

/-- The client a trans-out datagram is accepted for, with the context and the environment: the holder of
its source address, when the datagram presents his session id. -/
def accepts (s : Server) (e : Event) : Option (Handle × ServerCtx × Env) := do
  let (ctx, env) ← e.command TUNNEL_CMD_TRANS_OUT
  let cli ← s.clients.findClient (ctx.transoutIp env.cliIp)
  let c ← s.clients.heap cli
  if c.sid = ctx.transoutSid then some (cli, ctx, env) else none

def Free (s : Server) (ip : UInt32) : Prop := ∀ h c, s.clients.Registered h c → c.ip ≠ ip

end Server

/-- A CONNECT datagram names a GUID that fits the buffer, and `malloc` has a block for it. -/
def ConnectFits (m : Server × Event) : Prop :=
  ∀ ctx env, m.2.command TUNNEL_CMD_CONNECT = some (ctx, env) →
    (0 ≤ ctx.guidLen ∧ ctx.guidLen < 60) ∧ env.mem.isSome

/-- A timer that fires is active and belongs to a registered client. -/
def TimerOwned (m : Server × Event) : Prop :=
  ∀ w error env, m.2 = .timer w error env →
    (m.1.timers w).isSome ∧ ∃ c, m.1.clients.Registered w c

/-- An address the step gives back sits in a slot that fits the `int16_t` that is to hold it. -/
def GivesBackSmall (m : Server × Event) : Prop :=
  ∀ w c, m.1.expiring m.2 = some (w, c) → m.1.pool.slotOf c.ip ≤ 32767

instance (m : Server × Event) : Decidable (ConnectFits m) :=
  decidable_of_iff ((m.2.command TUNNEL_CMD_CONNECT).all (fun d =>
    decide ((0 ≤ d.1.guidLen ∧ d.1.guidLen < 60) ∧ d.2.mem.isSome)) = true)
    (by simp [ConnectFits, Option.all_eq_true])

instance (m : Server × Event) : Decidable (TimerOwned m) :=
  match m with
  | (_, .socketRead ..) => isTrue fun _ _ _ h => nomatch h
  | (_, .tunRead ..) => isTrue fun _ _ _ h => nomatch h
  | (s, .timer w error env) =>
    decidable_of_iff ((s.timers w).isSome ∧ ∃ c, s.clients.Registered w c)
      ⟨fun h _ _ _ heq => by cases heq; exact h, fun h => h w error env rfl⟩

instance (m : Server × Event) : Decidable (GivesBackSmall m) :=
  decidable_of_iff ((m.1.expiring m.2).all (fun d => decide (m.1.pool.slotOf d.2.ip ≤ 32767)) = true)
    (by simp [GivesBackSmall, Option.all_eq_true])

/-! ### Events as they come in -/

def SockAddr.inet (a b c d : UInt8) : SockAddr := { storage := [2, 0, 0x1f, 0x90, a, b, c, d], len := 16 }

def ipv4Header (saddr daddr : UInt32) : List UInt8 :=
  [0x45, 0, 0, 20, 0, 0, 0, 0, 64, 17, 0, 0] ++ leBytes saddr ++ leBytes daddr

/-- The outside at a moment when `malloc` and `write` succeed. -/
def Env.at (now : ℚ) : Env := { now, mem := some zeroedClient, cliIp := 0, nwrite := 20 }

def Event.arrives (bytes : List UInt8) (src : SockAddr) (now : ℚ) : Event :=
  .socketRead false (some (bytes, src)) (.at now)

def Event.fires (w : Handle) (now : ℚ) : Event := .timer w false (.at now)

/-- A client connects, is acknowledged and expires while another one connects; a third follows. -/
def comingAndGoing : List Event :=
  [.arrives (connectDatagram [0x61]) (.inet 192 0 2 1) 0,
    .arrives (connectDatagram [0x62]) (.inet 192 0 2 2) 0,
    .fires 0 (1 / 2),
    .arrives (connectDoneDatagram (htonl minIp) 0) (.inet 192 0 2 1) (3 / 4),
    .fires 0 1,
    .fires 0 (1 + CLIENT_TIMEOUT_TO_DELETE),
    .arrives (connectDatagram [0x63]) (.inet 192 0 2 3) (2 + CLIENT_TIMEOUT_TO_DELETE)]

theorem comingAndGoing_runs :
    (Run.exec step (serverInit (ipPoolOf 65533)) comingAndGoing).isSome = true := by
  decide +kernel

end TunnelServer
