import TunnelServer.Proof.Handshake

/-!
# Packets on their way through

A trans-out datagram is accepted or refused as a whole: accepted, it is written to the tun device and
rewrites one record; refused, it is answered with a DISCONNECT. A packet from the tun device goes into
the buffer and from there, with a header in front, to the client that is found under its destination.
-/

namespace TunnelServer

namespace ServerBuf

def readTun (buf : ServerBuf) (received : Option (List UInt8)) : ServerBuf where
  data := buf.data.take sizeofTunnelTransInHeader ++
    memcpy (buf.data.drop sizeofTunnelTransInHeader)
      ((received.getD []).take (TUNNEL_BUF_SIZE - sizeofTunnelTransInHeader))
  head := sizeofTunnelTransInHeader
  size := received.elim (UInt64.ofInt (-1)) fun bytes =>
    UInt64.ofNat (bytes.take (TUNNEL_BUF_SIZE - sizeofTunnelTransInHeader)).length

def transinPacket (buf : ServerBuf) : List UInt8 :=
  (memcpy buf.data [TUNNEL_VERSION, TUNNEL_CMD_TRANS_IN]).take buf.transinSize.toNat

end ServerBuf

def Effect.OnTun (x : Effect) : Prop := (∃ count packet, x = .write count packet) ∨ x = .evIoStart

namespace Server

open ClientTable

variable {n : Nat} {s t : Server} {e : Event} {h : Handle} {c : Client} {ctx : ServerCtx} {env : Env}

/-! ### From the tun device -/

section TunRead

variable {received : Option (List UInt8)} {junk : UInt32}

theorem step_tunRead (s : Server) (received : Option (List UInt8)) (junk : UInt32) :
    step s (.tunRead false received junk) =
      serverOnTransin junk
        { s with ctx := { s.ctx with tunBuffer := s.ctx.tunBuffer.readTun received } } := by
  show s.tunRead false received junk = _
  cases received <;> simp [tunRead, ServerBuf.readTun, UInt64.not_lt_zero]

theorem step_tunRead_unknown
    (hfind : s.clients.findClient ((s.ctx.tunBuffer.readTun received).transinIp junk) = none) :
    step s (.tunRead false received junk) =
      some { s with ctx := { s.ctx with tunBuffer := s.ctx.tunBuffer.readTun received } } := by
  rw [step_tunRead, serverOnTransin, hfind]

theorem step_tunRead_known
    (hfind : s.clients.findClient ((s.ctx.tunBuffer.readTun received).transinIp junk) = some h)
    (hc : s.clients.heap h = some c) :
    step s (.tunRead false received junk) =
      some
        { s with
          ctx :=
            { s.ctx with
              tunBuffer :=
                { s.ctx.tunBuffer.readTun received with
                  data := memcpy (s.ctx.tunBuffer.readTun received).data
                    [TUNNEL_VERSION, TUNNEL_CMD_TRANS_IN] } }
          trace := s.trace ++
            [Effect.sendto (some h) c.srcAddr (s.ctx.tunBuffer.readTun received).transinPacket] } := by
  rw [step_tunRead, serverOnTransin]
  simp only [hfind, hc, Option.bind_eq_bind, Option.bind_some]
  rfl

end TunRead

/-! ### The buffer of the tun device -/

theorem ctx_evTimerInit {cb : TimerCb} {after : ℚ} (ht : s.evTimerInit h cb after = some t) :
    t.ctx = s.ctx := by
  simp only [evTimerInit, Option.bind_eq_bind, Option.bind_eq_some_iff, Option.some.injEq] at ht
  obtain ⟨c, -, rfl⟩ := ht
  rfl

theorem ctx_evTimerStart {now : ℚ} (ht : s.evTimerStart h now = some t) : t.ctx = s.ctx := by
  simp only [evTimerStart, Option.bind_eq_bind, Option.bind_eq_some_iff] at ht
  obtain ⟨c, -, init, -, ht⟩ := ht
  split_ifs at ht <;> cases ht <;> rfl

theorem ctx_sendConnectOk (ht : s.sendConnectOk env h = some t) : t.ctx = s.ctx := by
  simp only [sendConnectOk, Option.bind_eq_bind, Option.bind_eq_some_iff] at ht
  obtain ⟨c, -, u, hu, ht⟩ := ht
  rw [ctx_evTimerStart ht, ctx_evTimerInit hu]
  rfl

theorem ctx_startHandshake (ht : s.startHandshake env h = some t) : t.ctx = s.ctx := by
  simp only [startHandshake, Option.bind_eq_bind, Option.bind_eq_some_iff] at ht
  obtain ⟨c, -, ht⟩ := ht
  rw [ctx_sendConnectOk ht]
  rfl

theorem ctx_deleteClient (ht : s.deleteClient h = some t) : t.ctx = s.ctx := by
  simp only [deleteClient, Option.bind_eq_bind, Option.bind_eq_some_iff, Option.some.injEq] at ht
  obtain ⟨deleted, -, rfl⟩ := ht
  rfl

theorem ctx_serverOnConnect (ht : s.serverOnConnect env = some t) : t.ctx = s.ctx := by
  simp only [serverOnConnect, Option.bind_eq_bind, Option.bind_eq_some_iff] at ht
  obtain ⟨-, -, ht⟩ := ht
  split at ht
  · exact ctx_startHandshake ht
  · simp only [Option.bind_eq_some_iff] at ht
    obtain ⟨cli, -, c, -, allocated, -, added, -, ht⟩ := ht
    split_ifs at ht
    · rw [ctx_startHandshake ht]
      rfl
    · cases ht
      rfl

theorem ctx_timeoutCb {error : Bool} (ht : s.timeoutCb env error h = some t) : t.ctx = s.ctx := by
  simp only [timeoutCb, Option.bind_eq_bind] at ht
  split_ifs at ht
  · cases ht
    rfl
  · simp only [Option.bind_eq_some_iff] at ht
    obtain ⟨watcher, -, ht⟩ := ht
    split at ht
    · cases ht
      rfl
    · simp only [Option.bind_eq_some_iff] at ht
      obtain ⟨c, -, ht⟩ := ht
      split at ht
      · split_ifs at ht
        · rw [ctx_sendConnectOk ht]
          rfl
        · rw [ctx_deleteClient ht]
          rfl
      · simp only [Option.bind_eq_some_iff] at ht
        obtain ⟨u, hu, ht⟩ := ht
        rw [ctx_evTimerStart ht, ctx_evTimerInit hu]
        rfl

theorem ctx_timeoutCbDeleteClient {error : Bool} (ht : s.timeoutCbDeleteClient error h = some t) :
    t.ctx = s.ctx := by
  simp only [timeoutCbDeleteClient, Option.bind_eq_bind] at ht
  split_ifs at ht
  · cases ht
    rfl
  · simp only [Option.bind_eq_some_iff] at ht
    obtain ⟨watcher, -, ht⟩ := ht
    split at ht
    · cases ht
      rfl
    · simp only [Option.bind_eq_some_iff] at ht
      obtain ⟨c, -, ht⟩ := ht
      split_ifs at ht
      · exact ctx_deleteClient ht
      · cases ht
        rfl

theorem ctx_serverOnConnectDone (ht : s.serverOnConnectDone = some t) : t.ctx = s.ctx := by
  unfold serverOnConnectDone at ht
  split at ht
  · cases ht
    rfl
  · simp only [Option.bind_eq_bind, Option.bind_eq_some_iff, Option.some.injEq] at ht
    obtain ⟨c, -, rfl⟩ := ht
    rfl

theorem tunBuffer_serverOnTransout (ht : s.serverOnTransout env = some t) :
    t.ctx.tunBuffer = s.ctx.tunBuffer := by
  simp only [serverOnTransout, writeTun_eq, Option.bind_eq_bind] at ht
  split at ht
  · cases ht
    rfl
  · simp only [Option.bind_eq_some_iff] at ht
    obtain ⟨c, -, ht⟩ := ht
    split_ifs at ht
    · cases ht
      rfl
    · simp only [Option.bind_eq_some_iff] at ht
      obtain ⟨u, hu, ht⟩ := ht
      rw [ctx_evTimerStart ht, ctx_evTimerInit hu]
      rfl
    · cases ht
      rfl

theorem tunBuffer_of_step (hstep : step s e = some t)
    (he : ∀ received junk, e ≠ .tunRead false received junk) :
    t.ctx.tunBuffer = s.ctx.tunBuffer := by
  cases e with
  | socketRead error received env =>
      rcases error with _ | _ <;> rcases received with _ | ⟨bytes, src⟩
      · cases hstep
        rfl
      · change (s.receive bytes src).dispatch env = some t at hstep
        unfold dispatch at hstep
        split_ifs at hstep
        · rw [ctx_serverOnConnect hstep]
          rfl
        · rw [ctx_serverOnConnectDone hstep]
          rfl
        · rw [tunBuffer_serverOnTransout hstep]
          rfl
        · cases hstep
          rfl
      · cases hstep
        rfl
      · cases hstep
        rfl
  | tunRead error received junk =>
      cases error with
      | false => exact absurd rfl (he received junk)
      | true =>
          cases hstep
          rfl
  | timer w error env =>
      simp only [step, fire, Option.bind_eq_bind, Option.bind_eq_some_iff] at hstep
      obtain ⟨timer, -, c, -, hstep⟩ := hstep
      split at hstep
      · rw [ctx_timeoutCb hstep]
      · rw [ctx_timeoutCbDeleteClient hstep]

def Buffered (s : Server) : Prop := s.ctx.tunBuffer.data.length = TUNNEL_BUF_SIZE

theorem serverInit_buffered (pool : IpPool) : (serverInit pool).Buffered := List.length_replicate

theorem Buffered.readTun (hs : s.Buffered) (received : Option (List UInt8)) :
    (s.ctx.tunBuffer.readTun received).data.length = TUNNEL_BUF_SIZE := by
  have hdata : s.ctx.tunBuffer.data.length = TUNNEL_BUF_SIZE := hs
  have hread : ((received.getD []).take (TUNNEL_BUF_SIZE - sizeofTunnelTransInHeader)).length ≤
      (s.ctx.tunBuffer.data.drop sizeofTunnelTransInHeader).length := by
    rw [List.length_take, List.length_drop, hdata]
    exact Nat.min_le_left _ _
  rw [ServerBuf.readTun, List.length_append, length_memcpy hread, List.length_take,
    List.length_drop, hdata]
  rfl

theorem Buffered.of_step (hs : s.Buffered) (hstep : step s e = some t) : t.Buffered := by
  by_cases he : ∀ received junk, e ≠ .tunRead false received junk
  · rw [Buffered, tunBuffer_of_step hstep he]
    exact hs
  · push Not at he
    obtain ⟨received, junk, rfl⟩ := he
    rw [step_tunRead, serverOnTransin] at hstep
    split at hstep
    · cases hstep
      exact hs.readTun received
    · simp only [Option.bind_eq_bind, Option.bind_eq_some_iff, Option.some.injEq] at hstep
      obtain ⟨c, -, rfl⟩ := hstep
      exact (length_memcpy (by rw [hs.readTun]; decide)).trans (hs.readTun received)

theorem buffered_of_mem_visited {p : IpPool} {es : List Event}
    (hs : s ∈ Run.visited step (serverInit p) es) : s.Buffered :=
  Run.forall_visited (fun _ _ _ hb hstep => hb.of_step hstep) (serverInit_buffered p) es s hs

/-- The destination `server_on_transin` finds when a packet has been read. A packet that is too short
continues with what the buffer held before. -/
def destination (s : Server) (packet : List UInt8) (junk : UInt32) : UInt32 :=
  let buffer := memcpy (s.ctx.tunBuffer.data.drop sizeofTunnelTransInHeader) packet
  if ipVersion buffer = 4 then ipDaddr buffer else junk

theorem Buffered.transinIp_readTun (hs : s.Buffered) (received : Option (List UInt8)) (junk : UInt32) :
    (s.ctx.tunBuffer.readTun received).transinIp junk =
      s.destination ((received.getD []).take (TUNNEL_BUF_SIZE - sizeofTunnelTransInHeader)) junk := by
  have hdata : s.ctx.tunBuffer.data.length = TUNNEL_BUF_SIZE := hs
  have hippack : (s.ctx.tunBuffer.readTun received).ippack =
      memcpy (s.ctx.tunBuffer.data.drop sizeofTunnelTransInHeader)
        ((received.getD []).take (TUNNEL_BUF_SIZE - sizeofTunnelTransInHeader)) := by
    refine List.drop_left' ?_
    rw [List.length_take, hdata]
    rfl
  rw [ServerBuf.transinIp, hippack, destination]

/-! ### To the tun device -/

theorem accepts_eq_some :
    s.accepts e = some (h, ctx, env) ↔
      ∃ c, e.command TUNNEL_CMD_TRANS_OUT = some (ctx, env) ∧
        s.clients.findClient (ctx.transoutIp env.cliIp) = some h ∧ s.clients.heap h = some c ∧
        c.sid = ctx.transoutSid := by
  simp only [accepts, Option.bind_eq_bind, Option.bind_eq_some_iff, Prod.exists]
  constructor
  · intro hacc
    obtain ⟨ctx', env', hcmd, cli, hfind, c, hc, hacc⟩ := hacc
    split_ifs at hacc with hsid
    cases hacc
    exact ⟨c, hcmd, hfind, hc, hsid⟩
  · intro hacc
    obtain ⟨c, hcmd, hfind, hc, hsid⟩ := hacc
    exact ⟨ctx, env, hcmd, h, hfind, c, hc, if_pos hsid⟩

theorem datagram_of_accepts (hacc : s.accepts e = some (h, ctx, env)) :
    ∃ bytes src, e = .socketRead false (some (bytes, src)) env ∧ ctx = datagramCtx bytes src ∧
      e.command TUNNEL_CMD_TRANS_OUT = some (ctx, env) := by
  obtain ⟨-, hcmd, -⟩ := accepts_eq_some.1 hacc
  obtain ⟨bytes, src, hevent, hctx, -⟩ := command_eq_some.1 hcmd
  exact ⟨bytes, src, hevent, hctx, hcmd⟩

theorem accepts_eq_none {bytes : List UInt8} {src : SockAddr}
    (h : ∀ h, s.accepts (.socketRead false (some (bytes, src)) env) ≠
      some (h, datagramCtx bytes src, env)) :
    s.accepts (.socketRead false (some (bytes, src)) env) = none := by
  rw [Option.eq_none_iff_forall_ne_some]
  intro accepted hacc
  obtain ⟨k, ctx, env'⟩ := accepted
  obtain ⟨bytes', src', hevent, rfl, -⟩ := datagram_of_accepts hacc
  cases hevent
  exact h k hacc

/-- A datagram that touches a client as traffic moves its source address, and after a long pause its
timestamp. -/
theorem Touch.of_transOut {c' : Client} {timer : Option Timer} {xs : List Effect}
    (htouch : s.Touch h c e c' timer xs) (hcmd : e.command TUNNEL_CMD_TRANS_OUT = some (ctx, env)) :
    c'.srcAddr = ctx.srcAddr ∧
      ((c'.ts = c.ts ∧ ¬ env.now - c.ts > CLIENT_EXPAND_TIMEOUT_TIME) ∨ c'.ts = env.now) := by
  cases htouch with
  | traffic hcmd' hfind hsid hts =>
      obtain ⟨-, rfl, rfl⟩ := command_inj hcmd hcmd'
      exact ⟨rfl, Or.inl ⟨rfl, hts⟩⟩
  | refresh hcmd' =>
      obtain ⟨-, rfl, rfl⟩ := command_inj hcmd hcmd'
      exact ⟨rfl, Or.inr rfl⟩
  | reconnect hcmd' | connectDone hcmd' => exact absurd (command_inj hcmd hcmd').1 (by decide)
  | resend hevent | settle hevent =>
      subst hevent
      cases hcmd

theorem Sound.step_refused (hs : s.Sound n) {bytes : List UInt8} {src : SockAddr}
    (hcmd : (datagramCtx bytes src).cmd = TUNNEL_CMD_TRANS_OUT)
    (hnone : s.accepts (.socketRead false (some (bytes, src)) env) = none) :
    step s (.socketRead false (some (bytes, src)) env) =
      some (s.receive bytes src).sendDisconnect := by
  rw [step_of_transOut hcmd]
  cases hfind : s.clients.findClient ((s.receive bytes src).ctx.transoutIp env.cliIp) with
  | none => exact serverOnTransout_unknown (s := s.receive bytes src) hfind
  | some h =>
      obtain ⟨c, hr, -⟩ := hs.agree.registered_of_findClient hfind
      refine serverOnTransout_stale (s := s.receive bytes src) hfind hr.1 fun hsid => ?_
      have hacc : s.accepts (.socketRead false (some (bytes, src)) env) =
          some (h, datagramCtx bytes src, env) :=
        accepts_eq_some.2 ⟨c, if_pos hcmd, hfind, hr.1, hsid⟩
      rw [hnone] at hacc
      cases hacc

def refreshCalls (h : Handle) : List Effect :=
  [.evTimerStop h, .evTimerInit h .timeoutCbDeleteClient, .evTimerStart h]

/-- An accepted datagram is written to the tun device, and the record of its sender learns where it came
from. -/
theorem Sound.step_accepted (hs : s.Sound n) {bytes : List UInt8} {src : SockAddr}
    (hacc : s.accepts (.socketRead false (some (bytes, src)) env) = some (h, ctx, env)) :
    ∃ c c' timer ys, s.clients.Registered h c ∧
      s.Touch h c (.socketRead false (some (bytes, src)) env) c' timer
        (tunEffects { ctx with tunReadStart := s.ctx.tunReadStart } ++ ys) ∧
      (ys = [] ∨ ys = refreshCalls h) ∧
      step s (.socketRead false (some (bytes, src)) env) =
        some
          { s with
            clients := s.clients.set h c'
            timers := Function.update s.timers h timer
            ctx := { (s.receive bytes src).ctx with tunReadStart := true }
            trace := s.trace ++ (tunEffects { ctx with tunReadStart := s.ctx.tunReadStart } ++ ys) } := by
  obtain ⟨c, hcmd, hfind, hc, hsid⟩ := accepts_eq_some.1 hacc
  obtain ⟨bytes', src', hevent, rfl, htrans⟩ := command_eq_some.1 hcmd
  cases hevent
  by_cases hts : env.now - c.ts > CLIENT_EXPAND_TIMEOUT_TIME
  · refine ⟨c, _, _, refreshCalls h, hs.registered h c hc, .refresh hcmd hfind hsid hts,
      Or.inr rfl, ?_⟩
    rw [step_of_transOut htrans,
      serverOnTransout_refresh (s := s.receive bytes src) hfind hc hsid hts]
    rfl
  · refine ⟨c, { c with srcAddr := (datagramCtx bytes src).srcAddr }, s.timers h, [],
      hs.registered h c hc, ?_, Or.inl rfl, ?_⟩
    · rw [List.append_nil]
      exact .traffic hcmd hfind hsid hts
    · rw [step_of_transOut htrans,
        serverOnTransout_recent (s := s.receive bytes src) hfind hc hsid hts,
        Function.update_eq_self, List.append_nil]
      rfl

theorem Sound.accepts_of_onTun (hs : s.Sound n) (hstep : step s e = some t) {x : Effect}
    (hx : x ∈ logged s t) (htun : Effect.OnTun x) : ∃ h ctx env, s.accepts e = some (h, ctx, env) := by
  have hother : ∀ {xs : List Effect}, (∀ y ∈ xs, ¬ Effect.OnTun y) → x ∉ xs :=
    fun hnone hx => hnone x hx htun
  cases hs.step_cases hstep with
  | quiet ctx xs _ _ hsent =>
      rw [logged_append rfl] at hx
      obtain ⟨cli, dst, packet, rfl⟩ := hsent x hx
      exact absurd htun (by simp [Effect.OnTun])
  | lapse | expire =>
      change x ∈ s.trace.drop s.trace.length at hx
      rw [List.drop_length] at hx
      cases hx
  | touch ctx hr htouch =>
      rw [logged_append rfl] at hx
      cases htouch with
      | traffic hcmd hfind hsid | refresh hcmd hfind hsid =>
          exact ⟨_, _, _, accepts_eq_some.2 ⟨_, hcmd, hfind, hr.1, hsid⟩⟩
      | reconnect | connectDone | resend | settle =>
          exact absurd hx (hother (by simp [Effect.OnTun]))
  | create =>
      rw [logged_append rfl] at hx
      exact absurd hx (hother (by simp [Effect.OnTun]))

end Server

end TunnelServer
