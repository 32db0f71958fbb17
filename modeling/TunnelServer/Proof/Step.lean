import TunnelServer.Proof.Handlers

/-!
# What one event can do

`Sound` is the invariant of every run. On a sound server an event has one of five outcomes: it leaves
the registry and the timers alone, it takes a timer off without more, it rewrites one registered
record in place (`Touch` lists how), it enrolls a new client, or it deletes one. `step_cases` says so
once, and everything about runs is proved from the outcomes.
-/

namespace TunnelServer

namespace Server

open ClientTable

/-- What every defined run keeps, whatever its events. -/
structure Sound (n : Nat) (s : Server) : Prop where
  coherent : s.pool.Coherent
  count : s.pool.ipCount = n
  start : s.pool.ipStart = minIp.toInt32
  agree : s.clients.Agree
  registered : ∀ h c, s.clients.heap h = some c → s.clients.Registered h c
  owned : ∀ h c, s.clients.heap h = some c → s.pool.Owns c.ip
  data : ∀ h c, s.clients.heap h = some c → c.timeoutWatcher.data = some h
  timers_lt : ∀ h, s.timers h ≠ none → h < s.clients.brk

/-- The ways an event rewrites the record of a registered client: the record after, the client's
timer after and what the log gains. -/
inductive Touch (s : Server) (h : Handle) (c : Client) (e : Event) :
    Client → Option Timer → List Effect → Prop
  | reconnect {ctx : ServerCtx} {env : Env}
      (hcmd : e.command TUNNEL_CMD_CONNECT = some (ctx, env))
      (hlen : 0 ≤ ctx.guidLen ∧ ctx.guidLen < 60)
      (hfind : s.clients.findClientByGuid ctx.connectGuid = some h) :
      Touch s h c e (c.handshake h ctx env.now) (some { cb := .timeoutCb, due := env.now + 1 / 2 })
        [.evTimerStop h, .sendto (some h) ctx.srcAddr c.connectOk, .evTimerInit h .timeoutCb,
          .evTimerStart h]
  | connectDone {ctx : ServerCtx} {env : Env}
      (hcmd : e.command TUNNEL_CMD_CONNECT_DONE = some (ctx, env))
      (hfind : s.clients.findClient ctx.doneIp = some h) :
      Touch s h c e { c with state := .connectDone } (s.timers h) []
  | traffic {ctx : ServerCtx} {env : Env}
      (hcmd : e.command TUNNEL_CMD_TRANS_OUT = some (ctx, env))
      (hfind : s.clients.findClient (ctx.transoutIp env.cliIp) = some h)
      (hsid : c.sid = ctx.transoutSid) (hts : ¬ env.now - c.ts > CLIENT_EXPAND_TIMEOUT_TIME) :
      Touch s h c e { c with srcAddr := ctx.srcAddr } (s.timers h)
        (tunEffects { ctx with tunReadStart := s.ctx.tunReadStart })
  | refresh {ctx : ServerCtx} {env : Env}
      (hcmd : e.command TUNNEL_CMD_TRANS_OUT = some (ctx, env))
      (hfind : s.clients.findClient (ctx.transoutIp env.cliIp) = some h)
      (hsid : c.sid = ctx.transoutSid) (hts : env.now - c.ts > CLIENT_EXPAND_TIMEOUT_TIME) :
      Touch s h c e
        (Client.watched { c with srcAddr := ctx.srcAddr, ts := env.now } .timeoutCbDeleteClient
          CLIENT_TIMEOUT_TO_DELETE)
        (some { cb := .timeoutCbDeleteClient, due := env.now + CLIENT_TIMEOUT_TO_DELETE })
        (tunEffects { ctx with tunReadStart := s.ctx.tunReadStart } ++
          [Effect.evTimerStop h, .evTimerInit h .timeoutCbDeleteClient, .evTimerStart h])
  | resend {env : Env} {timer : Timer} (hevent : e = .timer h false env)
      (htimer : s.timers h = some timer) (hcb : timer.cb = .timeoutCb) (hstate : c.state = .connect)
      (hcount : c.resendCounter < SERVER_MAX_RESEND_COUNT) :
      Touch s h c e
        { c with
          resendCounter := c.resendCounter + 1
          timeoutWatcher := { data := some h, init := some (.timeoutCb, 1 / 2) } }
        (some { cb := .timeoutCb, due := env.now + 1 / 2 })
        [.sendto (some h) c.srcAddr c.connectOk, .evTimerInit h .timeoutCb, .evTimerStart h]
  | settle {env : Env} {timer : Timer} (hevent : e = .timer h false env)
      (htimer : s.timers h = some timer) (hcb : timer.cb = .timeoutCb)
      (hstate : c.state = .connectDone) :
      Touch s h c e (c.watched .timeoutCbDeleteClient CLIENT_TIMEOUT_TO_DELETE)
        (some { cb := .timeoutCbDeleteClient, due := env.now + CLIENT_TIMEOUT_TO_DELETE })
        [.evTimerStop h, .evTimerInit h .timeoutCbDeleteClient, .evTimerStart h]

/-- What an event makes of a sound server. -/
inductive Outcome (s : Server) (e : Event) : Server → Prop
  | quiet (ctx : ServerCtx) (xs : List Effect) (halloc : issuedIn xs = [])
      (hoks : ∀ k, connectOks k xs = [])
      (hsent : ∀ x ∈ xs, ∃ cli dst packet, x = .sendto cli dst packet) :
      Outcome s e { s with ctx, trace := s.trace ++ xs }
  | lapse {w : Handle} {error : Bool} {env : Env} {timer : Timer} {c : Client}
      (hevent : e = .timer w error env) (htimer : s.timers w = some timer)
      (hc : s.clients.heap w = some c)
      (hcause : error = true ∨ (timer.cb = .timeoutCbDeleteClient ∧ c.state = .connect)) :
      Outcome s e { s with timers := Function.update s.timers w none }
  | touch {h : Handle} {c c' : Client} {timer : Option Timer} {xs : List Effect} (ctx : ServerCtx)
      (hr : s.clients.Registered h c) (htouch : s.Touch h c e c' timer xs) :
      Outcome s e
        { s with
          clients := s.clients.set h c'
          timers := Function.update s.timers h timer
          ctx
          trace := s.trace ++ xs }
  | create {ctx : ServerCtx} {env : Env} {m : Client} (ctx' : ServerCtx)
      (hcmd : e.command TUNNEL_CMD_CONNECT = some (ctx, env))
      (hlen : 0 ≤ ctx.guidLen ∧ ctx.guidLen < 60)
      (hfind : s.clients.findClientByGuid ctx.connectGuid = none) (hmem : env.mem = some m) :
      Outcome s e
        { s with
          pool := s.pool.allocated
          clients := s.clients.enroll
            ((s.freshClient ctx m).handshake s.clients.brk ctx env.now)
          timers := Function.update s.timers s.clients.brk
            (some { cb := .timeoutCb, due := env.now + 1 / 2 })
          ctx := ctx'
          trace := s.trace ++
            [Effect.allocate s.pool.nextIp s.pool.nextSid, .evTimerStop s.clients.brk,
              .sendto (some s.clients.brk) ctx.srcAddr (s.freshClient ctx m).connectOk,
              .evTimerInit s.clients.brk .timeoutCb, .evTimerStart s.clients.brk] }
  | expire {w : Handle} {c : Client} {pool : IpPool} (hexp : s.expiring e = some (w, c))
      (hpool : s.pool.serverReclaimIp c.ip = some pool) :
      Outcome s e
        { s with
          pool
          clients := s.clients.drop w
          timers := Function.update s.timers w none }

variable {n : Nat} {s t : Server} {h w : Handle} {c c' : Client} {e : Event}

theorem Outcome.rest (s : Server) (e : Event) (ctx : ServerCtx) : s.Outcome e { s with ctx } := by
  have hquiet := Outcome.quiet (s := s) (e := e) ctx [] rfl (fun _ => rfl) fun _ hx => nomatch hx
  rwa [List.append_nil] at hquiet

theorem command_eq_some {cmd : UInt8} {ctx : ServerCtx} {env : Env} :
    e.command cmd = some (ctx, env) ↔
      ∃ bytes src, e = .socketRead false (some (bytes, src)) env ∧ ctx = datagramCtx bytes src ∧
        ctx.cmd = cmd := by
  constructor
  · intro hcmd
    cases e with
    | tunRead | timer => cases hcmd
    | socketRead error received env' =>
        rcases error with _ | _ <;> rcases received with _ | ⟨bytes, src⟩
        · cases hcmd
        · change (if _ then _ else none) = _ at hcmd
          split_ifs at hcmd with h
          cases hcmd
          exact ⟨bytes, src, rfl, rfl, h⟩
        · cases hcmd
        · cases hcmd
  · intro hevent
    obtain ⟨bytes, src, rfl, rfl, h⟩ := hevent
    exact if_pos h

theorem command_inj {cmd cmd' : UInt8} {ctx ctx' : ServerCtx} {env env' : Env}
    (h : e.command cmd = some (ctx, env)) (h' : e.command cmd' = some (ctx', env')) :
    cmd = cmd' ∧ ctx = ctx' ∧ env = env' := by
  obtain ⟨bytes, src, rfl, rfl, hcmd⟩ := command_eq_some.1 h
  obtain ⟨bytes', src', hevent, rfl, hcmd'⟩ := command_eq_some.1 h'
  cases hevent
  exact ⟨hcmd.symm.trans hcmd', rfl, rfl⟩

/-! ### The handler of a datagram -/

section Dispatch

variable {bytes : List UInt8} {src : SockAddr} {env : Env}

theorem step_of_connect (hcmd : (datagramCtx bytes src).cmd = TUNNEL_CMD_CONNECT) :
    step s (.socketRead false (some (bytes, src)) env) =
      (s.receive bytes src).serverOnConnect env := by
  have hcmd : (s.receive bytes src).ctx.cmd = TUNNEL_CMD_CONNECT := hcmd
  show (s.receive bytes src).dispatch env = _
  rw [dispatch, if_pos hcmd]

theorem step_of_connectDone (hcmd : (datagramCtx bytes src).cmd = TUNNEL_CMD_CONNECT_DONE) :
    step s (.socketRead false (some (bytes, src)) env) =
      (s.receive bytes src).serverOnConnectDone := by
  have hcmd : (s.receive bytes src).ctx.cmd = TUNNEL_CMD_CONNECT_DONE := hcmd
  show (s.receive bytes src).dispatch env = _
  rw [dispatch, if_neg (by rw [hcmd]; decide), if_pos hcmd]

theorem step_of_transOut (hcmd : (datagramCtx bytes src).cmd = TUNNEL_CMD_TRANS_OUT) :
    step s (.socketRead false (some (bytes, src)) env) =
      (s.receive bytes src).serverOnTransout env := by
  have hcmd : (s.receive bytes src).ctx.cmd = TUNNEL_CMD_TRANS_OUT := hcmd
  show (s.receive bytes src).dispatch env = _
  rw [dispatch, if_neg (by rw [hcmd]; decide), if_neg (by rw [hcmd]; decide), if_pos hcmd]

theorem step_of_other (hconnect : (datagramCtx bytes src).cmd ≠ TUNNEL_CMD_CONNECT)
    (hdone : (datagramCtx bytes src).cmd ≠ TUNNEL_CMD_CONNECT_DONE)
    (htrans : (datagramCtx bytes src).cmd ≠ TUNNEL_CMD_TRANS_OUT) :
    step s (.socketRead false (some (bytes, src)) env) = some (s.receive bytes src) := by
  show (s.receive bytes src).dispatch env = _
  rw [dispatch, if_neg (show (s.receive bytes src).ctx.cmd ≠ _ from hconnect),
    if_neg (show (s.receive bytes src).ctx.cmd ≠ _ from hdone),
    if_neg (show (s.receive bytes src).ctx.cmd ≠ _ from htrans)]

end Dispatch

theorem step_connectDone {ctx : ServerCtx} {env : Env}
    (hcmd : e.command TUNNEL_CMD_CONNECT_DONE = some (ctx, env))
    (hfind : s.clients.findClient ctx.doneIp = some h) (hr : s.clients.Registered h c) :
    ∃ ctx', step s e =
      some { s with clients := s.clients.set h { c with state := .connectDone }, ctx := ctx' } := by
  obtain ⟨bytes, src, rfl, rfl, hdone⟩ := command_eq_some.1 hcmd
  refine ⟨(s.receive bytes src).ctx, ?_⟩
  rw [step_of_connectDone hdone, serverOnConnectDone_eq (s := s.receive bytes src) hfind hr.1]
  rfl

/-- Traffic that comes after a long pause starts the deletion timer, whatever the client's state. -/
theorem step_refresh {ctx : ServerCtx} {env : Env}
    (hcmd : e.command TUNNEL_CMD_TRANS_OUT = some (ctx, env))
    (hfind : s.clients.findClient (ctx.transoutIp env.cliIp) = some h)
    (hr : s.clients.Registered h c) (hsid : c.sid = ctx.transoutSid)
    (hts : env.now - c.ts > CLIENT_EXPAND_TIMEOUT_TIME) :
    ∃ ctx', step s e =
      some
        { s with
          clients := s.clients.set h
            (Client.watched { c with srcAddr := ctx.srcAddr, ts := env.now }
              .timeoutCbDeleteClient CLIENT_TIMEOUT_TO_DELETE)
          timers := Function.update s.timers h
            (some { cb := .timeoutCbDeleteClient, due := env.now + CLIENT_TIMEOUT_TO_DELETE })
          ctx := ctx'
          trace := s.trace ++ (tunEffects { ctx with tunReadStart := s.ctx.tunReadStart } ++
            [Effect.evTimerStop h, .evTimerInit h .timeoutCbDeleteClient, .evTimerStart h]) } := by
  obtain ⟨bytes, src, rfl, rfl, htrans⟩ := command_eq_some.1 hcmd
  refine ⟨{ (s.receive bytes src).ctx with tunReadStart := true }, ?_⟩
  rw [step_of_transOut htrans,
    serverOnTransout_refresh (s := s.receive bytes src) hfind hr.1 hsid hts]
  rfl

theorem step_reconnect {ctx : ServerCtx} {env : Env}
    (hcmd : e.command TUNNEL_CMD_CONNECT = some (ctx, env))
    (hlen : 0 ≤ ctx.guidLen ∧ ctx.guidLen < 60)
    (hfind : s.clients.findClientByGuid ctx.connectGuid = some h)
    (hr : s.clients.Registered h c) :
    ∃ ctx', step s e =
      some
        { s with
          clients := s.clients.set h (c.handshake h ctx env.now)
          timers := Function.update s.timers h (some { cb := .timeoutCb, due := env.now + 1 / 2 })
          ctx := ctx'
          trace := s.trace ++
            [Effect.evTimerStop h, .sendto (some h) ctx.srcAddr c.connectOk, .evTimerInit h .timeoutCb,
              .evTimerStart h] } := by
  obtain ⟨bytes, src, rfl, rfl, hconnect⟩ := command_eq_some.1 hcmd
  refine ⟨(s.receive bytes src).ctx, ?_⟩
  rw [step_of_connect hconnect,
    serverOnConnect_known (s := s.receive bytes src) hlen hfind,
    startHandshake_eq (s := s.receive bytes src) hr.1]
  rfl

/-! ### The client that expires -/

theorem expiring_eq_some :
    s.expiring e = some (w, c) ↔
      ∃ env timer, e = .timer w false env ∧ s.timers w = some timer ∧ s.clients.heap w = some c ∧
        ((timer.cb = .timeoutCb ∧ c.state = .connect ∧
            ¬ c.resendCounter < SERVER_MAX_RESEND_COUNT) ∨
          (timer.cb = .timeoutCbDeleteClient ∧ c.state = .connectDone)) := by
  constructor
  · intro hexp
    cases e with
    | socketRead | tunRead => cases hexp
    | timer w' error env =>
        cases error with
        | true => cases hexp
        | false =>
            simp only [expiring, Option.bind_eq_bind, Option.bind_eq_some_iff] at hexp
            obtain ⟨timer, htimer, d, hd, hexp⟩ := hexp
            split at hexp
            · split_ifs at hexp with hcount
              cases hexp
              exact ⟨env, timer, rfl, htimer, hd, Or.inl ⟨by assumption, by assumption, hcount⟩⟩
            · cases hexp
              exact ⟨env, timer, rfl, htimer, hd, Or.inr ⟨by assumption, by assumption⟩⟩
            · cases hexp
  · intro hexp
    obtain ⟨env, timer, rfl, htimer, hc, ⟨hcb, hstate, hcount⟩ | ⟨hcb, hstate⟩⟩ := hexp
    · simp [expiring, htimer, hc, hcb, hstate, hcount]
    · simp [expiring, htimer, hc, hcb, hstate]

theorem heap_of_expiring (hexp : s.expiring e = some (w, c)) : s.clients.heap w = some c := by
  obtain ⟨env, timer, -, -, hc, -⟩ := expiring_eq_some.1 hexp
  exact hc

/-! ### The inversion lemma -/

namespace Sound

variable (hs : s.Sound n)
include hs

theorem step_create {ctx : ServerCtx} {env : Env} {m : Client}
    (hcmd : e.command TUNNEL_CMD_CONNECT = some (ctx, env))
    (hlen : 0 ≤ ctx.guidLen ∧ ctx.guidLen < 60)
    (hfind : s.clients.findClientByGuid ctx.connectGuid = none) (hmem : env.mem = some m) :
    ∃ ctx', step s e =
      some
        { s with
          pool := s.pool.allocated
          clients := s.clients.enroll ((s.freshClient ctx m).handshake s.clients.brk ctx env.now)
          timers := Function.update s.timers s.clients.brk
            (some { cb := .timeoutCb, due := env.now + 1 / 2 })
          ctx := ctx'
          trace := s.trace ++
            [Effect.allocate s.pool.nextIp s.pool.nextSid, .evTimerStop s.clients.brk,
              .sendto (some s.clients.brk) ctx.srcAddr (s.freshClient ctx m).connectOk,
              .evTimerInit s.clients.brk .timeoutCb, .evTimerStart s.clients.brk] } := by
  obtain ⟨bytes, src, rfl, rfl, hconnect⟩ := command_eq_some.1 hcmd
  refine ⟨(s.receive bytes src).ctx, ?_⟩
  rw [step_of_connect hconnect,
    serverOnConnect_new (s := s.receive bytes src) hs.coherent hs.agree hlen hfind hmem]
  rfl

/-- A CONNECT datagram goes to the client registered under its GUID, or makes a new one. -/
theorem connect_cases {ctx : ServerCtx} {env : Env}
    (hcmd : e.command TUNNEL_CMD_CONNECT = some (ctx, env)) (hstep : step s e = some t) :
    (0 ≤ ctx.guidLen ∧ ctx.guidLen < 60) ∧
      ((∃ h c ctx', s.clients.findClientByGuid ctx.connectGuid = some h ∧
          s.clients.Registered h c ∧
          t =
            { s with
              clients := s.clients.set h (c.handshake h ctx env.now)
              timers := Function.update s.timers h
                (some { cb := .timeoutCb, due := env.now + 1 / 2 })
              ctx := ctx'
              trace := s.trace ++
                [Effect.evTimerStop h, .sendto (some h) ctx.srcAddr c.connectOk,
                  .evTimerInit h .timeoutCb, .evTimerStart h] }) ∨
        ∃ m ctx', s.clients.findClientByGuid ctx.connectGuid = none ∧ env.mem = some m ∧
          t =
            { s with
              pool := s.pool.allocated
              clients := s.clients.enroll
                ((s.freshClient ctx m).handshake s.clients.brk ctx env.now)
              timers := Function.update s.timers s.clients.brk
                (some { cb := .timeoutCb, due := env.now + 1 / 2 })
              ctx := ctx'
              trace := s.trace ++
                [Effect.allocate s.pool.nextIp s.pool.nextSid, .evTimerStop s.clients.brk,
                  .sendto (some s.clients.brk) ctx.srcAddr (s.freshClient ctx m).connectOk,
                  .evTimerInit s.clients.brk .timeoutCb, .evTimerStart s.clients.brk] }) := by
  by_cases hlen : 0 ≤ ctx.guidLen ∧ ctx.guidLen < 60
  · refine ⟨hlen, ?_⟩
    cases hfind : s.clients.findClientByGuid ctx.connectGuid with
    | some h =>
        obtain ⟨c, hr, -⟩ := hs.agree.registered_of_findGuid hfind
        obtain ⟨ctx', heq⟩ := step_reconnect hcmd hlen hfind hr
        exact Or.inl ⟨h, c, ctx', rfl, hr, Option.some.inj (hstep.symm.trans heq)⟩
    | none =>
        cases hmem : env.mem with
        | none =>
            obtain ⟨bytes, src, rfl, rfl, hconnect⟩ := command_eq_some.1 hcmd
            rw [step_of_connect hconnect, serverOnConnect_eq_none_of_mem hfind hmem] at hstep
            cases hstep
        | some m =>
            obtain ⟨ctx', heq⟩ := hs.step_create hcmd hlen hfind hmem
            exact Or.inr ⟨m, ctx', rfl, rfl, Option.some.inj (hstep.symm.trans heq)⟩
  · obtain ⟨bytes, src, rfl, rfl, hconnect⟩ := command_eq_some.1 hcmd
    rw [step_of_connect hconnect,
      serverOnConnect_eq_none_of_len (s := s.receive bytes src) hlen] at hstep
    cases hstep

theorem step_resend {env : Env} {timer : Timer} (htimer : s.timers w = some timer)
    (hcb : timer.cb = .timeoutCb) (hc : s.clients.heap w = some c) (hstate : c.state = .connect)
    (hcount : c.resendCounter < SERVER_MAX_RESEND_COUNT) :
    step s (.timer w false env) =
      some
        { s with
          clients := s.clients.set w
            { c with
              resendCounter := c.resendCounter + 1
              timeoutWatcher := { data := some w, init := some (.timeoutCb, 1 / 2) } }
          timers := Function.update s.timers w (some { cb := .timeoutCb, due := env.now + 1 / 2 })
          trace := s.trace ++
            [Effect.sendto (some w) c.srcAddr c.connectOk, .evTimerInit w .timeoutCb, .evTimerStart w] } := by
  simp only [step, fire, htimer, hc, hcb, Option.bind_eq_bind, Option.bind_some]
  rw [timeoutCb_resend (s := { s with timers := Function.update s.timers w none }) hc
    (hs.data w c hc) (Function.update_self _ _ _) hstate hcount, Function.update_idem]

theorem step_settle {env : Env} {timer : Timer} (htimer : s.timers w = some timer)
    (hcb : timer.cb = .timeoutCb) (hc : s.clients.heap w = some c) (hstate : c.state = .connectDone) :
    step s (.timer w false env) =
      some
        { s with
          clients := s.clients.set w (c.watched .timeoutCbDeleteClient CLIENT_TIMEOUT_TO_DELETE)
          timers := Function.update s.timers w
            (some { cb := .timeoutCbDeleteClient, due := env.now + CLIENT_TIMEOUT_TO_DELETE })
          trace := s.trace ++
            [Effect.evTimerStop w, .evTimerInit w .timeoutCbDeleteClient, .evTimerStart w] } := by
  simp only [step, fire, htimer, hc, hcb, Option.bind_eq_bind, Option.bind_some]
  rw [timeoutCb_settle (s := { s with timers := Function.update s.timers w none }) hc
    (hs.data w c hc) hstate, Function.update_idem]

theorem step_of_expiring (hexp : s.expiring e = some (w, c)) :
    step s e =
      (s.pool.serverReclaimIp c.ip).map fun pool =>
        { s with
          pool
          clients := s.clients.drop w
          timers := Function.update s.timers w none } := by
  obtain ⟨env, timer, rfl, htimer, hc, hcause⟩ := expiring_eq_some.1 hexp
  have hdata := hs.data w c hc
  simp only [step, fire, htimer, hc, Option.bind_eq_bind, Option.bind_some]
  rcases hcause with ⟨hcb, hstate, hcount⟩ | ⟨hcb, hstate⟩
  · rw [hcb]
    exact timeoutCb_giveUp (s := { s with timers := Function.update s.timers w none }) hc hdata
      hstate hcount
  · rw [hcb]
    have heq := timeoutCbDeleteClient_eq
      (s := { s with timers := Function.update s.timers w none }) hc hdata
    rwa [if_pos hstate] at heq

/-- A timer that deletes nobody always runs through. -/
theorem step_of_not_expiring {error : Bool} {env : Env} {timer : Timer}
    (htimer : s.timers w = some timer) (hc : s.clients.heap w = some c)
    (hexp : s.expiring (.timer w error env) = none) :
    ∃ t, step s (.timer w error env) = some t ∧ s.Outcome (.timer w error env) t := by
  have hr := hs.registered w c hc
  cases error with
  | true =>
      refine ⟨_, ?_, .lapse rfl htimer hc (.inl rfl)⟩
      cases hcb : timer.cb <;> simp [step, fire, htimer, hc, hcb, timeoutCb, timeoutCbDeleteClient]
  | false =>
      have hkept := fun hcause => Option.some_ne_none _
        ((expiring_eq_some.2 ⟨env, timer, rfl, htimer, hc, hcause⟩).symm.trans hexp)
      cases hcb : timer.cb with
      | timeoutCb =>
          cases hstate : c.state with
          | connect =>
              have hcount : c.resendCounter < SERVER_MAX_RESEND_COUNT := by
                by_contra hcount
                exact hkept (.inl ⟨hcb, hstate, hcount⟩)
              exact ⟨_, hs.step_resend htimer hcb hc hstate hcount,
                .touch _ hr (.resend rfl htimer hcb hstate hcount)⟩
          | connectDone =>
              exact ⟨_, hs.step_settle htimer hcb hc hstate,
                .touch _ hr (.settle rfl htimer hcb hstate)⟩
      | timeoutCbDeleteClient =>
          cases hstate : c.state with
          | connect =>
              refine ⟨_, ?_, .lapse rfl htimer hc (.inr ⟨hcb, hstate⟩)⟩
              simp only [step, fire, htimer, hc, hcb, Option.bind_eq_bind, Option.bind_some]
              rw [timeoutCbDeleteClient_eq
                (s := { s with timers := Function.update s.timers w none }) hc (hs.data w c hc),
                hstate]
              rfl
          | connectDone => exact absurd (.inr ⟨hcb, hstate⟩) hkept

/-- A datagram that is not a CONNECT always runs through. -/
theorem dispatch_outcome {bytes : List UInt8} {src : SockAddr} {env : Env}
    (hconnect : (datagramCtx bytes src).cmd = TUNNEL_CMD_CONNECT →
      (step s (.socketRead false (some (bytes, src)) env)).isSome) :
    ∃ t, step s (.socketRead false (some (bytes, src)) env) = some t ∧
      s.Outcome (.socketRead false (some (bytes, src)) env) t := by
  have hcommand : ∀ cmd, (datagramCtx bytes src).cmd = cmd →
      (Event.socketRead false (some (bytes, src)) env).command cmd =
        some (datagramCtx bytes src, env) := fun cmd h => if_pos h
  by_cases hcmd : (datagramCtx bytes src).cmd = TUNNEL_CMD_CONNECT
  · obtain ⟨t, hstep⟩ := Option.isSome_iff_exists.1 (hconnect hcmd)
    refine ⟨t, hstep, ?_⟩
    have hcmd := hcommand _ hcmd
    obtain ⟨hlen, ⟨h, c, ctx', hfind, hr, rfl⟩ | ⟨m, ctx', hfind, hmem, rfl⟩⟩ :=
      hs.connect_cases hcmd hstep
    · exact .touch ctx' hr (.reconnect hcmd hlen hfind)
    · exact .create ctx' hcmd hlen hfind hmem
  by_cases hdone : (datagramCtx bytes src).cmd = TUNNEL_CMD_CONNECT_DONE
  · rw [step_of_connectDone hdone]
    cases hfind : s.clients.findClient (s.receive bytes src).ctx.doneIp with
    | none =>
        refine ⟨s.receive bytes src, ?_, .rest s _ _⟩
        rw [serverOnConnectDone, show (s.receive bytes src).clients = s.clients from rfl, hfind]
    | some h =>
        obtain ⟨c, hr, -⟩ := hs.agree.registered_of_findClient hfind
        refine ⟨_, serverOnConnectDone_eq hfind hr.1, ?_⟩
        have htouch := Outcome.touch (s.receive bytes src).ctx hr
          (.connectDone (hcommand _ hdone) hfind)
        rwa [Function.update_eq_self, List.append_nil] at htouch
  by_cases htrans : (datagramCtx bytes src).cmd = TUNNEL_CMD_TRANS_OUT
  · have hcmd := hcommand _ htrans
    have hdisconnect : s.Outcome (.socketRead false (some (bytes, src)) env)
        (s.receive bytes src).sendDisconnect :=
      .quiet _ _ rfl (fun _ => rfl) fun x hx => ⟨_, _, _, List.mem_singleton.1 hx⟩
    rw [step_of_transOut htrans]
    cases hfind : s.clients.findClient ((s.receive bytes src).ctx.transoutIp env.cliIp) with
    | none => exact ⟨_, serverOnTransout_unknown hfind, hdisconnect⟩
    | some h =>
        obtain ⟨c, hr, -⟩ := hs.agree.registered_of_findClient hfind
        by_cases hsid : c.sid = (s.receive bytes src).ctx.transoutSid
        · by_cases hts : env.now - c.ts > CLIENT_EXPAND_TIMEOUT_TIME
          · have htouch := Outcome.touch { (s.receive bytes src).ctx with tunReadStart := true } hr
              (.refresh hcmd hfind hsid hts)
            exact ⟨_, serverOnTransout_refresh hfind hr.1 hsid hts, htouch⟩
          · refine ⟨_, serverOnTransout_recent hfind hr.1 hsid hts, ?_⟩
            have htouch := Outcome.touch { (s.receive bytes src).ctx with tunReadStart := true } hr
              (.traffic hcmd hfind hsid hts)
            rwa [Function.update_eq_self] at htouch
        · exact ⟨_, serverOnTransout_stale hfind hr.1 hsid, hdisconnect⟩
  exact ⟨_, step_of_other hcmd hdone htrans, .rest s _ _⟩

theorem tunRead_cases {error : Bool} {received : Option (List UInt8)} {junk : UInt32}
    (hstep : s.tunRead error received junk = some t) :
    s.Outcome (.tunRead error received junk) t := by
  cases error with
  | true =>
      cases hstep
      exact .rest s _ s.ctx
  | false =>
      simp only [tunRead, Bool.false_eq_true, if_false, UInt64.not_lt_zero] at hstep
      obtain ⟨ctx, xs, rfl, halloc, hoks, hsent⟩ := serverOnTransin_cases hs.agree hstep
      exact .quiet ctx xs halloc hoks hsent

theorem fire_cases {error : Bool} {env : Env} (hstep : s.fire w error env = some t) :
    s.Outcome (.timer w error env) t := by
  cases hexp : s.expiring (.timer w error env) with
  | none =>
      cases htimer : s.timers w with
      | none => simp [fire, htimer] at hstep
      | some timer =>
          cases hc : s.clients.heap w with
          | none => simp [fire, htimer, hc] at hstep
          | some c =>
              obtain ⟨u, hfire, hout⟩ := hs.step_of_not_expiring htimer hc hexp
              rwa [← Option.some.inj (hfire.symm.trans hstep)]
  | some expired =>
      have hmap := (hs.step_of_expiring hexp).symm.trans hstep
      obtain ⟨pool, hpool, rfl⟩ := Option.map_eq_some_iff.1 hmap
      exact .expire hexp hpool

/-- Every defined step has one of the outcomes. -/
theorem step_cases (hstep : step s e = some t) : s.Outcome e t := by
  cases e with
  | socketRead error received env =>
      cases error with
      | true =>
          cases hstep
          exact .rest s _ s.ctx
      | false =>
          cases received with
          | none =>
              cases hstep
              exact .rest s _ _
          | some datagram =>
              obtain ⟨u, hdispatch, hout⟩ := hs.dispatch_outcome fun _ => by
                rw [hstep]
                rfl
              rwa [← Option.some.inj (hdispatch.symm.trans hstep)]
  | tunRead error received junk => exact hs.tunRead_cases hstep
  | timer w error env => exact hs.fire_cases hstep

end Sound

/-! ### When a step is defined -/

namespace Sound

variable (hs : s.Sound n)
include hs

theorem connect_isSome {ctx : ServerCtx} {env : Env}
    (hcmd : e.command TUNNEL_CMD_CONNECT = some (ctx, env)) (hfits : ConnectFits (s, e)) :
    (step s e).isSome := by
  obtain ⟨hlen, hmem⟩ := hfits ctx env hcmd
  obtain ⟨m, hmem⟩ := Option.isSome_iff_exists.1 hmem
  cases hfind : s.clients.findClientByGuid ctx.connectGuid with
  | some h =>
      obtain ⟨c, hr, -⟩ := hs.agree.registered_of_findGuid hfind
      obtain ⟨ctx', heq⟩ := step_reconnect hcmd hlen hfind hr
      rw [heq]
      rfl
  | none =>
      obtain ⟨ctx', heq⟩ := hs.step_create hcmd hlen hfind hmem
      rw [heq]
      rfl

theorem fire_isSome {error : Bool} {env : Env} (howned : TimerOwned (s, .timer w error env))
    (hsmall : GivesBackSmall (s, .timer w error env)) : (step s (.timer w error env)).isSome := by
  obtain ⟨hactive, c, hr⟩ := howned w error env rfl
  obtain ⟨timer, htimer⟩ : ∃ timer, s.timers w = some timer := Option.isSome_iff_exists.1 hactive
  cases hexp : s.expiring (.timer w error env) with
  | none =>
      obtain ⟨t, hstep, -⟩ := hs.step_of_not_expiring htimer hr.1 hexp
      rw [hstep]
      rfl
  | some expired =>
      rw [hs.step_of_expiring hexp, Option.isSome_map,
        IpPool.serverReclaimIp_isSome_iff hs.coherent
          (hs.owned _ _ (heap_of_expiring hexp))]
      exact hsmall _ _ hexp

/-- An event has an outcome when its GUID and its timer are in order and no slot is too high. -/
theorem step_isSome (hfits : ConnectFits (s, e)) (howned : TimerOwned (s, e))
    (hsmall : GivesBackSmall (s, e)) : (step s e).isSome := by
  cases e with
  | socketRead error received env =>
      cases error with
      | true => rfl
      | false =>
          cases received with
          | none => rfl
          | some datagram =>
              obtain ⟨t, hstep, -⟩ := hs.dispatch_outcome fun hcmd =>
                hs.connect_isSome (if_pos hcmd) hfits
              rw [hstep]
              rfl
  | tunRead error received junk =>
      cases error with
      | true => rfl
      | false =>
          simp only [step, tunRead, Bool.false_eq_true, if_false, UInt64.not_lt_zero]
          exact serverOnTransin_isSome hs.agree _ _
  | timer w error env => exact hs.fire_isSome howned hsmall

end Sound

end Server

end TunnelServer
