import TunnelServer.Proof.Gateway
import TunnelServer.Proof.UtClient
import TunnelServer.UtServer

/-!
# The hash tables under the server

A server over hash tables that represent the indexes of a sound server follows it through every event. The
path that a handler takes is the same because the lookups are, and what it does to a record leaves the keys
in it alone.
-/

namespace TunnelServer

open ClientTable UtClientTable

def UtClientTable.beside (u : UtClientTable) (t : ClientTable) : UtClientTable :=
  { u with heap := t.heap, brk := t.brk }

section Records

variable {hash : List UInt8 → UInt32} {u : UtClientTable} {t : ClientTable} {h : Handle} {c c' : Client}

theorem UtClientTable.Refines.beside_eq (hr : Refines hash u t) : u.beside t = u := by
  rw [beside, ← hr.heap, ← hr.brk]

theorem UtClientTable.Refines.set (hr : Refines hash u t) (hc : t.heap h = some c) (hip : c'.ip = c.ip)
    (hguid : c'.guid = c.guid) : Refines hash (u.beside (t.set h c')) (t.set h c') := by
  have hheap : (u.beside (t.set h c')).heap = Function.update u.heap h (some c') := by
    rw [hr.heap]
    rfl
  have hc : u.heap h = some c := by rw [hr.heap, hc]
  have hsome : ∀ k, (Function.update u.heap h (some c') k).isSome = (u.heap k).isSome := by
    intro k
    by_cases hk : k = h
    · rw [hk, Function.update_self, hc]
      rfl
    · rw [Function.update_of_ne hk]
  have hipField : ipField (Function.update u.heap h (some c')) = ipField u.heap := by
    funext k
    by_cases hk : k = h
    · rw [hk, ipField_eq (Function.update_self _ _ _), ipField_eq hc, hip]
    · exact ipField_update _ _ hk
  have hguidField : guidField (Function.update u.heap h (some c')) = guidField u.heap := by
    funext k
    by_cases hk : k = h
    · rw [hk, guidField_eq (Function.update_self _ _ _), guidField_eq hc, hguid]
    · exact guidField_update _ _ hk
  refine ⟨rfl, rfl, ?_, ?_, fun k => ?_, fun k => ?_⟩
  · rw [hheap, hipField]
    exact hr.ip
  · rw [hheap, hguidField]
    exact hr.guid
  · rw [hheap, hsome]
    exact hr.ipLive k
  · rw [hheap, hsome]
    exact hr.guidLive k

theorem UtClientTable.Refines.fill (hr : Refines hash u t) (ha : t.Agree) (hc : t.heap h = some c)
    (hnew : ¬ ∃ d, t.Registered h d) (c' : Client) :
    Refines hash { u with heap := Function.update u.heap h (some c') } (t.set h c') := by
  have hcU : u.heap h = some c := by rw [hr.heap, hc]
  have hwrite := hr.write (h := h) (fun hmem => hnew (ha.mem_ip.1 hmem))
    (fun hmem => hnew (ha.mem_guid.1 hmem)) (some c') (u.gClientsIp.hh h) (u.gClientsGuid.hh h)
    (by rw [hr.ipLive, hcU]; rfl) (by rw [hr.guidLive, hcU]; rfl)
  rw [UtClientTable.write, Function.update_eq_self, Function.update_eq_self] at hwrite
  exact hwrite

end Records

namespace Server

def onTables (s : Server) (u : UtClientTable) : UtServer where
  pool := s.pool
  clients := u
  timers := s.timers
  ctx := s.ctx
  trace := s.trace

def bare (s : Server) : Server :=
  { s with clients := { s.clients with gClientsIp := .empty, gClientsGuid := .empty } }

/-- The server over hash tables gets to where the server gets. -/
def Follows (hash : List UInt8 → UInt32) (result : Option UtServer) (t : Server) : Prop :=
  ∃ v, result = some (t.onTables v) ∧ Refines hash v t.clients

variable {hash : List UInt8 → UInt32} {fuel n : Nat} {alloc : Handle → UtAlloc}
  {s t : Server} {u : UtClientTable} {h : Handle} {c c' : Client} {e : Event} {env : Env}

section Handlers

variable (hr : Refines hash u s.clients)
include hr

theorem onRecords_eq (f : Server → Option Server) :
    (s.onTables u).onRecords f = (f s.bare).map fun t => t.onTables (u.beside t.clients) := by
  have hbare : (s.onTables u).records = s.bare := by
    simp only [UtServer.records, onTables, bare, hr.heap, hr.brk]
  rw [UtServer.onRecords, hbare]
  cases f s.bare <;> rfl

theorem onRecords_rest {f : Server → Option Server} {timers : Handle → Option Timer} {ctx : ServerCtx}
    {trace : List Effect} (hf : f s.bare = some { s.bare with timers, ctx, trace }) :
    Follows hash ((s.onTables u).onRecords f) { s with timers, ctx, trace } := by
  refine ⟨u, ?_, hr⟩
  have hsame : u.beside s.bare.clients = u := hr.beside_eq
  rw [onRecords_eq hr, hf, Option.map_some, hsame]
  rfl

theorem onRecords_set {f : Server → Option Server} {timers : Handle → Option Timer} {ctx : ServerCtx}
    {trace : List Effect}
    (hf : f s.bare = some { s.bare with clients := s.bare.clients.set h c', timers, ctx, trace })
    (hc : s.clients.heap h = some c) (hip : c'.ip = c.ip) (hguid : c'.guid = c.guid) :
    Follows hash ((s.onTables u).onRecords f)
      { s with clients := s.clients.set h c', timers, ctx, trace } := by
  refine ⟨_, ?_, hr.set hc hip hguid⟩
  rw [onRecords_eq hr, hf]
  rfl

theorem onRecords_receive (bytes : List UInt8) (src : SockAddr) :
    (s.onTables u).onRecords (fun s => some (s.receive bytes src)) =
      some ((s.receive bytes src).onTables u) := by
  have hsame : u.beside (s.bare.receive bytes src).clients = u := hr.beside_eq
  rw [onRecords_eq hr, Option.map_some, hsame]
  rfl

/-! ### The handlers -/

theorem follows_deleteClient (ha : s.clients.Agree) (hreg : s.clients.Registered h c)
    (hstep : s.deleteClient h = some t) : Follows hash ((s.onTables u).deleteClient h) t := by
  rw [deleteClient_eq hreg.1, Option.map_eq_some_iff] at hstep
  obtain ⟨pool, hpool, rfl⟩ := hstep
  obtain ⟨v, hdelete, hrv⟩ := hr.deleteClient IpPool.serverReclaimIp s.pool ha hreg hpool
  exact ⟨v, by simp [UtServer.deleteClient, onTables, hdelete], hrv⟩

theorem follows_sendConnectOk (env : Env) (hc : s.clients.heap h = some c)
    (hidle : s.timers h = none) :
    Follows hash ((s.onTables u).onRecords (sendConnectOk env h))
      { s with
        clients := s.clients.set h
          { c with timeoutWatcher := { data := some h, init := some (.timeoutCb, 1 / 2) } }
        timers := Function.update s.timers h (some { cb := .timeoutCb, due := env.now + 1 / 2 })
        trace := s.trace ++
          [Effect.sendto (some h) c.srcAddr c.connectOk, .evTimerInit h .timeoutCb, .evTimerStart h] } :=
  onRecords_set hr (sendConnectOk_eq (s := s.bare) hc hidle) hc rfl rfl

theorem follows_restart (hc : s.clients.heap h = some c) (cb : TimerCb) (after now : ℚ) :
    Follows hash
      ((s.onTables u).onRecords fun s =>
        ((s.evTimerStop h).evTimerInit h cb after).bind fun s => s.evTimerStart h now)
      { s with
        clients := s.clients.set h (c.watched cb after)
        timers := Function.update s.timers h (some { cb, due := now + after })
        trace := s.trace ++ [Effect.evTimerStop h, .evTimerInit h cb, .evTimerStart h] } :=
  onRecords_set hr (restart_eq (s := s.bare) hc cb after now) hc rfl rfl

theorem follows_startHandshake (env : Env) (hc : s.clients.heap h = some c) :
    Follows hash ((s.onTables u).onRecords (startHandshake env h))
      { s with
        clients := s.clients.set h (c.handshake h s.ctx env.now)
        timers := Function.update s.timers h (some { cb := .timeoutCb, due := env.now + 1 / 2 })
        trace := s.trace ++
          [Effect.evTimerStop h, .sendto (some h) s.ctx.srcAddr c.connectOk, .evTimerInit h .timeoutCb,
            .evTimerStart h] } :=
  onRecords_set hr (startHandshake_eq (s := s.bare) hc) hc rfl rfl

theorem follows_serverOnConnectDone (ha : s.clients.Agree) (hfuel : s.clients.gClientsIp.count ≤ fuel)
    (hstep : s.serverOnConnectDone = some t) :
    Follows hash ((s.onTables u).serverOnConnectDone hash fuel) t := by
  have hfind := hr.findClient_eq hfuel s.ctx.doneIp
  cases hholder : s.clients.findClient s.ctx.doneIp with
  | none =>
      simp only [serverOnConnectDone, hholder, Option.some.injEq] at hstep
      subst hstep
      exact ⟨u, by simp [UtServer.serverOnConnectDone, onTables, hfind, hholder], hr⟩
  | some h =>
      obtain ⟨c, hreg, -⟩ := ha.registered_of_findClient hholder
      rw [serverOnConnectDone_eq hholder hreg.1, Option.some.injEq] at hstep
      subst hstep
      have hc : u.heap h = some c := by rw [hr.heap, hreg.1]
      have heq : (s.onTables u).serverOnConnectDone hash fuel =
          (s.onTables u).onRecords fun s => some (s.setClient h { c with state := .connectDone }) := by
        simp [UtServer.serverOnConnectDone, onTables, hfind, hholder, hc]
      rw [heq]
      exact onRecords_set hr rfl hreg.1 rfl rfl

theorem follows_serverOnTransout (ha : s.clients.Agree) (hfuel : s.clients.gClientsIp.count ≤ fuel)
    (hstep : s.serverOnTransout env = some t) :
    Follows hash ((s.onTables u).serverOnTransout hash fuel env) t := by
  have hfind := hr.findClient_eq hfuel (s.ctx.transoutIp env.cliIp)
  cases hholder : s.clients.findClient (s.ctx.transoutIp env.cliIp) with
  | none =>
      rw [serverOnTransout_unknown hholder, Option.some.injEq] at hstep
      subst hstep
      have heq : (s.onTables u).serverOnTransout hash fuel env =
          (s.onTables u).onRecords fun s => some s.sendDisconnect := by
        simp [UtServer.serverOnTransout, onTables, hfind, hholder]
      rw [heq]
      exact onRecords_rest hr rfl
  | some h =>
      obtain ⟨c, hreg, -⟩ := ha.registered_of_findClient hholder
      have hc : u.heap h = some c := by rw [hr.heap, hreg.1]
      by_cases hsid : c.sid = s.ctx.transoutSid
      · by_cases hts : env.now - c.ts > CLIENT_EXPAND_TIMEOUT_TIME
        · rw [serverOnTransout_refresh hholder hreg.1 hsid hts, Option.some.injEq] at hstep
          subst hstep
          have heq : (s.onTables u).serverOnTransout hash fuel env =
              (s.onTables u).onRecords fun s' =>
                ((((s'.setClient h { c with srcAddr := s.ctx.srcAddr }).writeTun env.nwrite).setClient h
                  { c with srcAddr := s.ctx.srcAddr, ts := env.now }).evTimerStop h).evTimerInit h
                    .timeoutCbDeleteClient CLIENT_TIMEOUT_TO_DELETE >>= fun s' =>
                      s'.evTimerStart h env.now := by
            simp [UtServer.serverOnTransout, onTables, hfind, hholder, hc, hsid, hts]
          rw [heq]
          refine onRecords_set hr ?_ hreg.1 rfl rfl
          rw [writeTun_eq]
          exact (restart_eq (set_heap_self _ _ _) _ _ _).trans (by simp [setClient, set_set, bare])
        · rw [serverOnTransout_recent hholder hreg.1 hsid hts, Option.some.injEq] at hstep
          subst hstep
          have heq : (s.onTables u).serverOnTransout hash fuel env =
              (s.onTables u).onRecords fun s' =>
                some ((s'.setClient h { c with srcAddr := s.ctx.srcAddr }).writeTun env.nwrite) := by
            simp [UtServer.serverOnTransout, onTables, hfind, hholder, hc, hsid, hts]
          rw [heq]
          refine onRecords_set hr ?_ hreg.1 rfl rfl
          rw [writeTun_eq]
          rfl
      · rw [serverOnTransout_stale hholder hreg.1 hsid, Option.some.injEq] at hstep
        subst hstep
        have heq : (s.onTables u).serverOnTransout hash fuel env =
            (s.onTables u).onRecords fun s => some s.sendDisconnect := by
          simp [UtServer.serverOnTransout, onTables, hfind, hholder, hc, hsid]
        rw [heq]
        exact onRecords_rest hr rfl

theorem follows_serverOnTransin {junk : UInt32} (ha : s.clients.Agree)
    (hfuel : s.clients.gClientsIp.count ≤ fuel) (hstep : s.serverOnTransin junk = some t) :
    Follows hash ((s.onTables u).serverOnTransin hash fuel junk) t := by
  have hfind := hr.findClient_eq hfuel (s.ctx.tunBuffer.transinIp junk)
  cases hholder : s.clients.findClient (s.ctx.tunBuffer.transinIp junk) with
  | none =>
      simp only [serverOnTransin, hholder, Option.some.injEq] at hstep
      subst hstep
      exact ⟨u, by simp [UtServer.serverOnTransin, onTables, hfind, hholder], hr⟩
  | some h =>
      obtain ⟨c, hreg, -⟩ := ha.registered_of_findClient hholder
      have hc : u.heap h = some c := by rw [hr.heap, hreg.1]
      simp only [serverOnTransin, hholder, hreg.1, Option.bind_eq_bind, Option.bind_some,
        Option.some.injEq] at hstep
      subst hstep
      simp only [UtServer.serverOnTransin, onTables, hfind, hholder, hc, Option.bind_eq_bind,
        Option.bind_some]
      exact onRecords_rest hr rfl

/-- The record of a new client is filled in before the tables get to know it. -/
theorem follows_enroll {m : Client} (halloc : ∀ h, (alloc h).mem = true) (hsmall : u.Small)
    (hpool : s.pool.Coherent) (ha : s.clients.Agree) (hfuel : s.clients.gClientsIp.count < fuel) (hlen : 0 ≤ s.ctx.guidLen ∧ s.ctx.guidLen < 60)
    (hnew : s.clients.findClientByGuid s.ctx.connectGuid = none) (hmem : env.mem = some m)
    (hstep : s.serverOnConnect env = some t) :
    Follows hash ((s.onTables u).serverOnConnect hash fuel alloc env) t := by
  rw [serverOnConnect_new hpool ha hlen hnew hmem, Option.some.injEq] at hstep
  subst hstep
  have hfind : u.findClientByGuid hash fuel s.ctx.connectGuid = some none := by
    rw [← hnew]
    exact hr.findClientByGuid_eq (ha.count_eq ▸ hfuel.le) _
  have hallocate : s.pool.serverAllocateIp = some (s.pool.nextIp, s.pool.nextSid, s.pool.allocated) :=
    IpPool.serverAllocateIp_eq hpool
  obtain ⟨fresh, hfresh⟩ : ∃ fresh, fresh = s.freshClient s.ctx m := ⟨_, rfl⟩
  obtain ⟨blank, hblank⟩ : ∃ blank, blank =
    { m with timeoutWatcher := { m.timeoutWatcher with init := none } } := ⟨_, rfl⟩
  -- the block, the record in it, and the record in the tables
  obtain ⟨v, hv⟩ : ∃ v, v = (u.newClient alloc (some m)).2 := ⟨_, rfl⟩
  have hmalloc : Refines hash v (s.clients.malloc blank) := by
    rw [hv, hblank]
    exact (hr.newClient ha alloc (some m)).2
  have hvsmall : v.Small := hv ▸ hsmall.newClient alloc (some m)
  have hheap : ∀ c, (s.clients.malloc c).heap s.clients.brk = some c := fun c => by
    rw [malloc_heap, if_pos rfl]
  have hunregistered : ∀ c, ¬ ∃ d, (s.clients.malloc c).Registered s.clients.brk d := by
    intro c hreg
    obtain ⟨d, hd⟩ := hreg
    exact ha.heap_ne_brk ((registered_malloc ha).1 hd).1 rfl
  have hfilled := hmalloc.fill (ha.malloc blank) (hheap blank) (hunregistered blank) fresh
  rw [set_malloc] at hfilled
  have hguid : (s.clients.malloc fresh).findClientByGuid fresh.guid = none := by
    rw [ClientTable.findClientByGuid, hfresh, cString_freshClient]
    exact hnew
  obtain ⟨w, hadd, hregister⟩ := hfilled.addClient_new IpPool.serverReclaimIp s.pool.allocated
    (halloc s.clients.brk) (ha.malloc fresh) hvsmall ⟨by rw [hheap]; rfl, hunregistered fresh⟩ hfuel (hheap fresh) hguid
  have hblock : u.newClient alloc (some m) = (some s.clients.brk, v) := by
    rw [hv, ← hr.brk]
    rfl
  have hcv : v.heap s.clients.brk = some blank := by rw [hmalloc.heap, hheap]
  have heq : (s.onTables u).serverOnConnect hash fuel alloc env =
      ({ s with
          pool := s.pool.allocated
          clients := (s.clients.malloc fresh).register s.clients.brk fresh
          trace := s.trace ++ [Effect.allocate s.pool.nextIp s.pool.nextSid] }.onTables w).onRecords
        (startHandshake env s.clients.brk) := by
    have hfind' : u.findClientByGuid hash fuel (s.ctx.guidBytes ++ [0]) = some none := hfind
    have hstored : { blank with
        guid := memcpy blank.guid (s.ctx.guidBytes ++ [0])
        ip := s.pool.nextIp
        sid := s.pool.nextSid } = fresh := by
      rw [hblank, hfresh]
      rfl
    simp only [UtServer.serverOnConnect, onTables, guard, hlen, and_self, if_true, hfind', hmem, hblock,
      hcv, hallocate, Option.bind_eq_bind, Option.bind_some, Option.pure_def, hstored, hadd]
  have hregistered : ((s.clients.malloc fresh).register s.clients.brk fresh).heap s.clients.brk =
      some fresh := by
    rw [register_heap, if_neg (not_found_malloc ha _ _), hheap]
  have hfollows := follows_startHandshake (s :=
    { s with
      pool := s.pool.allocated
      clients := (s.clients.malloc fresh).register s.clients.brk fresh
      trace := s.trace ++ [Effect.allocate s.pool.nextIp s.pool.nextSid] }) hregister env hregistered
  rw [heq]
  simpa only [set_register_malloc ha fresh (c := fresh.handshake _ _ _) rfl rfl, List.append_assoc,
    List.singleton_append, ← hfresh] using hfollows

theorem follows_serverOnConnect (halloc : ∀ h, (alloc h).mem = true) (hsmall : u.Small)
    (hpool : s.pool.Coherent) (ha : s.clients.Agree) (hfuel : s.clients.gClientsIp.count < fuel) (hstep : s.serverOnConnect env = some t) :
    Follows hash ((s.onTables u).serverOnConnect hash fuel alloc env) t := by
  by_cases hlen : 0 ≤ s.ctx.guidLen ∧ s.ctx.guidLen < 60
  · cases hknown : s.clients.findClientByGuid s.ctx.connectGuid with
    | some h =>
        obtain ⟨c, hreg, -⟩ := ha.registered_of_findGuid hknown
        rw [serverOnConnect_known hlen hknown, startHandshake_eq hreg.1, Option.some.injEq] at hstep
        subst hstep
        have hfind : u.findClientByGuid hash fuel (s.ctx.guidBytes ++ [0]) = some (some h) := by
          rw [← hknown]
          exact hr.findClientByGuid_eq (ha.count_eq ▸ hfuel.le) _
        have heq : (s.onTables u).serverOnConnect hash fuel alloc env =
            (s.onTables u).onRecords (startHandshake env h) := by
          simp [UtServer.serverOnConnect, onTables, hlen, hfind]
        rw [heq]
        exact follows_startHandshake hr env hreg.1
    | none =>
        cases hmem : env.mem with
        | none =>
            rw [serverOnConnect_eq_none_of_mem hknown hmem] at hstep
            cases hstep
        | some m => exact follows_enroll hr halloc hsmall hpool ha hfuel hlen hknown hmem hstep
  · rw [serverOnConnect_eq_none_of_len hlen] at hstep
    cases hstep

end Handlers

/-! ### Timers -/

section Timers

variable (hr : Refines hash u s.clients) {w : Handle} {error : Bool} {timer : Timer}
  (htimer : s.timers w = some timer) (hc : s.clients.heap w = some c)
include hr htimer hc

theorem fire_timeoutCb (hcb : timer.cb = .timeoutCb) :
    (s.onTables u).fire w error env =
      ({ s with timers := Function.update s.timers w none }.onTables u).timeoutCb env error w := by
  have hcu : u.heap w = some c := by rw [hr.heap, hc]
  simp only [UtServer.fire, onTables, htimer, hcu, hcb, Option.bind_eq_bind, Option.bind_some]

theorem fire_timeoutCbDeleteClient (hcb : timer.cb = .timeoutCbDeleteClient) :
    (s.onTables u).fire w error env =
      ({ s with timers := Function.update s.timers w none }.onTables u).timeoutCbDeleteClient error w := by
  have hcu : u.heap w = some c := by rw [hr.heap, hc]
  simp only [UtServer.fire, onTables, htimer, hcu, hcb, Option.bind_eq_bind, Option.bind_some]

/-- Before a CONNECT_OK is sent again, or the client is deleted, the attempt is counted. -/
theorem fire_counted (env : Env) (hs : s.Sound n) (hcb : timer.cb = .timeoutCb) (hstate : c.state = .connect)
    {d : Client} (hd : d = { c with resendCounter := c.resendCounter + 1 }) :
    ∃ v, Refines hash v (s.clients.set w d) ∧
      (s.onTables u).fire w false env =
        if c.resendCounter < SERVER_MAX_RESEND_COUNT then
          ({ s with
              clients := s.clients.set w d
              timers := Function.update s.timers w none }.onTables v).onRecords (sendConnectOk env w)
        else
          ({ s with
              clients := s.clients.set w d
              timers := Function.update s.timers w none }.onTables v).deleteClient w := by
  have hcu : ({ s with timers := Function.update s.timers w none }.onTables u).clients.heap w = some c := by
    rw [← hc, ← hr.heap]
    rfl
  obtain ⟨v, hcounted, hrv⟩ : Follows hash
      (({ s with timers := Function.update s.timers w none }.onTables u).onRecords fun s =>
        some (s.setClient w d))
      { s with clients := s.clients.set w d, timers := Function.update s.timers w none } :=
    onRecords_set (s := { s with timers := Function.update s.timers w none }) hr rfl hc (by rw [hd])
      (by rw [hd])
  refine ⟨v, hrv, ?_⟩
  rw [fire_timeoutCb hr htimer hc hcb]
  simp only [UtServer.timeoutCb, Bool.false_eq_true, if_false, hcu, hs.data w c hc, ← hd,
    Option.bind_eq_bind, Option.bind_some]
  simp only [hstate, hcounted, Option.bind_some]

theorem follows_resend (hs : s.Sound n) (hcb : timer.cb = .timeoutCb) (hstate : c.state = .connect)
    (hcount : c.resendCounter < SERVER_MAX_RESEND_COUNT)
    (hstep : step s (.timer w false env) = some t) :
    Follows hash ((s.onTables u).fire w false env) t := by
  rw [hs.step_resend htimer hcb hc hstate hcount, Option.some.injEq] at hstep
  subst hstep
  obtain ⟨v, hrv, heq⟩ := fire_counted hr htimer hc env hs hcb hstate rfl
  rw [heq, if_pos hcount]
  have hsent := follows_sendConnectOk (s :=
    { s with
      clients := s.clients.set w { c with resendCounter := c.resendCounter + 1 }
      timers := Function.update s.timers w none }) hrv env (set_heap_self _ _ _)
    (Function.update_self _ _ _)
  simpa only [set_set, Function.update_idem, Client.connectOk] using hsent

theorem follows_settle (hs : s.Sound n) (hcb : timer.cb = .timeoutCb) (hstate : c.state = .connectDone)
    (hstep : step s (.timer w false env) = some t) :
    Follows hash ((s.onTables u).fire w false env) t := by
  rw [hs.step_settle htimer hcb hc hstate, Option.some.injEq] at hstep
  subst hstep
  have hcu : u.heap w = some c := by rw [hr.heap, hc]
  have hdata := hs.data w c hc
  have heq : (s.onTables u).fire w false env =
      ({ s with timers := Function.update s.timers w none }.onTables u).onRecords fun s =>
        ((s.evTimerStop w).evTimerInit w .timeoutCbDeleteClient CLIENT_TIMEOUT_TO_DELETE).bind fun s =>
          s.evTimerStart w env.now := by
    rw [fire_timeoutCb hr htimer hc hcb]
    have hcu' : ({ s with timers := Function.update s.timers w none }.onTables u).clients.heap w =
      some c := hcu
    simp only [UtServer.timeoutCb, Bool.false_eq_true, if_false, hcu', hdata, hstate,
      Option.bind_eq_bind, Option.bind_some]
  rw [heq]
  have hset := follows_restart (s := { s with timers := Function.update s.timers w none }) hr hc
    .timeoutCbDeleteClient CLIENT_TIMEOUT_TO_DELETE env.now
  simpa only [Function.update_idem] using hset

theorem follows_expire (hs : s.Sound n)
    (hcause : (timer.cb = .timeoutCb ∧ c.state = .connect ∧
        ¬ c.resendCounter < SERVER_MAX_RESEND_COUNT) ∨
      (timer.cb = .timeoutCbDeleteClient ∧ c.state = .connectDone))
    (hstep : step s (.timer w false env) = some t) :
    Follows hash ((s.onTables u).fire w false env) t := by
  have hexp := expiring_eq_some.2 ⟨env, timer, rfl, htimer, hc, hcause⟩
  rw [hs.step_of_expiring hexp, Option.map_eq_some_iff] at hstep
  obtain ⟨pool, hpool, rfl⟩ := hstep
  have hcu : u.heap w = some c := by rw [hr.heap, hc]
  have hcu' : ({ s with timers := Function.update s.timers w none }.onTables u).clients.heap w =
    some c := hcu
  have hdata := hs.data w c hc
  have hreg := hs.registered w c hc
  rcases hcause with ⟨hcb, hstate, hcount⟩ | ⟨hcb, hstate⟩
  · obtain ⟨v, hrv, heq⟩ := fire_counted hr htimer hc env hs hcb hstate rfl
    rw [heq, if_neg hcount]
    refine follows_deleteClient (s :=
      { s with
        clients := s.clients.set w { c with resendCounter := c.resendCounter + 1 }
        timers := Function.update s.timers w none }) hrv (hs.agree.set hc rfl rfl)
      (registered_set_self hreg rfl) ?_
    rw [deleteClient_eq (set_heap_self _ _ _)]
    simp only [hpool, Option.map_some, drop_set]
  · have heq : (s.onTables u).fire w false env =
        ({ s with timers := Function.update s.timers w none }.onTables u).deleteClient w := by
      rw [fire_timeoutCbDeleteClient hr htimer hc hcb]
      simp only [UtServer.timeoutCbDeleteClient, Bool.false_eq_true, if_false, hcu', hdata, hstate,
        if_true, Option.bind_eq_bind, Option.bind_some]
    rw [heq]
    refine follows_deleteClient (s := { s with timers := Function.update s.timers w none }) hr
      hs.agree hreg ?_
    rw [deleteClient_eq (s := { s with timers := Function.update s.timers w none }) hc]
    simp only [hpool, Option.map_some]

end Timers

/-! ### Events -/

theorem utStep_tunRead (s : Server) (u : UtClientTable) (received : Option (List UInt8)) (junk : UInt32) :
    utStep hash fuel alloc (s.onTables u) (.tunRead false received junk) =
      ({ s with
          ctx := { s.ctx with tunBuffer := s.ctx.tunBuffer.readTun received } }.onTables
            u).serverOnTransin hash fuel junk := by
  cases received <;>
    simp only [utStep, UtServer.tunRead, Bool.false_eq_true, if_false, UInt64.not_lt_zero] <;> rfl

section Events

variable (hs : s.Sound n) (hr : Refines hash u s.clients)
include hs hr

theorem follows_fire {w : Handle} {error : Bool} (hstep : step s (.timer w error env) = some t) :
    Follows hash ((s.onTables u).fire w error env) t := by
  cases hexp : s.expiring (.timer w error env) with
  | some expired =>
      obtain ⟨env', timer, hevent, htimer, hc, hcause⟩ := expiring_eq_some.1 hexp
      cases hevent
      exact follows_expire hr htimer hc hs hcause hstep
  | none =>
      obtain ⟨timer, c, htimer, hreg, hcases⟩ := hs.firing_cases hstep
      rcases hcases with ⟨hcause, rfl⟩ | ⟨rfl, hcb, hstate, hcount, -⟩ | ⟨rfl, hcb, hstate, -⟩ |
        ⟨rfl, hcause, -⟩
      · refine ⟨u, ?_, hr⟩
        have hcu : ({ s with timers := Function.update s.timers w none }.onTables u).clients.heap w =
            some c := by
          rw [← hreg.1, ← hr.heap]
          rfl
        have hcbs : timer.cb = .timeoutCb ∨ timer.cb = .timeoutCbDeleteClient := by
          cases timer.cb <;> simp
        rcases hcbs with hcb | hcb
        · rw [fire_timeoutCb hr htimer hreg.1 hcb]
          rcases hcause with rfl | ⟨hdelete, -⟩
          · rfl
          · exact absurd (hcb.symm.trans hdelete) (by decide)
        · rw [fire_timeoutCbDeleteClient hr htimer hreg.1 hcb]
          rcases hcause with rfl | ⟨-, hstate⟩
          · rfl
          · cases error with
            | true => rfl
            | false =>
                simp [UtServer.timeoutCbDeleteClient, hcu, hs.data w c hreg.1, hstate]
      · exact follows_resend hr htimer hreg.1 hs hcb hstate hcount hstep
      · exact follows_settle hr htimer hreg.1 hs hcb hstate hstep
      · have hsome := expiring_eq_some.2 ⟨env, timer, rfl, htimer, hreg.1, hcause⟩
        rw [hexp] at hsome
        cases hsome

theorem follows_step (halloc : ∀ h, (alloc h).mem = true) (hsmall : u.Small)
    (hfuel : s.clients.gClientsIp.count < fuel) (hstep : step s e = some t) :
    Follows hash (utStep hash fuel alloc (s.onTables u) e) t := by
  cases e with
  | socketRead error received env =>
      cases error with
      | true =>
          cases hstep
          exact ⟨u, rfl, hr⟩
      | false =>
          cases received with
          | none =>
              cases hstep
              exact ⟨u, rfl, hr⟩
          | some datagram =>
              obtain ⟨bytes, src⟩ := datagram
              have hdispatch : (s.receive bytes src).dispatch env = some t := hstep
              show Follows hash (((s.onTables u).onRecords fun s => some (s.receive bytes src)).bind fun u =>
                u.dispatch hash fuel alloc env) t
              rw [onRecords_receive hr, Option.bind_some]
              show Follows hash
                (if (s.receive bytes src).ctx.cmd = TUNNEL_CMD_CONNECT then
                  ((s.receive bytes src).onTables u).serverOnConnect hash fuel alloc env
                else if (s.receive bytes src).ctx.cmd = TUNNEL_CMD_CONNECT_DONE then
                  ((s.receive bytes src).onTables u).serverOnConnectDone hash fuel
                else if (s.receive bytes src).ctx.cmd = TUNNEL_CMD_TRANS_OUT then
                  ((s.receive bytes src).onTables u).serverOnTransout hash fuel env
                else some ((s.receive bytes src).onTables u)) t
              rw [dispatch] at hdispatch
              split_ifs at hdispatch ⊢
              · exact follows_serverOnConnect (s := s.receive bytes src) hr halloc hsmall hs.coherent
                  hs.agree hfuel hdispatch
              · exact follows_serverOnConnectDone (s := s.receive bytes src) hr hs.agree hfuel.le hdispatch
              · exact follows_serverOnTransout (s := s.receive bytes src) hr hs.agree hfuel.le hdispatch
              · cases hdispatch
                exact ⟨u, rfl, hr⟩
  | tunRead error received junk =>
      cases error with
      | true =>
          cases hstep
          exact ⟨u, rfl, hr⟩
      | false =>
          rw [step_tunRead] at hstep
          rw [utStep_tunRead]
          exact follows_serverOnTransin
            (s := { s with ctx := { s.ctx with tunBuffer := s.ctx.tunBuffer.readTun received } })
            hr hs.agree hfuel.le hstep
  | timer w error env => exact follows_fire hs hr hstep

end Events

/-! ### Runs -/

theorem Outcome.count_le (hout : s.Outcome e t) :
    t.clients.gClientsIp.count ≤ s.clients.gClientsIp.count + 1 := by
  cases hout with
  | quiet | lapse | touch => exact Nat.le_succ _
  | create => exact Nat.succ_le_succ (count_evict_le (s := s.clients.malloc _) _)
  | expire => exact (count_drop_le _).trans (Nat.le_succ _)

end Server

/-- The lease that the hash tables lead to under a GUID. -/
def UtServer.leaseOf (hash : List UInt8 → UInt32) (fuel : Nat) (u : UtServer) (g : List UInt8) :
    Option Lease := do
  let h ← (← u.clients.gClientsGuid.hashFind hash (guidField u.clients.heap) fuel g)
  let c ← u.clients.heap h
  some (c.lease (u.timers h))

theorem UtClientTable.Refines.leaseOf {hash : List UInt8 → UInt32} {fuel : Nat} {u : UtClientTable}
    {t : Server} (hr : Refines hash u t.clients) (hfuel : t.clients.gClientsGuid.count ≤ fuel)
    (g : List UInt8) : (t.onTables u).leaseOf hash fuel g = t.leaseOf g := by
  have hfind : u.gClientsGuid.hashFind hash (guidField u.heap) fuel g =
      some (t.clients.gClientsGuid.find g) := hr.guid.hashFind hfuel g
  rw [hr.heap] at hfind
  simp only [UtServer.leaseOf, Server.leaseOf, Server.onTables, hfind, hr.heap, Option.bind_eq_bind,
    Option.bind_some]

open Server

/-- Whatever the hash function does and `malloc` leaves in a block: as long as there is memory for the
tables and they are small, the server over the hash tables goes through every run that the server over
indexes goes through. It does the same in it, its tables give the same answers, and it is a gateway with
the leases that they lead to. -/
theorem hash_server_is_gateway (hash : List UInt8 → UInt32) (alloc : Handle → UtAlloc)
    (halloc : ∀ h, (alloc h).mem = true) {n : Nat} (hmin : 2 ≤ n) (hmax : n ≤ 65533)
    (es : List Event) (t : Server) (hrun : Run.exec step (serverInit (ipPoolOf n)) es = some t)
    (fuel : Nat) (hfuel : es.length ≤ fuel)
    (hsmall : ∀ u ∈ Run.visited (utStep hash fuel alloc) (utServerInit (ipPoolOf n)) es,
      u.clients.Small) :
    ∃ u L, Run.exec (utStep hash fuel alloc) (utServerInit (ipPoolOf n)) es = some u ∧
      u.pool = t.pool ∧ u.timers = t.timers ∧ u.ctx = t.ctx ∧ u.trace = t.trace ∧
      u.clients.Answers hash fuel t.clients ∧
      Served .empty (dialogue n es) L ∧ ∀ g, L.lease g = u.leaseOf hash fuel g := by
  let Rel := fun (k : Nat) (u : UtServer) (s : Server) =>
    s.Sound n ∧ s.clients.gClientsIp.count + k ≤ fuel ∧
      ∃ v, u = s.onTables v ∧ Refines hash v s.clients
  have hinit : Rel es.length (utServerInit (ipPoolOf n)) (serverInit (ipPoolOf n)) :=
    ⟨serverInit_sound hmin hmax, (Nat.zero_add _).trans_le hfuel, .empty, rfl, refines_empty hash⟩
  have hkept : ∀ k u s e, Rel (k + 1) u s → u.clients.Small → (∃ t, step s e = some t) →
      ∃ v t, utStep hash fuel alloc u e = some v ∧ step s e = some t ∧ Rel k v t := by
    intro k u s e hrel hu hmove
    obtain ⟨hs, hcount, v, rfl, hr⟩ := hrel
    obtain ⟨t, hstep⟩ := hmove
    have hlt : s.clients.gClientsIp.count < fuel := by omega
    obtain ⟨w, hut, hrw⟩ := follows_step hs hr halloc hu hlt hstep
    have hgrow := (hs.step_cases hstep).count_le
    have hle : t.clients.gClientsIp.count + k ≤ fuel := by omega
    exact ⟨t.onTables w, t, hut, hstep, hs.of_step hstep, hle, w, rfl, hrw⟩
  obtain ⟨u, t', hut, hsame, hs, hcount, v, rfl, hr⟩ := Run.exec_of_simulation hkept hinit hsmall
    fun m hm => Run.step_of_mem_attempts hrun hm
  obtain rfl : t' = t := Option.some.inj (hsame.symm.trans hrun)
  have hlast : v.Small := hsmall _ (Run.exec_mem_visited hut)
  obtain ⟨-, L, hserved, hm⟩ := served_of_exec hmin hmax hrun
  refine ⟨_, L, hut, rfl, rfl, rfl, rfl, hr.answers hs.agree hlast hcount, hserved, fun g => ?_⟩
  rw [hm g, hr.leaseOf (hs.agree.count_eq ▸ hcount)]

theorem hash_server_is_gateway_comingAndGoing :
    ∃ t u L, Run.exec step (serverInit (ipPoolOf 65533)) comingAndGoing = some t ∧
      Run.exec (utStep hashJen 7 fun _ => ⟨UtHash.strayHandle, UtHash.strayHandle, true⟩)
        (utServerInit (ipPoolOf 65533)) comingAndGoing = some u ∧
      u.pool = t.pool ∧ u.timers = t.timers ∧ u.ctx = t.ctx ∧ u.trace = t.trace ∧
      u.clients.Answers hashJen 7 t.clients ∧
      Served .empty (dialogue 65533 comingAndGoing) L ∧ ∀ g, L.lease g = u.leaseOf hashJen 7 g := by
  obtain ⟨t, hrun⟩ := Option.isSome_iff_exists.1 comingAndGoing_runs
  obtain ⟨u, L, hfollows⟩ := hash_server_is_gateway hashJen
    (fun _ => ⟨UtHash.strayHandle, UtHash.strayHandle, true⟩) (fun _ => rfl) (by decide) le_rfl
    comingAndGoing t hrun 7 (by decide) (by decide +kernel)
  exact ⟨t, u, L, hrun, hfollows⟩

end TunnelServer
