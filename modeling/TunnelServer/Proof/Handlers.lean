import TunnelServer.Proof.Pool
import TunnelServer.Proof.Registry
import TunnelServer.ServerRuns

/-!
# What each handler does

One equation for each path through a handler, on a server whose tables agree and whose pool is
coherent. A path that touches a client rewrites one live record, and every stop, init and start of a
watcher comes down to one change of the active timers.
-/

namespace TunnelServer

def Client.handshake (c : Client) (h : Handle) (ctx : ServerCtx) (now : ℚ) : Client :=
  { c with
    state := .connect
    srcAddr := ctx.srcAddr
    version := ctx.sockByte TUNNEL_PAK_VER_IDX
    resendCounter := 0
    ts := now
    timeoutWatcher := { data := some h, init := some (.timeoutCb, 1 / 2) } }

def Client.watched (c : Client) (cb : TimerCb) (after : ℚ) : Client :=
  { c with timeoutWatcher := { c.timeoutWatcher with init := some (cb, after) } }

namespace ClientTable

theorem set_set (t : ClientTable) (h : Handle) (c c' : Client) :
    (t.set h c).set h c' = t.set h c' := by
  simp [set]

theorem set_heap_self (t : ClientTable) (h : Handle) (c : Client) :
    (t.set h c).heap h = some c := by
  rw [set_heap, if_pos rfl]

theorem drop_set (t : ClientTable) (h : Handle) (c : Client) : (t.set h c).drop h = t.drop h := by
  simp [set, drop, free]

end ClientTable

namespace Server

open ClientTable

variable {s : Server} {h : Handle} {c : Client} {env : Env}

/-- The state after `ev_timer_init` and `ev_timer_start` on an inactive watcher. -/
def armed (s : Server) (h : Handle) (c : Client) (cb : TimerCb) (after now : ℚ) : Server :=
  { s with
    clients := s.clients.set h (c.watched cb after)
    timers := Function.update s.timers h (some { cb, due := now + after })
    trace := s.trace ++ [Effect.evTimerInit h cb, .evTimerStart h] }

theorem arm_eq (hc : s.clients.heap h = some c) (hidle : s.timers h = none) (cb : TimerCb)
    (after now : ℚ) :
    ((s.evTimerInit h cb after).bind fun s => s.evTimerStart h now) =
      some (s.armed h c cb after now) := by
  simp [evTimerInit, evTimerStart, hc, setClient, emit, set_heap_self, hidle, armed, Client.watched]

/-- Stop, initialise, start: whatever the watcher did before, now it runs `cb` after the delay. -/
theorem restart_eq (hc : s.clients.heap h = some c) (cb : TimerCb) (after now : ℚ) :
    (((s.evTimerStop h).evTimerInit h cb after).bind fun s => s.evTimerStart h now) =
      some
        { s with
          clients := s.clients.set h (c.watched cb after)
          timers := Function.update s.timers h (some { cb, due := now + after })
          trace := s.trace ++ [Effect.evTimerStop h, .evTimerInit h cb, .evTimerStart h] } := by
  have hidle : (s.evTimerStop h).timers h = none := Function.update_self _ _ _
  rw [arm_eq (s := s.evTimerStop h) hc hidle]
  simp [armed, evTimerStop, emit]

/-! ### `send_connect_ok` and `server_on_connect` -/

theorem sendConnectOk_eq (hc : s.clients.heap h = some c) (hidle : s.timers h = none) :
    s.sendConnectOk env h =
      some
        { s with
          clients := s.clients.set h
            { c with timeoutWatcher := { data := some h, init := some (.timeoutCb, 1 / 2) } }
          timers := Function.update s.timers h (some { cb := .timeoutCb, due := env.now + 1 / 2 })
          trace := s.trace ++
            [Effect.sendto (some h) c.srcAddr c.connectOk, .evTimerInit h .timeoutCb, .evTimerStart h] } := by
  simp only [sendConnectOk, hc, Option.bind_eq_bind, Option.bind_some]
  rw [arm_eq (set_heap_self _ _ _) (by exact hidle)]
  simp [armed, setClient, emit, set_set, Client.watched, Client.connectOk]

theorem startHandshake_eq (hc : s.clients.heap h = some c) :
    s.startHandshake env h =
      some
        { s with
          clients := s.clients.set h (c.handshake h s.ctx env.now)
          timers := Function.update s.timers h (some { cb := .timeoutCb, due := env.now + 1 / 2 })
          trace := s.trace ++
            [Effect.evTimerStop h, .sendto (some h) s.ctx.srcAddr c.connectOk, .evTimerInit h .timeoutCb,
              .evTimerStart h] } := by
  simp only [startHandshake, hc, Option.bind_eq_bind, Option.bind_some]
  rw [sendConnectOk_eq (set_heap_self _ _ _) (Function.update_self _ _ _)]
  simp [evTimerStop, setClient, emit, set_set, Client.handshake, Client.connectOk]

theorem serverOnConnect_known (hlen : 0 ≤ s.ctx.guidLen ∧ s.ctx.guidLen < 60)
    (hfind : s.clients.findClientByGuid s.ctx.connectGuid = some h) :
    s.serverOnConnect env = s.startHandshake env h := by
  have hfind : s.clients.findClientByGuid (s.ctx.guidBytes ++ [0]) = some h := hfind
  simp [serverOnConnect, hlen, hfind]

def freshClient (s : Server) (ctx : ServerCtx) (m : Client) : Client :=
  { m with
    timeoutWatcher := { m.timeoutWatcher with init := none }
    guid := memcpy m.guid ctx.connectGuid
    ip := s.pool.nextIp
    sid := s.pool.nextSid }

theorem cString_freshClient (s : Server) (ctx : ServerCtx) (m : Client) :
    cString (s.freshClient ctx m).guid = cString ctx.connectGuid :=
  cString_memcpy_nul _ _

theorem serverOnConnect_new {m : Client} (hpool : s.pool.Coherent) (ha : s.clients.Agree)
    (hlen : 0 ≤ s.ctx.guidLen ∧ s.ctx.guidLen < 60)
    (hfind : s.clients.findClientByGuid s.ctx.connectGuid = none) (hmem : env.mem = some m) :
    s.serverOnConnect env =
      some
        { s with
          pool := s.pool.allocated
          clients := s.clients.enroll
            ((s.freshClient s.ctx m).handshake s.clients.brk s.ctx env.now)
          timers := Function.update s.timers s.clients.brk
            (some { cb := .timeoutCb, due := env.now + 1 / 2 })
          trace := s.trace ++
            [Effect.allocate s.pool.nextIp s.pool.nextSid, .evTimerStop s.clients.brk,
              .sendto (some s.clients.brk) s.ctx.srcAddr (s.freshClient s.ctx m).connectOk,
              .evTimerInit s.clients.brk .timeoutCb, .evTimerStart s.clients.brk] } := by
  have hfind' : s.clients.findClientByGuid (s.ctx.guidBytes ++ [0]) = none := hfind
  have halloc : s.pool.serverAllocateIp =
      some (s.pool.nextIp, s.pool.nextSid, s.pool.allocated) := IpPool.serverAllocateIp_eq hpool
  have hheap : (s.clients.malloc (s.freshClient s.ctx m)).heap s.clients.brk = some (s.freshClient s.ctx m) := by
    rw [malloc_heap, if_pos rfl]
  have hguid : (s.clients.malloc (s.freshClient s.ctx m)).findClientByGuid (s.freshClient s.ctx m).guid =
      none := by
    rw [findClientByGuid, cString_freshClient]
    exact hfind
  have hadd : addClient IpPool.serverReclaimIp (some s.clients.brk) s.pool.allocated
      (s.clients.malloc (s.freshClient s.ctx m)) =
        some (true, s.pool.allocated,
          (s.clients.malloc (s.freshClient s.ctx m)).register s.clients.brk
            (s.freshClient s.ctx m)) :=
    addClient_of_new (ha.malloc _) hheap hguid
  have hset : (newClient (some m) s.clients).2.set s.clients.brk (s.freshClient s.ctx m) =
      s.clients.malloc (s.freshClient s.ctx m) := set_malloc _
  have hfst : (newClient (some m) s.clients).1 = some s.clients.brk := rfl
  have hstored : (newClient (some m) s.clients).2.heap s.clients.brk =
      some { m with timeoutWatcher := { m.timeoutWatcher with init := none } } :=
    Function.update_self _ _ _
  have hregistered : ((s.clients.malloc (s.freshClient s.ctx m)).register s.clients.brk
      (s.freshClient s.ctx m)).heap s.clients.brk = some (s.freshClient s.ctx m) := by
    rw [register_heap, if_neg (not_found_malloc ha _ _), hheap]
  simp only [serverOnConnect, hlen, hfind', hmem, guard, and_self, if_true, Option.bind_eq_bind,
    Option.pure_def, Option.bind_some, hfst, hstored, halloc]
  show (addClient IpPool.serverReclaimIp (some s.clients.brk) s.pool.allocated
    ((newClient (some m) s.clients).2.set s.clients.brk (s.freshClient s.ctx m))).bind _ = _
  rw [hset, hadd, Option.bind_some, if_pos rfl, startHandshake_eq hregistered]
  simp only [emit, set_register_malloc ha (s.freshClient s.ctx m) (c := (s.freshClient s.ctx m).handshake _ _ _)
    rfl rfl, List.append_assoc, List.singleton_append]

theorem serverOnConnect_eq_none_of_len (hlen : ¬ (0 ≤ s.ctx.guidLen ∧ s.ctx.guidLen < 60)) :
    s.serverOnConnect env = none := by
  simp [serverOnConnect, hlen]

theorem serverOnConnect_eq_none_of_mem
    (hfind : s.clients.findClientByGuid s.ctx.connectGuid = none) (hmem : env.mem = none) :
    s.serverOnConnect env = none := by
  have hfind' : s.clients.findClientByGuid (s.ctx.guidBytes ++ [0]) = none := hfind
  by_cases hlen : 0 ≤ s.ctx.guidLen ∧ s.ctx.guidLen < 60
  · simp [serverOnConnect, hlen, hfind', hmem, newClient]
  · exact serverOnConnect_eq_none_of_len hlen

/-! ### The timer callbacks -/

theorem deleteClient_eq (hc : s.clients.heap h = some c) :
    s.deleteClient h =
      (s.pool.serverReclaimIp c.ip).map fun pool => { s with pool, clients := s.clients.drop h } := by
  rw [deleteClient, ClientTable.deleteClient_eq hc]
  cases s.pool.serverReclaimIp c.ip <;> rfl

section Callbacks

variable (hc : s.clients.heap h = some c) (hdata : c.timeoutWatcher.data = some h)
include hc hdata

theorem timeoutCb_resend (hidle : s.timers h = none) (hstate : c.state = .connect)
    (hcount : c.resendCounter < SERVER_MAX_RESEND_COUNT) :
    s.timeoutCb env false h =
      some
        { s with
          clients := s.clients.set h
            { c with
              resendCounter := c.resendCounter + 1
              timeoutWatcher := { data := some h, init := some (.timeoutCb, 1 / 2) } }
          timers := Function.update s.timers h (some { cb := .timeoutCb, due := env.now + 1 / 2 })
          trace := s.trace ++
            [Effect.sendto (some h) c.srcAddr c.connectOk, .evTimerInit h .timeoutCb, .evTimerStart h] } := by
  simp only [timeoutCb, Bool.false_eq_true, if_false, hc, hdata, hstate, hcount, if_true,
    Option.bind_eq_bind, Option.bind_some]
  rw [sendConnectOk_eq (set_heap_self _ _ _) (by exact hidle)]
  simp [setClient, set_set, Client.connectOk]

theorem timeoutCb_giveUp (hstate : c.state = .connect)
    (hcount : ¬ c.resendCounter < SERVER_MAX_RESEND_COUNT) :
    s.timeoutCb env false h =
      (s.pool.serverReclaimIp c.ip).map fun pool => { s with pool, clients := s.clients.drop h } := by
  simp only [timeoutCb, Bool.false_eq_true, if_false, hc, hdata, hstate, hcount, Option.bind_eq_bind,
    Option.bind_some]
  rw [deleteClient_eq (set_heap_self _ _ _)]
  simp [setClient, drop_set]

theorem timeoutCb_settle (hstate : c.state = .connectDone) :
    s.timeoutCb env false h =
      some
        { s with
          clients := s.clients.set h (c.watched .timeoutCbDeleteClient CLIENT_TIMEOUT_TO_DELETE)
          timers := Function.update s.timers h
            (some { cb := .timeoutCbDeleteClient, due := env.now + CLIENT_TIMEOUT_TO_DELETE })
          trace := s.trace ++
            [Effect.evTimerStop h, .evTimerInit h .timeoutCbDeleteClient, .evTimerStart h] } := by
  simp only [timeoutCb, Bool.false_eq_true, if_false, hc, hdata, hstate, Option.bind_eq_bind,
    Option.bind_some]
  exact restart_eq hc _ _ _

theorem timeoutCbDeleteClient_eq :
    s.timeoutCbDeleteClient false h =
      if c.state = .connectDone then
        (s.pool.serverReclaimIp c.ip).map fun pool => { s with pool, clients := s.clients.drop h }
      else some s := by
  simp only [timeoutCbDeleteClient, Bool.false_eq_true, if_false, hc, hdata, Option.bind_eq_bind,
    Option.bind_some, deleteClient_eq hc]

end Callbacks

/-! ### `server_on_connect_done` -/

theorem serverOnConnectDone_eq (hfind : s.clients.findClient s.ctx.doneIp = some h)
    (hc : s.clients.heap h = some c) :
    s.serverOnConnectDone =
      some { s with clients := s.clients.set h { c with state := .connectDone } } := by
  simp [serverOnConnectDone, hfind, hc, setClient]

/-! ### `server_on_transout` and `server_on_transin` -/

def tunEffects (ctx : ServerCtx) : List Effect :=
  .write ctx.ippackSize (ctx.ippack.take ctx.ippackSize.toNat) ::
    if ctx.tunReadStart then [] else [.evIoStart]

/-- The result of `write` makes no difference. -/
theorem writeTun_eq (nwrite : Int) (s : Server) :
    s.writeTun nwrite =
      { s with
        ctx := { s.ctx with tunReadStart := true }
        trace := s.trace ++ tunEffects s.ctx } := by
  obtain ⟨pool, clients, timers, ctx, trace⟩ := s
  cases hstart : ctx.tunReadStart with
  | true =>
      have hctx : { ctx with tunReadStart := true } = ctx := by rw [← hstart]
      simp [writeTun, emit, tunEffects, hstart, hctx]
  | false => simp [writeTun, emit, tunEffects, hstart]

theorem serverOnTransout_unknown
    (hfind : s.clients.findClient (s.ctx.transoutIp env.cliIp) = none) :
    s.serverOnTransout env = some s.sendDisconnect := by
  simp [serverOnTransout, hfind]

section Transout

variable (hfind : s.clients.findClient (s.ctx.transoutIp env.cliIp) = some h)
  (hc : s.clients.heap h = some c)
include hfind hc

theorem serverOnTransout_stale (hsid : c.sid ≠ s.ctx.transoutSid) :
    s.serverOnTransout env = some s.sendDisconnect := by
  simp [serverOnTransout, hfind, hc, hsid]

theorem serverOnTransout_recent (hsid : c.sid = s.ctx.transoutSid)
    (hts : ¬ env.now - c.ts > CLIENT_EXPAND_TIMEOUT_TIME) :
    s.serverOnTransout env =
      some
        { s with
          clients := s.clients.set h { c with srcAddr := s.ctx.srcAddr }
          ctx := { s.ctx with tunReadStart := true }
          trace := s.trace ++ tunEffects s.ctx } := by
  simp only [serverOnTransout, hfind, hc, hsid, ne_eq, not_true_eq_false, if_false, hts,
    Option.bind_eq_bind, Option.bind_some, writeTun_eq]
  rfl

theorem serverOnTransout_refresh (hsid : c.sid = s.ctx.transoutSid)
    (hts : env.now - c.ts > CLIENT_EXPAND_TIMEOUT_TIME) :
    s.serverOnTransout env =
      some
        { s with
          clients := s.clients.set h
            (Client.watched { c with srcAddr := s.ctx.srcAddr, ts := env.now }
              .timeoutCbDeleteClient CLIENT_TIMEOUT_TO_DELETE)
          timers := Function.update s.timers h
            (some { cb := .timeoutCbDeleteClient, due := env.now + CLIENT_TIMEOUT_TO_DELETE })
          ctx := { s.ctx with tunReadStart := true }
          trace := s.trace ++ (tunEffects s.ctx ++
            [Effect.evTimerStop h, .evTimerInit h .timeoutCbDeleteClient, .evTimerStart h]) } := by
  simp only [serverOnTransout, hfind, hc, hsid, ne_eq, not_true_eq_false, if_false, hts, if_true,
    Option.bind_eq_bind, Option.bind_some, writeTun_eq]
  rw [restart_eq (set_heap_self _ _ _)]
  simp [setClient, set_set]

end Transout

theorem serverOnTransin_cases {t : Server} {ctx : ServerCtx} {junk : UInt32} (ha : s.clients.Agree)
    (hstep : serverOnTransin junk { s with ctx } = some t) :
    ∃ ctx xs, t = { s with ctx, trace := s.trace ++ xs } ∧ issuedIn xs = [] ∧
      (∀ k, connectOks k xs = []) ∧ ∀ x ∈ xs, ∃ cli dst packet, x = .sendto cli dst packet := by
  cases hfind : s.clients.findClient (ctx.tunBuffer.transinIp junk) with
  | none =>
      simp only [serverOnTransin, hfind, Option.some.injEq] at hstep
      exact ⟨ctx, [], by rw [← hstep, List.append_nil], rfl, fun _ => rfl, fun _ hx => nomatch hx⟩
  | some h =>
      obtain ⟨c, hr, -⟩ := ha.registered_of_findClient hfind
      simp only [serverOnTransin, hfind, hr.1, Option.bind_eq_bind, Option.bind_some,
        Option.some.injEq] at hstep
      refine ⟨_, _, hstep.symm, rfl, fun k => ?_, fun x hx => ⟨_, _, _, List.mem_singleton.1 hx⟩⟩
      -- the second byte is the command of a trans-in datagram, if it is sent at all
      rcases ctx.tunBuffer.transinSize.toNat with _ | _ | n <;>
        simp [connectOks, Effect.connectOk, memcpy, TUNNEL_CMD_TRANS_IN, TUNNEL_CMD_CONNECT_OK]

theorem serverOnTransin_isSome (ha : s.clients.Agree) (ctx : ServerCtx) (junk : UInt32) :
    (serverOnTransin junk { s with ctx }).isSome := by
  cases hfind : s.clients.findClient (ctx.tunBuffer.transinIp junk) with
  | none => simp [serverOnTransin, hfind]
  | some h =>
      obtain ⟨c, hr, -⟩ := ha.registered_of_findClient hfind
      simp [serverOnTransin, hfind, hr.1]

end Server

end TunnelServer
