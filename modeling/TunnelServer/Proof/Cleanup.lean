import TunnelServer.Proof.Addresses

/-!
# Every client is going to be cleaned up

A registered client always has an active timer, and one that runs `timeout_cb_delete_client` deletes it
when it fires. What breaks this is traffic that comes an hour late while the client has not acknowledged
its address, which starts the deletion timer in the wrong state, and an address in a slot that the
`int16_t` of `server_reclaim_ip` does not hold.
-/

namespace TunnelServer

/-- The event is not a timer whose callback is told of an error. -/
def Event.NoTimerError (e : Event) : Prop := ∀ w env, e ≠ .timer w true env

instance (e : Event) : Decidable e.NoTimerError :=
  match e with
  | .socketRead .. => isTrue fun _ _ h => nomatch h
  | .tunRead .. => isTrue fun _ _ h => nomatch h
  | .timer _ false _ => isTrue fun _ _ h => nomatch h
  | .timer w true env => isFalse fun h => h w env rfl

namespace Server

open ClientTable

variable {n : Nat} {s t : Server} {e : Event} {h : Handle} {c : Client}

/-- The client has an active timer, and if that one is to delete it, its firing does. -/
def CleanedUp (s : Server) (h : Handle) (c : Client) : Prop :=
  ∃ timer, s.timers h = some timer ∧
    (timer.cb = .timeoutCbDeleteClient → c.state = .connectDone ∧
      ∀ env, ∃ t, step s (.timer h false env) = some t ∧ ∀ c', ¬ t.clients.Registered h c')

def CleanupScheduled (s : Server) : Prop := ∀ h c, s.clients.Registered h c → s.CleanedUp h c

/-- The client has acknowledged its address, which sits in a slot that an `int16_t` holds. -/
def Deletable (s : Server) (c : Client) : Prop :=
  c.state = .connectDone ∧ s.pool.slotOf c.ip ≤ 32767

/-- The deletion timer is started only for a client that can be deleted: by a trans-out datagram that is
accepted more than an hour after the last sign of life, and by `timeout_cb` after the handshake. -/
structure StartsDeletion (m : Server × Event) : Prop where
  refresh : ∀ ctx env, m.2.command TUNNEL_CMD_TRANS_OUT = some (ctx, env) →
    ∀ h c, m.1.clients.Registered h c → c.ip = ctx.transoutIp env.cliIp → c.sid = ctx.transoutSid →
      env.now - c.ts > CLIENT_EXPAND_TIMEOUT_TIME → m.1.Deletable c
  settle : ∀ h env timer c, m.2 = .timer h false env → m.1.timers h = some timer →
    timer.cb = .timeoutCb → m.1.clients.Registered h c → c.state = .connectDone → m.1.Deletable c

/-- The deletion timer of a connected client deletes it if its slot fits, and has no outcome otherwise. -/
theorem Sound.deletes_iff (hs : s.Sound n) {timer : Timer} (hr : s.clients.Registered h c)
    (htimer : s.timers h = some timer) (hcb : timer.cb = .timeoutCbDeleteClient)
    (hstate : c.state = .connectDone) (env : Env) :
    (∃ t, step s (.timer h false env) = some t ∧ ∀ c', ¬ t.clients.Registered h c') ↔
      s.pool.slotOf c.ip ≤ 32767 := by
  have hexp : s.expiring (.timer h false env) = some (h, c) :=
    expiring_eq_some.2 ⟨env, timer, rfl, htimer, hr.1, Or.inr ⟨hcb, hstate⟩⟩
  have hip := hs.owned h c hr.1
  rw [hs.step_of_expiring hexp, ← IpPool.serverReclaimIp_isSome_iff hs.coherent hip]
  constructor
  · rintro ⟨t, hstep, -⟩
    rw [← Option.isSome_map, hstep]
    rfl
  · intro hsome
    obtain ⟨pool, hpool⟩ := Option.isSome_iff_exists.1 hsome
    rw [hpool]
    exact ⟨_, rfl, fun c' hr' => ((registered_drop hs.agree).1 hr').2 rfl⟩

theorem Sound.cleanupScheduled_iff (hs : s.Sound n) :
    s.CleanupScheduled ↔ ∀ h c, s.clients.Registered h c →
      ∃ timer, s.timers h = some timer ∧
        (timer.cb = .timeoutCbDeleteClient → s.Deletable c) := by
  refine forall₃_congr fun h c hr => exists_congr fun timer => and_congr_right fun htimer => ?_
  refine forall_congr' fun hcb => and_congr_right fun hstate => ?_
  have hdeletes := hs.deletes_iff hr htimer hcb hstate
  exact ⟨fun hall => (hdeletes (.at 0)).1 (hall (.at 0)), fun hsmall env => (hdeletes env).2 hsmall⟩

/-- An address that stays held never leaves the slots that an `int16_t` holds. -/
theorem Sound.slotOf_le_of_step (hs : s.Sound n) (hr : s.clients.Registered h c)
    (hstays : ∃ c', t.clients.Registered h c') (hsmall : s.pool.slotOf c.ip ≤ 32767)
    (hstep : step s e = some t) : t.pool.slotOf c.ip ≤ 32767 := by
  cases hs.step_cases hstep with
  | quiet | lapse | touch | create => exact hsmall
  | expire hexp hpool =>
      rename_i w d pool
      obtain ⟨hfit, rfl⟩ := hs.reclaimed_of_expire hexp hpool
      have hw := hs.registered w d (heap_of_expiring hexp)
      obtain ⟨c', hr'⟩ := hstays
      have hne : h ≠ w := ((registered_drop hs.agree).1 hr').2
      have hip := hs.owned w d hw.1
      have hother : s.pool.slotOf c.ip ≠ s.pool.slotOf d.ip := by
        intro hslot
        have hsame : c.ip = d.ip := by
          rw [← hs.coherent.cell_slotOf (hs.owned h c hr.1), hslot, hs.coherent.cell_slotOf hip]
        exact hne (hs.agree.registered_inj hr hw (Or.inl hsame))
      show (s.pool.reclaimed (s.pool.slotOf d.ip)).slotOf c.ip ≤ 32767
      rw [hs.coherent.reclaimed_slotOf (hs.coherent.slotOf_lt hip) (hs.owned h c hr.1)]
      by_cases hlast : s.pool.slotOf c.ip = s.pool.ipListIdxAdvance s.pool.lastAvaliableIpIdx
      · rwa [hlast, Equiv.swap_apply_right]
      · rwa [Equiv.swap_apply_of_ne_of_ne hother hlast]

structure Scheduled (n : Nat) (s : Server) : Prop where
  sound : s.Sound n
  cleanup : s.CleanupScheduled

theorem serverInit_scheduled (hmin : 2 ≤ n) (hmax : n ≤ 65533) :
    (serverInit (ipPoolOf n)).Scheduled n :=
  ⟨serverInit_sound hmin hmax, fun _ _ hr => nomatch hr.1⟩

theorem Sound.touch_cleanup (hs : s.Sound n) {c' : Client} {timer' : Option Timer}
    {xs : List Effect} (hr : s.clients.Registered h c) (htouch : s.Touch h c e c' timer' xs)
    (hstarts : StartsDeletion (s, e))
    (hold : ∃ timer, s.timers h = some timer ∧
      (timer.cb = .timeoutCbDeleteClient → s.Deletable c)) :
    ∃ timer, timer' = some timer ∧
      (timer.cb = .timeoutCbDeleteClient → s.Deletable c') := by
  cases htouch with
  | reconnect | resend => exact ⟨_, rfl, fun hcb => nomatch hcb⟩
  | settle hevent htimer hcb hstate =>
      have hdeletable : s.Deletable c := hstarts.settle _ _ _ _ hevent htimer hcb hr hstate
      exact ⟨_, rfl, fun _ => hdeletable⟩
  | traffic => exact hold
  | connectDone =>
      obtain ⟨timer, htimer, hdeletable⟩ := hold
      exact ⟨timer, htimer, fun hcb => ⟨rfl, (hdeletable hcb).2⟩⟩
  | refresh hcmd hfind hsid hts =>
      obtain ⟨d, hd, hip⟩ := hs.agree.registered_of_findClient hfind
      rw [← Agree.registered_unique hr hd] at hip
      have hdeletable : s.Deletable c := hstarts.refresh _ _ hcmd h c hr hip hsid hts
      exact ⟨_, rfl, fun _ => hdeletable⟩

theorem Scheduled.of_step (hs : s.Scheduled n) (herror : e.NoTimerError)
    (hstarts : StartsDeletion (s, e)) (hstep : step s e = some t) : t.Scheduled n := by
  have ht := hs.sound.of_step hstep
  have hcleanup := hs.sound.cleanupScheduled_iff.1 hs.cleanup
  refine ⟨ht, ht.cleanupScheduled_iff.2 fun k d hd => ?_⟩
  -- a client that the step leaves as it is
  have hkept : s.clients.Registered k d → t.timers k = s.timers k →
      ∃ timer, t.timers k = some timer ∧ (timer.cb = .timeoutCbDeleteClient → t.Deletable d) := by
    intro hold htimers
    obtain ⟨timer, htimer, hdeletable⟩ := hcleanup k d hold
    refine ⟨timer, htimers.trans htimer, fun hcb => ⟨(hdeletable hcb).1, ?_⟩⟩
    exact hs.sound.slotOf_le_of_step hold ⟨d, hd⟩ (hdeletable hcb).2 hstep
  cases hs.sound.step_cases hstep with
  | quiet => exact hkept hd rfl
  | lapse hevent hfired hc hcause =>
      rename_i w error env fired c
      rcases hcause with rfl | ⟨hcb, hstate⟩
      · exact absurd hevent (herror w env)
      · -- a deletion timer of a client in the handshake: there is none
        obtain ⟨timer, htimer, hdeletable⟩ := hcleanup w c (hs.sound.registered w c hc)
        cases htimer.symm.trans hfired
        rw [(hdeletable hcb).1] at hstate
        cases hstate
  | touch ctx hr htouch =>
      rename_i h c c' timer' xs
      rcases (registered_set hr htouch.keys.2.1).1 hd with ⟨rfl, rfl⟩ | ⟨hne, hold⟩
      · obtain ⟨timer, htimer, hdeletable⟩ := hs.sound.touch_cleanup hr htouch hstarts (hcleanup _ c hr)
        exact ⟨timer, update_timers_eq_some.2 (Or.inl ⟨rfl, htimer⟩), hdeletable⟩
      · exact hkept hold (Function.update_of_ne hne _ _)
  | create =>
      rcases (registered_enroll hs.sound.agree).1 hd with ⟨rfl, rfl⟩ | ⟨hold, -⟩
      · exact ⟨_, Function.update_self _ _ _, fun hcb => nomatch hcb⟩
      · exact hkept hold (Function.update_of_ne (hs.sound.agree.heap_ne_brk hold.1) _ _)
  | expire =>
      obtain ⟨hold, hne⟩ := (registered_drop hs.sound.agree).1 hd
      exact hkept hold (Function.update_of_ne hne _ _)

/-- A deletion timer that is started for a client that cannot be deleted breaks what was scheduled. -/
theorem Sound.not_cleanupScheduled (hs : s.Sound n) (hstep : step s e = some t)
    (hbad : ¬ StartsDeletion (s, e)) : ¬ t.CleanupScheduled := by
  rw [(hs.of_step hstep).cleanupScheduled_iff]
  intro hcleanup
  refine hbad ⟨fun ctx env hcmd h c hr hip hsid hts => ?_, fun w env timer c hevent htimer hcb hr hstate => ?_⟩
  · obtain ⟨ctx', heq⟩ := step_refresh hcmd (hip ▸ hr.2) hr hsid hts
    rw [heq, Option.some.injEq] at hstep
    subst hstep
    obtain ⟨timer, htimer, hdeletable⟩ := hcleanup h _ (registered_set_self hr (by rfl))
    cases (Function.update_self _ _ _).symm.trans htimer
    exact hdeletable rfl
  · cases hevent
    rw [hs.step_settle htimer hcb hr.1 hstate, Option.some.injEq] at hstep
    subst hstep
    obtain ⟨timer', htimer', hdeletable⟩ := hcleanup w _ (registered_set_self hr (by rfl))
    cases (Function.update_self _ _ _).symm.trans htimer'
    exact hdeletable rfl

end Server

open Server

/-- In a run without timer errors every registered client is going to be cleaned up, exactly as long as
the deletion timer is started only for clients that can be deleted. -/
theorem cleanup_scheduled_iff {n : Nat} (hmin : 2 ≤ n) (hmax : n ≤ 65533) {es : List Event}
    (herror : ∀ e ∈ es, e.NoTimerError) :
    (∀ s ∈ Run.visited step (serverInit (ipPoolOf n)) es, s.CleanupScheduled) ↔
      ∀ m ∈ Run.taken step (serverInit (ipPoolOf n)) es, StartsDeletion (m.1, m.2.1) :=
  Run.forall_visited_iff_forall_taken
    (fun _ _ _ hs herror hstarts hstep => hs.of_step herror hstarts hstep) (fun _ hs => hs.cleanup)
    (fun _ _ _ hs _ hstep hbad => hs.sound.not_cleanupScheduled hstep hbad)
    (serverInit_scheduled hmin hmax) herror

theorem cleanup_scheduled_iff_comingAndGoing :
    (∀ s ∈ Run.visited step (serverInit (ipPoolOf 65533)) comingAndGoing, s.CleanupScheduled) ↔
      ∀ m ∈ Run.taken step (serverInit (ipPoolOf 65533)) comingAndGoing,
        StartsDeletion (m.1, m.2.1) :=
  cleanup_scheduled_iff (by decide) le_rfl (by decide)

/-- A client connects, sends a packet an hour later instead of acknowledging, and its timer runs. -/
def lateTraffic : List Event :=
  [.arrives (connectDatagram [0x61]) (.inet 192 0 2 1) 0,
    .arrives (transOutDatagram 0 (ipv4Header (htonl minIp) 0)) (.inet 192 0 2 1) 3601,
    .fires 0 (3601 + CLIENT_TIMEOUT_TO_DELETE)]

theorem late_traffic_leaves_client :
    ¬ ∀ s ∈ Run.visited step (serverInit serverIpInit) lateTraffic, s.CleanupScheduled := by
  have hleft : (Run.exec step (serverInit serverIpInit) lateTraffic).any (fun s =>
      decide ((∃ c, s.clients.Registered 0 c) ∧ s.timers 0 = none)) = true := by decide +kernel
  obtain ⟨s, hrun, hs⟩ := (Option.any_eq_true _ _).1 hleft
  obtain ⟨⟨c, hr⟩, hnone⟩ := of_decide_eq_true hs
  intro hall
  obtain ⟨timer, htimer, -⟩ := hall s (Run.exec_mem_visited hrun) 0 c hr
  rw [hnone] at htimer
  cases htimer

end TunnelServer
