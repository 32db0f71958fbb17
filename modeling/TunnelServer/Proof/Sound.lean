import TunnelServer.Proof.Step

/-!
# What every step keeps

A step keeps the server sound, whichever outcome it has. A registered client stays registered under
its keys until its timer deletes it or a new client is given its address.
-/

namespace TunnelServer

namespace Server

open ClientTable

variable {n : Nat} {s t : Server} {h w : Handle} {c c' : Client} {e : Event}

/-! ### What a touched record keeps -/

theorem issuedIn_append (xs ys : List Effect) : issuedIn (xs ++ ys) = issuedIn xs ++ issuedIn ys :=
  List.filterMap_append

theorem connectOks_append (k : Handle) (xs ys : List Effect) :
    connectOks k (xs ++ ys) = connectOks k xs ++ connectOks k ys :=
  List.filterMap_append

theorem issuedIn_tunEffects (ctx : ServerCtx) : issuedIn (tunEffects ctx) = [] := by
  unfold tunEffects
  split <;> rfl

theorem connectOks_tunEffects (k : Handle) (ctx : ServerCtx) : connectOks k (tunEffects ctx) = [] := by
  unfold tunEffects
  split <;> rfl

theorem connectOks_sendto (k : Handle) (dst : SockAddr) (c : Client) :
    connectOks k [.sendto (some h) dst c.connectOk] = if h = k then [c.connectOk] else [] := by
  have hcmd : c.connectOk[1]? = some TUNNEL_CMD_CONNECT_OK := rfl
  by_cases heq : h = k <;> simp [connectOks, Effect.connectOk, hcmd, heq]

theorem connectOks_created {ctx : ServerCtx} {m : Client} (k : Handle) :
    connectOks k
      [.allocate s.pool.nextIp s.pool.nextSid, .evTimerStop s.clients.brk,
        .sendto (some s.clients.brk) ctx.srcAddr (s.freshClient ctx m).connectOk,
        .evTimerInit s.clients.brk .timeoutCb, .evTimerStart s.clients.brk] =
      if s.clients.brk = k then [(s.freshClient ctx m).connectOk] else [] := by
  rw [← connectOks_sendto k ctx.srcAddr (s.freshClient ctx m)]
  rfl

theorem connectOk_congr (hip : c'.ip = c.ip) (hsid : c'.sid = c.sid) : c'.connectOk = c.connectOk := by
  rw [Client.connectOk, Client.connectOk, hip, hsid]

/-- What makes the server send a registered client its CONNECT_OK again: a CONNECT of its own, or its
resend timer while it is in the handshake. -/
def Prompted (s : Server) (e : Event) (h : Handle) : Prop :=
  (∃ ctx env, e.command TUNNEL_CMD_CONNECT = some (ctx, env) ∧
      s.clients.findClientByGuid ctx.connectGuid = some h) ∨
    ∃ env timer c, e = .timer h false env ∧ s.timers h = some timer ∧ timer.cb = .timeoutCb ∧
      s.clients.heap h = some c ∧ c.state = .connect

namespace Touch

variable {timer : Option Timer} {xs : List Effect}

theorem keys (htouch : s.Touch h c e c' timer xs) :
    c'.guid = c.guid ∧ c'.ip = c.ip ∧ c'.sid = c.sid := by
  cases htouch <;> exact ⟨rfl, rfl, rfl⟩

theorem data (htouch : s.Touch h c e c' timer xs) (hdata : c.timeoutWatcher.data = some h) :
    c'.timeoutWatcher.data = some h := by
  cases htouch with
  | reconnect | resend => rfl
  | connectDone | traffic | refresh | settle => exact hdata

theorem issuedIn_eq_nil (htouch : s.Touch h c e c' timer xs) : issuedIn xs = [] := by
  cases htouch with
  | reconnect | connectDone | resend | settle => rfl
  | traffic => exact issuedIn_tunEffects _
  | refresh =>
      rw [issuedIn_append, issuedIn_tunEffects]
      rfl

theorem connectOks_cases (hr : s.clients.Registered h c) (htouch : s.Touch h c e c' timer xs)
    (k : Handle) :
    connectOks k xs = [] ∨ (k = h ∧ connectOks k xs = [c.connectOk] ∧ s.Prompted e h) := by
  have hsend : ∀ (before after : List Effect) (dst : SockAddr), connectOks k before = [] →
      connectOks k after = [] → s.Prompted e h →
      connectOks k (before ++ ([.sendto (some h) dst c.connectOk] ++ after)) = [] ∨
        (k = h ∧ connectOks k (before ++ ([.sendto (some h) dst c.connectOk] ++ after)) =
          [c.connectOk] ∧ s.Prompted e h) := by
    intro before after dst hbefore hafter hprompted
    rw [connectOks_append, connectOks_append, hbefore, hafter, connectOks_sendto]
    by_cases heq : h = k
    · exact Or.inr ⟨heq.symm, by simp [heq], hprompted⟩
    · exact Or.inl (by simp [heq])
  cases htouch with
  | reconnect hcmd hlen hfind =>
      exact hsend [.evTimerStop h] [.evTimerInit h .timeoutCb, .evTimerStart h] _ rfl rfl
        (Or.inl ⟨_, _, hcmd, hfind⟩)
  | resend hevent htimer hcb hstate =>
      exact hsend [] [.evTimerInit h .timeoutCb, .evTimerStart h] _ rfl rfl
        (Or.inr ⟨_, _, c, hevent, htimer, hcb, hr.1, hstate⟩)
  | connectDone | settle => exact Or.inl rfl
  | traffic => exact Or.inl (connectOks_tunEffects k _)
  | refresh =>
      rw [connectOks_append, connectOks_tunEffects]
      exact Or.inl rfl

end Touch

/-- The address of a client that was deleted came from a slot the `int16_t` can hold. -/
theorem Sound.reclaimed_of_expire (hs : s.Sound n) {pool : IpPool}
    (hexp : s.expiring e = some (w, c)) (hpool : s.pool.serverReclaimIp c.ip = some pool) :
    s.pool.slotOf c.ip ≤ 32767 ∧ pool = s.pool.reclaimed (s.pool.slotOf c.ip) := by
  have hip := hs.owned w c (heap_of_expiring hexp)
  have hsmall : s.pool.slotOf c.ip ≤ 32767 :=
    (IpPool.serverReclaimIp_isSome_iff hs.coherent hip).1 (by rw [hpool]; rfl)
  rw [IpPool.serverReclaimIp_eq hs.coherent hip hsmall, Option.some.injEq] at hpool
  exact ⟨hsmall, hpool.symm⟩

/-! ### Every step keeps the server sound -/

theorem serverInit_sound (hmin : 2 ≤ n) (hmax : n ≤ 65533) : (serverInit (ipPoolOf n)).Sound n where
  coherent := IpPool.coherent_ipPoolOf hmin hmax
  count := IpPool.ipCount_ipPoolOf hmax
  start := rfl
  agree := agree_empty
  registered := fun _ _ hc => nomatch hc
  owned := fun _ _ hc => nomatch hc
  data := fun _ _ hc => nomatch hc
  timers_lt := fun _ htimer => absurd rfl htimer

theorem update_timers_eq_some {timer : Option Timer} {active : Timer} :
    Function.update s.timers w timer h = some active ↔
      (h = w ∧ timer = some active) ∨ (h ≠ w ∧ s.timers h = some active) := by
  rw [Function.update_apply]
  by_cases heq : h = w <;> simp [heq]

theorem Sound.timers_update_lt (hs : s.Sound n) {timer : Option Timer} (hw : w < s.clients.brk)
    (htimer : Function.update s.timers w timer h ≠ none) : h < s.clients.brk := by
  by_cases heq : h = w
  · exact heq ▸ hw
  · rw [Function.update_of_ne heq] at htimer
    exact hs.timers_lt h htimer

/-- Where the record of a live client comes from: it is new, the step touched it, or it is as it was. -/
theorem Outcome.heap_cases (hout : s.Outcome e t) (ha : s.clients.Agree)
    (hc' : t.clients.heap h = some c') :
    (h = s.clients.brk ∧ ∃ ctx env m, e.command TUNNEL_CMD_CONNECT = some (ctx, env) ∧
        c' = (s.freshClient ctx m).handshake h ctx env.now) ∨
      (∃ c timer xs, s.clients.Registered h c ∧ s.Touch h c e c' timer xs) ∨
        s.clients.heap h = some c' := by
  cases hout with
  | quiet | lapse => exact Or.inr (Or.inr hc')
  | touch ctx hr htouch =>
      change (s.clients.set _ _).heap h = some c' at hc'
      rw [set_heap] at hc'
      split_ifs at hc' with heq
      · cases hc'
        subst heq
        exact Or.inr (Or.inl ⟨_, _, _, hr, htouch⟩)
      · exact Or.inr (Or.inr hc')
  | create ctx' hcmd =>
      change (s.clients.enroll _).heap h = some c' at hc'
      rw [enroll_heap ha] at hc'
      split_ifs at hc' with hbrk
      · cases hc'
        subst hbrk
        exact Or.inl ⟨rfl, _, _, _, hcmd, rfl⟩
      · exact Or.inr (Or.inr hc')
  | expire =>
      change (s.clients.drop _).heap h = some c' at hc'
      rw [drop_heap] at hc'
      split_ifs at hc'
      exact Or.inr (Or.inr hc')

theorem Outcome.registered (hout : s.Outcome e t) (hs : s.Sound n) (hc : t.clients.heap h = some c) :
    t.clients.Registered h c := by
  cases hout with
  | quiet | lapse => exact hs.registered h c hc
  | touch ctx hr htouch =>
      refine (registered_set hr htouch.keys.2.1).2 ?_
      change (s.clients.set _ _).heap h = some c at hc
      rw [set_heap] at hc
      split_ifs at hc with heq
      · exact Or.inl ⟨heq, (Option.some.inj hc).symm⟩
      · exact Or.inr ⟨heq, hs.registered h c hc⟩
  | create =>
      refine (registered_enroll hs.agree).2 ?_
      change (s.clients.enroll _).heap h = some c at hc
      rw [enroll_heap hs.agree] at hc
      split_ifs at hc with hbrk hholder
      · exact Or.inl ⟨hbrk, (Option.some.inj hc).symm⟩
      · have hr := hs.registered h c hc
        exact Or.inr ⟨hr, fun hip => hholder (hip ▸ hr.2)⟩
  | expire =>
      refine (registered_drop hs.agree).2 ?_
      change (s.clients.drop _).heap h = some c at hc
      rw [drop_heap] at hc
      split_ifs at hc with heq
      exact ⟨hs.registered h c hc, heq⟩

theorem Outcome.owns (hout : s.Outcome e t) (hs : s.Sound n) {ip : UInt32} (hip : s.pool.Owns ip) :
    t.pool.Owns ip := by
  cases hout with
  | quiet | lapse | touch | create => exact hip
  | expire hexp hpool =>
      obtain ⟨-, rfl⟩ := hs.reclaimed_of_expire hexp hpool
      exact hip

theorem Outcome.owned (hout : s.Outcome e t) (hs : s.Sound n) (hc : t.clients.heap h = some c) :
    t.pool.Owns c.ip := by
  refine hout.owns hs ?_
  rcases hout.heap_cases hs.agree hc with ⟨-, ctx, env, m, -, rfl⟩ | ⟨d, timer, xs, hr, htouch⟩ | hsame
  · exact hs.coherent.owns_cell hs.coherent.next_lt
  · rw [htouch.keys.2.1]
    exact hs.owned h d hr.1
  · exact hs.owned h c hsame

theorem Outcome.data (hout : s.Outcome e t) (hs : s.Sound n) (hc : t.clients.heap h = some c) :
    c.timeoutWatcher.data = some h := by
  rcases hout.heap_cases hs.agree hc with ⟨-, ctx, env, m, -, rfl⟩ | ⟨d, timer, xs, hr, htouch⟩ | hsame
  · rfl
  · exact htouch.data (hs.data h d hr.1)
  · exact hs.data h c hsame

theorem Sound.of_outcome (hs : s.Sound n) (hout : s.Outcome e t) : t.Sound n := by
  have hregistered := fun h c (hc : t.clients.heap h = some c) => hout.registered hs hc
  have howned := fun h c (hc : t.clients.heap h = some c) => hout.owned hs hc
  have hdata := fun h c (hc : t.clients.heap h = some c) => hout.data hs hc
  have hlt := fun h c (hc : s.clients.heap h = some c) => hs.agree.heap_lt h c hc
  cases hout with
  | quiet =>
      exact ⟨hs.coherent, hs.count, hs.start, hs.agree, hregistered, howned, hdata, hs.timers_lt⟩
  | lapse hevent htimer hc hcause =>
      exact ⟨hs.coherent, hs.count, hs.start, hs.agree, hregistered, howned, hdata,
        fun h hne => hs.timers_update_lt (hlt _ _ hc) hne⟩
  | touch ctx hr htouch =>
      obtain ⟨hguid, hip, hsid⟩ := htouch.keys
      exact ⟨hs.coherent, hs.count, hs.start, hs.agree.set hr.1 hip (by rw [hguid]), hregistered,
        howned, hdata, fun h hne => hs.timers_update_lt (hlt _ _ hr.1) hne⟩
  | create ctx' hcmd hlen hfind hmem =>
      rename_i ctx env m
      have hguid : s.clients.gClientsGuid.find (cString ((s.freshClient ctx m).handshake
          s.clients.brk ctx env.now).guid) = none := by
        show s.clients.gClientsGuid.find (cString (s.freshClient ctx m).guid) = none
        rw [cString_freshClient]
        exact hfind
      refine ⟨hs.coherent.allocated, hs.count, hs.start, hs.agree.enroll hguid, hregistered, howned,
        hdata, fun h hne => ?_⟩
      show h < (s.clients.enroll _).brk
      rw [enroll_brk]
      by_cases heq : h = s.clients.brk
      · exact heq ▸ Nat.lt_succ_self _
      · exact Nat.lt_succ_of_lt (hs.timers_lt h fun hnone => hne
          ((Function.update_of_ne heq _ _).trans hnone))
  | expire hexp hpool =>
      have hc := heap_of_expiring hexp
      obtain ⟨-, rfl⟩ := hs.reclaimed_of_expire hexp hpool
      exact ⟨hs.coherent.reclaimed (hs.coherent.slotOf_lt (hs.owned _ _ hc)), hs.count, hs.start,
        hs.agree.drop _, hregistered, howned, hdata,
        fun h hne => hs.timers_update_lt (hlt _ _ hc) hne⟩

theorem Sound.of_step (hs : s.Sound n) (hstep : step s e = some t) : t.Sound n :=
  hs.of_outcome (hs.step_cases hstep)

/-- A step sends a client at most one CONNECT_OK, its own, when the client is new or has prompted it. -/
theorem Sound.sent_cases (hs : s.Sound n) (hstep : step s e = some t) (k : Handle) :
    connectOks k t.trace = connectOks k s.trace ∨
      ∃ c, t.clients.Registered k c ∧ connectOks k t.trace = connectOks k s.trace ++ [c.connectOk] ∧
        (k = s.clients.brk ∨ s.Prompted e k) := by
  cases hs.step_cases hstep with
  | quiet ctx xs halloc hoks =>
      left
      rw [connectOks_append, hoks, List.append_nil]
  | lapse | expire => exact Or.inl rfl
  | touch ctx hr htouch =>
      rename_i h c d timer xs
      rcases htouch.connectOks_cases hr k with hnil | ⟨rfl, hone, hprompted⟩
      · left
        rw [connectOks_append, hnil, List.append_nil]
      · refine Or.inr ⟨d, registered_set_self hr htouch.keys.2.1, ?_, Or.inr hprompted⟩
        rw [connectOks_append, hone, connectOk_congr htouch.keys.2.1 htouch.keys.2.2]
  | create =>
      rename_i ctx env m ctx' _ _ _ _
      by_cases hbrk : s.clients.brk = k
      · refine Or.inr ⟨(s.freshClient ctx m).handshake s.clients.brk ctx env.now,
          (registered_enroll hs.agree).2 (Or.inl ⟨hbrk.symm, rfl⟩), ?_, Or.inl hbrk.symm⟩
        rw [connectOks_append, connectOks_created, if_pos hbrk]
        rfl
      · left
        rw [connectOks_append, connectOks_created, if_neg hbrk, List.append_nil]

/-- After a CONNECT its GUID leads to a client whose handshake has just begun, and which has been sent
one CONNECT_OK. -/
theorem Sound.handshake_of_connect (hs : s.Sound n) (hstep : step s e = some t) {ctx : ServerCtx}
    {env : Env} (hcmd : e.command TUNNEL_CMD_CONNECT = some (ctx, env)) :
    ∃ h, ∃ c : Client, t.clients.findClientByGuid ctx.connectGuid = some h ∧
      t.clients.Registered h (c.handshake h ctx env.now) ∧
      connectOks h t.trace = connectOks h s.trace ++ [c.connectOk] := by
  have ht := hs.of_step hstep
  obtain ⟨-, ⟨h, c, ctx', hfind, hr, rfl⟩ | ⟨m, ctx', -, -, rfl⟩⟩ := hs.connect_cases hcmd hstep
  · refine ⟨h, c, hfind, registered_set_self hr rfl, ?_⟩
    rw [connectOks_append]
    congr 1
    exact (connectOks_sendto h ctx.srcAddr c).trans (if_pos rfl)
  · have hr := (registered_enroll (c := (s.freshClient ctx m).handshake s.clients.brk ctx env.now)
      hs.agree).2 (Or.inl ⟨rfl, rfl⟩)
    have hfound := ht.agree.findGuid_of_registered hr
    have hkey : cString ((s.freshClient ctx m).handshake s.clients.brk ctx env.now).guid =
        cString ctx.connectGuid := cString_freshClient s ctx m
    rw [hkey] at hfound
    refine ⟨s.clients.brk, s.freshClient ctx m, hfound, hr, ?_⟩
    rw [connectOks_append, connectOks_created, if_pos rfl]

/-- How a client can cease to be registered: its timer deletes it, or a new client is given its
address. Otherwise its record keeps the keys and the session id. -/
theorem Sound.registered_of_step (hs : s.Sound n) (hstep : step s e = some t)
    (hr : s.clients.Registered h c) :
    (∃ c', t.clients.Registered h c' ∧ c'.guid = c.guid ∧ c'.ip = c.ip ∧ c'.sid = c.sid) ∨
      s.expiring e = some (h, c) ∨
        (c.ip = s.pool.nextIp ∧ ∃ ctx env, e.command TUNNEL_CMD_CONNECT = some (ctx, env) ∧
          s.clients.findClientByGuid ctx.connectGuid = none) := by
  cases hs.step_cases hstep with
  | quiet | lapse => exact Or.inl ⟨c, hr, rfl, rfl, rfl⟩
  | touch ctx hr' htouch =>
      rename_i k d d' timer xs
      left
      by_cases heq : h = k
      · subst heq
        cases Agree.registered_unique hr hr'
        exact ⟨d', registered_set_self hr' htouch.keys.2.1, htouch.keys⟩
      · exact ⟨c, (registered_set hr' htouch.keys.2.1).2 (Or.inr ⟨heq, hr⟩), rfl, rfl, rfl⟩
  | create ctx' hcmd hlen hfind hmem =>
      by_cases hip : c.ip = s.pool.nextIp
      · exact Or.inr (Or.inr ⟨hip, _, _, hcmd, hfind⟩)
      · exact Or.inl ⟨c, (registered_enroll hs.agree).2 (Or.inr ⟨hr, hip⟩), rfl, rfl, rfl⟩
  | expire hexp hpool =>
      rename_i w d pool
      by_cases heq : h = w
      · subst heq
        cases Agree.registered_unique hr (hs.registered _ _ (heap_of_expiring hexp))
        exact Or.inr (Or.inl hexp)
      · exact Or.inl ⟨c, (registered_drop hs.agree).2 ⟨hr, heq⟩, rfl, rfl, rfl⟩

/-! ### Every state of a run is sound -/

theorem sound_of_mem_visited (hmin : 2 ≤ n) (hmax : n ≤ 65533) {es : List Event}
    (hs : s ∈ Run.visited step (serverInit (ipPoolOf n)) es) : s.Sound n :=
  Run.forall_visited (fun _ _ _ hs hstep => hs.of_step hstep) (serverInit_sound hmin hmax) es s hs

theorem sound_of_exec (hmin : 2 ≤ n) (hmax : n ≤ 65533) {es : List Event}
    (hrun : Run.exec step (serverInit (ipPoolOf n)) es = some s) : s.Sound n :=
  sound_of_mem_visited hmin hmax (Run.exec_mem_visited hrun)

end Server

end TunnelServer
