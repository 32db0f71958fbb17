import TunnelServer.Proof.Reconnect

/-!
# How often CONNECT_OK is sent again

A CONNECT starts a handshake and sends one CONNECT_OK. Each time the resend timer fires before the
client has answered, `resend_counter` goes up by one and the datagram is sent once more, up to
`SERVER_MAX_RESEND_COUNT` times; the firing after that deletes the client. In between other clients come
and go, and this one may send traffic or answer.
-/

namespace TunnelServer

namespace Server

/-- `timeout_cb` is invoked, without an error, for a client that is in the handshake. -/
def unanswered (s : Server) (h : Handle) : Event → Bool
  | .timer w false _ =>
    decide (w = h) && ((s.timers h).any fun timer => decide (timer.cb = .timeoutCb)) &&
      (s.clients.heap h).any fun c => decide (c.state = .connect)
  | _ => false

end Server

def unansweredIn (h : Handle) (ms : List (Server × Event × Server)) : Nat :=
  ms.countP fun m => m.1.unanswered h m.2.1

def NotConnecting (h : Handle) (m : Server × Event) : Prop :=
  ∀ ctx env, m.2.command TUNNEL_CMD_CONNECT = some (ctx, env) →
    m.1.clients.findClientByGuid ctx.connectGuid ≠ some h

instance (h : Handle) (m : Server × Event) : Decidable (NotConnecting h m) :=
  decidable_of_iff ((m.2.command TUNNEL_CMD_CONNECT).all (fun d =>
    decide (m.1.clients.findClientByGuid d.1.connectGuid ≠ some h)) = true)
    (by simp [NotConnecting, Option.all_eq_true])

/-- The client is sent its CONNECT_OK once more and has another half a second to answer. -/
structure Resends (s t : Server) (h : Handle) (c : Client) (now : ℚ) : Prop where
  pool : t.pool = s.pool
  registered : ∃ c', t.clients.Registered h c' ∧ c'.state = .connect ∧
    c'.resendCounter = c.resendCounter + 1
  timer : t.timers h = some { cb := .timeoutCb, due := now + 1 / 2 }
  sent : connectOks h t.trace = connectOks h s.trace ++ [c.connectOk]

/-- The client is in neither map any more, and its address went back to the pool, once. -/
structure Removes (s t : Server) (h : Handle) (c : Client) : Prop where
  freed : t.clients.heap h = none
  unknownIp : t.clients.findClient c.ip = none
  unknownGuid : t.clients.findClientByGuid c.guid = none
  reclaimed : s.pool.serverReclaimIp c.ip = some t.pool
  timer : t.timers h = none
  sent : connectOks h t.trace = connectOks h s.trace

/-- What the resend timer of a client in the handshake does when it fires after `count` firings that
found the client there. -/
structure NextFiring (s : Server) (h : Handle) (c : Client) (count : Nat) (env : Env) : Prop where
  counter : (c.resendCounter + 1).toNat = count + 1
  error : step s (.timer h true env) = some { s with timers := Function.update s.timers h none }
  resends : count < SERVER_MAX_RESEND_COUNT.toNat →
    ∃ t, step s (.timer h false env) = some t ∧ Resends s t h c env.now
  removes : count = SERVER_MAX_RESEND_COUNT.toNat → s.pool.slotOf c.ip ≤ 32767 →
    ∃ t, step s (.timer h false env) = some t ∧ Removes s t h c

namespace Server

open ClientTable

variable {n : Nat} {s t : Server} {e : Event} {h : Handle} {c c' : Client}

theorem unanswered_eq_true :
    s.unanswered h e = true ↔
      ∃ env timer c, e = .timer h false env ∧ s.timers h = some timer ∧ timer.cb = .timeoutCb ∧
        s.clients.heap h = some c ∧ c.state = .connect := by
  constructor
  · intro hfires
    cases e with
    | socketRead | tunRead => cases hfires
    | timer w error env =>
        cases error with
        | true => cases hfires
        | false =>
            simp only [unanswered, Bool.and_eq_true, decide_eq_true_eq, Option.any_eq_true] at hfires
            obtain ⟨⟨rfl, timer, htimer, hcb⟩, c, hc, hstate⟩ := hfires
            exact ⟨env, timer, c, rfl, htimer, hcb, hc, hstate⟩
  · intro hfires
    obtain ⟨env, timer, c, rfl, htimer, hcb, hc, hstate⟩ := hfires
    simp [unanswered, htimer, hcb, hc, hstate]

/-! ### What one firing does -/

section Firing

variable {env : Env} {timer : Timer} (hs : s.Sound n) (hr : s.clients.Registered h c)
  (htimer : s.timers h = some timer) (hcb : timer.cb = .timeoutCb) (hstate : c.state = .connect)
include hs hr htimer hcb hstate

theorem Sound.resends (hcount : c.resendCounter < SERVER_MAX_RESEND_COUNT) :
    ∃ t, step s (.timer h false env) = some t ∧ Resends s t h c env.now := by
  refine ⟨_, hs.step_resend htimer hcb hr.1 hstate hcount, ?_⟩
  refine
    { pool := rfl
      registered := ⟨_, registered_set_self hr rfl, hstate, rfl⟩
      timer := Function.update_self _ _ _
      sent := ?_ }
  rw [connectOks_append]
  congr 1
  exact (connectOks_sendto h c.srcAddr c).trans (if_pos rfl)

theorem Sound.removes (hcount : ¬ c.resendCounter < SERVER_MAX_RESEND_COUNT)
    (hstep : step s (.timer h false env) = some t) : Removes s t h c := by
  have hexp : s.expiring (.timer h false env) = some (h, c) :=
    expiring_eq_some.2 ⟨env, timer, rfl, htimer, hr.1, Or.inl ⟨hcb, hstate, hcount⟩⟩
  rw [hs.step_of_expiring hexp, Option.map_eq_some_iff] at hstep
  obtain ⟨pool, hpool, rfl⟩ := hstep
  refine
    { freed := ?_
      unknownIp := ?_
      unknownGuid := ?_
      reclaimed := hpool
      timer := Function.update_self _ _ _
      sent := rfl }
  · show (s.clients.drop h).heap h = none
    rw [drop_heap, if_pos rfl]
  · show (s.clients.drop h).findClient c.ip = none
    rw [findClient_drop hs.agree, if_pos hr.2]
  · show (s.clients.drop h).gClientsGuid.find (cString c.guid) = none
    rw [findGuid_drop hs.agree, if_pos (hs.agree.findGuid_of_registered hr)]

end Firing

theorem not_prompted (hconnect : NotConnecting h (s, e)) (hother : s.unanswered h e ≠ true) :
    ¬ s.Prompted e h := by
  intro hprompted
  rcases hprompted with ⟨ctx, env, hcmd, hfind⟩ | hfires
  · exact hconnect ctx env hcmd hfind
  · exact hother (unanswered_eq_true.2 hfires)

/-- An event that does not prompt it sends a client no CONNECT_OK, leaves its counter alone and does not
take it back into the handshake. -/
theorem Sound.not_resent (hs : s.Sound n) (hstep : step s e = some t) (hlt : h < s.clients.brk)
    (hnot : ¬ s.Prompted e h) :
    connectOks h t.trace = connectOks h s.trace ∧
      ∀ c', t.clients.heap h = some c' → ∃ c, s.clients.heap h = some c ∧
        c'.resendCounter = c.resendCounter ∧ (c.state = .connectDone → c'.state = .connectDone) := by
  constructor
  · rcases hs.sent_cases hstep h with hsame | ⟨c, -, -, hbrk | hprompted⟩
    · exact hsame
    · exact absurd hbrk (Nat.ne_of_lt hlt)
    · exact absurd hprompted hnot
  · intro c' hc'
    rcases (hs.step_cases hstep).heap_cases hs.agree hc' with
      ⟨hbrk, -⟩ | ⟨c, timer, xs, hr, htouch⟩ | hsame
    · exact absurd hbrk (Nat.ne_of_lt hlt)
    · refine ⟨c, hr.1, ?_⟩
      cases htouch with
      | reconnect hcmd hlen hfind => exact absurd (Or.inl ⟨_, _, hcmd, hfind⟩) hnot
      | connectDone => exact ⟨rfl, fun _ => rfl⟩
      | traffic | refresh | settle => exact ⟨rfl, id⟩
      | resend hevent htimer hcb hstate =>
          exact absurd (Or.inr ⟨_, _, c, hevent, htimer, hcb, hr.1, hstate⟩) hnot
    · exact ⟨c', hsame, rfl, id⟩

/-! ### A handshake and the firings in it -/

theorem unansweredIn_concat (h : Handle) (past : List (Server × Event × Server)) :
    unansweredIn h (past ++ [(s, e, t)]) =
      unansweredIn h past + if s.unanswered h e = true then 1 else 0 := by
  rw [unansweredIn, List.countP_append, List.countP_singleton]
  rfl

theorem toNat_resendCounter_succ (hcount : c.resendCounter.toNat ≤ SERVER_MAX_RESEND_COUNT.toNat) :
    (c.resendCounter + 1).toNat = c.resendCounter.toNat + 1 := by
  have hmax : SERVER_MAX_RESEND_COUNT.toNat = 10 := rfl
  rw [UInt8.toNat_add, Nat.mod_eq_of_lt]
  · rfl
  · show c.resendCounter.toNat + 1 < 256
    omega

structure Counted (n : Nat) (h : Handle) (before : Nat) (past : List (Server × Event × Server))
    (s : Server) : Prop where
  sound : s.Sound n
  known : h < s.clients.brk
  counter : ∀ c, s.clients.heap h = some c →
    c.resendCounter.toNat = unansweredIn h past ∧
      unansweredIn h past ≤ SERVER_MAX_RESEND_COUNT.toNat ∧
        (connectOks h s.trace).length = before + (1 + unansweredIn h past)
  sent : (connectOks h s.trace).length ≤ before + (1 + SERVER_MAX_RESEND_COUNT.toNat)

variable {before : Nat} {past : List (Server × Event × Server)}

theorem Counted.of_step (hs : s.Counted n h before past) (hconnect : NotConnecting h (s, e))
    (hstep : step s e = some t) : t.Counted n h before (past ++ [(s, e, t)]) := by
  have ht := hs.sound.of_step hstep
  have hknown := Nat.lt_of_lt_of_le hs.known (hs.sound.brk_le_of_step hstep)
  by_cases hfires : s.unanswered h e = true
  · obtain ⟨env, timer, c, rfl, htimer, hcb, hc, hstate⟩ := unanswered_eq_true.1 hfires
    have hr := hs.sound.registered h c hc
    obtain ⟨hcounter, hmax, hlength⟩ := hs.counter c hc
    by_cases hcount : c.resendCounter < SERVER_MAX_RESEND_COUNT
    · obtain ⟨u, hsend, hresends⟩ : ∃ u, step s (.timer h false env) = some u ∧
          Resends s u h c env.now := hs.sound.resends hr htimer hcb hstate hcount
      cases Option.some.inj (hstep.symm.trans hsend)
      obtain ⟨d, hd, -, hcounter'⟩ := hresends.registered
      have hlt : c.resendCounter.toNat < SERVER_MAX_RESEND_COUNT.toNat := hcount
      have hsucc : (c.resendCounter + 1).toNat = c.resendCounter.toNat + 1 :=
        toNat_resendCounter_succ (Nat.le_of_lt hlt)
      refine ⟨ht, hknown, fun c' hc' => ?_, ?_⟩
      · cases Option.some.inj (hd.1.symm.trans hc')
        rw [unansweredIn_concat, if_pos hfires, hcounter', hsucc, hcounter, hresends.sent,
          List.length_append, hlength, ← hcounter]
        exact ⟨rfl, hlt, rfl⟩
      · rw [hresends.sent, List.length_append, hlength, ← hcounter]
        exact Nat.add_le_add_left (Nat.add_le_add_left hlt 1) before
    · have hremoves := hs.sound.removes hr htimer hcb hstate hcount hstep
      refine ⟨ht, hknown, fun c' hc' => ?_, ?_⟩
      · rw [hremoves.freed] at hc'
        cases hc'
      · rw [hremoves.sent]
        exact hs.sent
  · obtain ⟨hoks, hkept⟩ := hs.sound.not_resent hstep hs.known (not_prompted hconnect hfires)
    refine ⟨ht, hknown, fun c' hc' => ?_, ?_⟩
    · obtain ⟨c, hc, hsame, -⟩ := hkept c' hc'
      rw [unansweredIn_concat, if_neg hfires, hsame, hoks]
      exact hs.counter c hc
    · rw [hoks]
      exact hs.sent

theorem Sound.counted_of_connect (hs : s.Sound n) (hstep : step s e = some t) {ctx : ServerCtx}
    {env : Env} (hcmd : e.command TUNNEL_CMD_CONNECT = some (ctx, env))
    (hfind : t.clients.findClientByGuid ctx.connectGuid = some h) :
    t.Counted n h (connectOks h s.trace).length [] := by
  have ht := hs.of_step hstep
  obtain ⟨k, c, hfound, hr, hfirst⟩ := hs.handshake_of_connect hstep hcmd
  cases Option.some.inj (hfound.symm.trans hfind)
  have hlength : (connectOks h t.trace).length = (connectOks h s.trace).length + 1 := by
    rw [hfirst, List.length_append, List.length_singleton]
  refine
    { sound := ht
      known := ht.agree.heap_lt h _ hr.1
      counter := fun d hd => ?_
      sent := ?_ }
  · cases Option.some.inj (hr.1.symm.trans hd)
    exact ⟨rfl, Nat.zero_le _, hlength⟩
  · rw [hlength]
    exact Nat.add_le_add_left (Nat.le_add_right 1 _) _

/-- The count decides what the next firing does. -/
theorem Counted.nextFiring (hs : s.Counted n h before past) {timer : Timer}
    (hr : s.clients.Registered h c) (htimer : s.timers h = some timer) (hcb : timer.cb = .timeoutCb)
    (hstate : c.state = .connect) (env : Env) : NextFiring s h c (unansweredIn h past) env := by
  obtain ⟨hcounter, hbound, -⟩ := hs.counter c hr.1
  refine
    { counter := by rw [toNat_resendCounter_succ (hcounter ▸ hbound), hcounter]
      error := by simp [step, fire, htimer, hr.1, hcb, timeoutCb]
      resends := fun hlt => ?_
      removes := fun hlast hsmall => ?_ }
  · rw [← hcounter] at hlt
    exact hs.sound.resends hr htimer hcb hstate hlt
  · have hcount : ¬ c.resendCounter < SERVER_MAX_RESEND_COUNT := by
      rw [← hcounter] at hlast
      exact Nat.not_lt.2 hlast.ge
    have hexp : s.expiring (.timer h false env) = some (h, c) :=
      expiring_eq_some.2 ⟨env, timer, rfl, htimer, hr.1, Or.inl ⟨hcb, hstate, hcount⟩⟩
    have hdefined : (step s (.timer h false env)).isSome := by
      refine hs.sound.fire_isSome ?_ ?_
      · intro w error env hevent
        cases hevent
        exact ⟨by rw [htimer]; rfl, c, hr⟩
      · intro w d hexpired
        cases Option.some.inj (hexp.symm.trans hexpired)
        exact hsmall
    obtain ⟨t, hstep⟩ := Option.isSome_iff_exists.1 hdefined
    exact ⟨t, hstep, hs.sound.removes hr htimer hcb hstate hcount hstep⟩

structure Answered (n : Nat) (h : Handle) (oks : List (List UInt8)) (s : Server) : Prop where
  sound : s.Sound n
  known : h < s.clients.brk
  state : ∀ c, s.clients.heap h = some c → c.state = .connectDone
  sent : connectOks h s.trace = oks

theorem Answered.of_step {oks : List (List UInt8)} (hs : s.Answered n h oks)
    (hconnect : NotConnecting h (s, e)) (hstep : step s e = some t) : t.Answered n h oks := by
  have hother : s.unanswered h e ≠ true := by
    intro hfires
    obtain ⟨env, timer, c, -, -, -, hc, hstate⟩ := unanswered_eq_true.1 hfires
    rw [hs.state c hc] at hstate
    cases hstate
  obtain ⟨hoks, hkept⟩ := hs.sound.not_resent hstep hs.known (not_prompted hconnect hother)
  refine
    { sound := hs.sound.of_step hstep
      known := Nat.lt_of_lt_of_le hs.known (hs.sound.brk_le_of_step hstep)
      state := fun c' hc' => ?_
      sent := hoks.trans hs.sent }
  obtain ⟨c, hc, -, hstate⟩ := hkept c' hc'
  exact hstate (hs.state c hc)

theorem Answered.of_exec {oks : List (List UInt8)} (hs : s.Answered n h oks) {fs : List Event}
    (hrun : Run.exec step s fs = some t)
    (hconnect : ∀ m ∈ Run.taken step s fs, NotConnecting h (m.1, m.2.1)) : t.Answered n h oks :=
  Run.forall_visited_of_forall_taken (C := fun s e => NotConnecting h (s, e))
    (fun _ _ _ hs hconnect hstep => hs.of_step hconnect hstep) hs hconnect t (Run.exec_mem_visited hrun)

end Server

open Server

/-- **The retransmission is bounded.** From a CONNECT on, until the same client connects again, at most
`1 + SERVER_MAX_RESEND_COUNT` CONNECT_OK datagrams are sent for it. As long as it is registered, its
counter is the number of firings of `timeout_cb` that found it in the handshake; that is at most
`SERVER_MAX_RESEND_COUNT`, and then the next one removes it, while every earlier one sends once more.
Once it has answered, no more are sent. -/
theorem retransmission_bounded {n : Nat} (hmin : 2 ≤ n) (hmax : n ≤ 65533) {es fs : List Event}
    {s t u : Server} {e : Event} {h : Handle} {ctx : ServerCtx} {env : Env}
    (hrun : Run.exec step (serverInit (ipPoolOf n)) es = some s)
    (hcmd : e.command TUNNEL_CMD_CONNECT = some (ctx, env)) (hstep : step s e = some t)
    (hfind : t.clients.findClientByGuid ctx.connectGuid = some h)
    (hfollow : Run.exec step t fs = some u)
    (hconnect : ∀ m ∈ Run.taken step t fs, NotConnecting h (m.1, m.2.1)) :
    (connectOks h u.trace).length ≤
        (connectOks h s.trace).length + (1 + SERVER_MAX_RESEND_COUNT.toNat) ∧
      ∀ c, u.clients.Registered h c →
        c.resendCounter.toNat = unansweredIn h (Run.taken step t fs) ∧
          unansweredIn h (Run.taken step t fs) ≤ SERVER_MAX_RESEND_COUNT.toNat ∧
          (∀ timer env', u.timers h = some timer → timer.cb = .timeoutCb → c.state = .connect →
            NextFiring u h c (unansweredIn h (Run.taken step t fs)) env') ∧
          (c.state = .connectDone → ∀ gs v, Run.exec step u gs = some v →
            (∀ m ∈ Run.taken step u gs, NotConnecting h (m.1, m.2.1)) →
              connectOks h v.trace = connectOks h u.trace) := by
  have hs : s.Sound n := sound_of_exec hmin hmax hrun
  have hu : u.Counted n h (connectOks h s.trace).length (Run.taken step t fs) := by
    refine Run.inv_history (C := fun _ s e => NotConnecting h (s, e))
      (fun _ _ _ _ hs hconnect hstep => hs.of_step hconnect hstep)
      (hs.counted_of_connect hstep hcmd hfind) hfollow fun past m rest hsplit => hconnect m ?_
    rw [hsplit]
    exact List.mem_append_right _ List.mem_cons_self
  refine ⟨hu.sent, fun c hr => ?_⟩
  obtain ⟨hcounter, hbound, -⟩ := hu.counter c hr.1
  refine ⟨hcounter, hbound, fun timer env' htimer hcb hstate => ?_, fun hstate gs v hgs hafter => ?_⟩
  · exact hu.nextFiring hr htimer hcb hstate env'
  · have hanswered : u.Answered n h (connectOks h u.trace) :=
      ⟨hu.sound, hu.known, fun c' hc' => by rwa [Option.some.inj (hc'.symm.trans hr.1)], rfl⟩
    exact (hanswered.of_exec hgs hafter).sent

/-- The client that has connected never answers, while another one connects and comes back. -/
def neverAnswers : List Event :=
  .arrives (connectDatagram [0x62]) (.inet 192 0 2 2) (1 / 4) ::
    (List.range 10).map (fun i => .fires 0 ((i + 1) / 2)) ++
      [.arrives (connectDatagram [0x62]) (.inet 192 0 2 3) (21 / 4)]

theorem retransmission_bounded_neverAnswers :
    ∃ t u v c, step (serverInit (ipPoolOf 65533)) firstConnect = some t ∧
      Run.exec step t neverAnswers = some u ∧ u.clients.Registered 0 c ∧
      (connectOks 0 u.trace).length ≤ 11 ∧ step u (.fires 0 (11 / 2)) = some v ∧
      Removes u v 0 c := by
  have hwaits : (step (serverInit (ipPoolOf 65533)) firstConnect).any (fun t =>
      decide (t.clients.findClientByGuid (datagramCtx (connectDatagram [0x61])
        (.inet 192 0 2 1)).connectGuid = some 0) &&
      decide (∀ m ∈ Run.taken step t neverAnswers, NotConnecting 0 (m.1, m.2.1)) &&
      decide (unansweredIn 0 (Run.taken step t neverAnswers) = 10) &&
      (Run.exec step t neverAnswers).any fun u =>
        (u.clients.heap 0).any fun c =>
          (u.timers 0).any fun timer => decide (u.clients.findClient c.ip = some 0 ∧
            c.state = .connect ∧ timer.cb = .timeoutCb ∧ u.pool.slotOf c.ip ≤ 32767)) = true := by
    decide +kernel
  simp only [Option.any_eq_true, Bool.and_eq_true, decide_eq_true_eq] at hwaits
  obtain ⟨t, hstep, ⟨⟨hfind, hconnect⟩, hten⟩, u, hfollow, c, hc, timer, htimer, hip, hstate, hcb,
    hsmall⟩ := hwaits
  have hempty : Run.exec step (serverInit (ipPoolOf 65533)) [] = some (serverInit (ipPoolOf 65533)) := rfl
  obtain ⟨hsent, hclient⟩ := retransmission_bounded (by decide) le_rfl hempty (e := firstConnect) rfl
    hstep hfind hfollow hconnect
  obtain ⟨-, -, hnext, -⟩ := hclient c ⟨hc, hip⟩
  obtain ⟨v, hfires, hremoves⟩ := (hnext timer (.at (11 / 2)) htimer hcb hstate).removes hten hsmall
  exact ⟨t, u, v, c, hstep, hfollow, ⟨hc, hip⟩, hsent, hfires, hremoves⟩

/-- A firing with an error neither sends the CONNECT_OK again nor removes the client. -/
theorem error_ends_retransmission :
    ∃ s t c timer, Run.exec step (serverInit serverIpInit) [firstConnect] = some s ∧
      s.timers 0 = some timer ∧ timer.cb = .timeoutCb ∧ s.clients.Registered 0 c ∧
      c.state = .connect ∧ step s (.timer 0 true (.at (1 / 2))) = some t ∧
      ¬ Resends s t 0 c (1 / 2) ∧ ¬ Removes s t 0 c := by
  have hrun : (Run.exec step (serverInit serverIpInit) [firstConnect]).any (fun s =>
      (step s (.timer 0 true (.at (1 / 2)))).any fun t =>
        (s.clients.heap 0).any fun c =>
          (s.timers 0).any fun timer => decide (timer.cb = .timeoutCb ∧
            s.clients.findClient c.ip = some 0 ∧ c.state = .connect ∧ t.timers 0 = none ∧
              t.clients.heap 0 = some c)) = true := by
    decide +kernel
  simp only [Option.any_eq_true, decide_eq_true_eq] at hrun
  obtain ⟨s, hrun, t, hstep, c, hc, timer, htimer, hcb, hip, hstate, hnone, hlive⟩ := hrun
  refine ⟨s, t, c, timer, hrun, htimer, hcb, ⟨hc, hip⟩, hstate, hstep, fun hresends => ?_,
    fun hremoves => ?_⟩
  · rw [hresends.timer] at hnone
    cases hnone
  · rw [hremoves.freed] at hlive
    cases hlive

end TunnelServer
