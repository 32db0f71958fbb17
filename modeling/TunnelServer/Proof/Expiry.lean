import Mathlib.Tactic.Linarith
import TunnelServer.Proof.Reconnect
import TunnelServer.Proof.Traffic

/-!
# How long a client may be silent

`ts` is the time of a client's last CONNECT or of the last datagram that moved its deadline. Traffic
moves it only when an hour has gone by, so it trails behind the last datagram by at most that hour. A
deletion timer runs two days from a moment that is never before `ts`.
-/

namespace TunnelServer

def Event.time : Event → Option ℚ
  | .socketRead _ _ env | .timer _ _ env => some env.now
  | .tunRead .. => none

def Clocked (es : List Event) : Prop := (es.filterMap Event.time).Pairwise (· ≤ ·)

instance (es : List Event) : Decidable (Clocked es) := inferInstanceAs (Decidable (List.Pairwise _ _))

/-- In the step a trans-out datagram was accepted for a client, at this time. -/
def TrafficAt (m : Server × Event × Server) (h : Handle) (time : ℚ) : Prop :=
  ∃ ctx env, m.1.accepts m.2.1 = some (h, ctx, env) ∧ env.now = time

/-- In the step a client connected, for the first time or again, at this time. -/
def ConnectAt (m : Server × Event × Server) (h : Handle) (time : ℚ) : Prop :=
  ∃ ctx env, m.2.1.command TUNNEL_CMD_CONNECT = some (ctx, env) ∧
    m.2.2.clients.findClientByGuid ctx.connectGuid = some h ∧ env.now = time

namespace Server

open ClientTable

variable {n : Nat} {s t : Server} {e : Event} {h : Handle} {c c' : Client} {ctx : ServerCtx} {env : Env}

theorem time_of_command {cmd : UInt8} (hcmd : e.command cmd = some (ctx, env)) :
    e.time = some env.now := by
  obtain ⟨bytes, src, rfl, -, -⟩ := command_eq_some.1 hcmd
  rfl

/-! ### What a step does to the timestamp -/

theorem Touch.ts_cases {timer : Option Timer} {xs : List Effect} (htouch : s.Touch h c e c' timer xs) :
    c'.ts = c.ts ∨ e.time = some c'.ts := by
  cases htouch with
  | reconnect hcmd | refresh hcmd => exact Or.inr (time_of_command hcmd)
  | connectDone | traffic | resend | settle => exact Or.inl rfl

/-- A live record is new with the time of the event, or an older one whose timestamp is the one it had or
the time of the event. -/
theorem Sound.ts_cases (hs : s.Sound n) (hstep : step s e = some t) (hc' : t.clients.heap h = some c') :
    (h = s.clients.brk ∧ e.time = some c'.ts) ∨
      ∃ c, s.clients.heap h = some c ∧ (c'.ts = c.ts ∨ e.time = some c'.ts) := by
  rcases (hs.step_cases hstep).heap_cases hs.agree hc' with
    ⟨hbrk, ctx, env, m, hcmd, rfl⟩ | ⟨c, timer, xs, hr, htouch⟩ | hsame
  · exact Or.inl ⟨hbrk, time_of_command hcmd⟩
  · exact Or.inr ⟨c, hr.1, htouch.ts_cases⟩
  · exact Or.inr ⟨c', hsame, Or.inl rfl⟩

theorem Sound.ts_of_traffic (hs : s.Sound n) (hstep : step s e = some t)
    (hacc : s.accepts e = some (h, ctx, env)) (hc' : t.clients.heap h = some c') :
    env.now ≤ c'.ts + CLIENT_EXPAND_TIMEOUT_TIME := by
  obtain ⟨bytes, src, rfl, rfl, hcmd⟩ := datagram_of_accepts hacc
  obtain ⟨c, d, timer, ys, hr, htouch, -, heq⟩ := hs.step_accepted hacc
  cases Option.some.inj (hstep.symm.trans heq)
  cases Option.some.inj (hc'.symm.trans (set_heap_self _ _ _))
  rcases (htouch.of_transOut hcmd).2 with ⟨hsame, hrecent⟩ | hnow
  · rw [hsame]
    linarith
  · have hhour : (0 : ℚ) ≤ CLIENT_EXPAND_TIMEOUT_TIME := by decide
    rw [hnow]
    linarith

theorem Sound.ts_of_connect (hs : s.Sound n) (hstep : step s e = some t)
    (hcmd : e.command TUNNEL_CMD_CONNECT = some (ctx, env))
    (hfind : t.clients.findClientByGuid ctx.connectGuid = some h)
    (hc' : t.clients.heap h = some c') : c'.ts = env.now := by
  obtain ⟨k, c, hfound, hr, -⟩ := hs.handshake_of_connect hstep hcmd
  cases Option.some.inj (hfound.symm.trans hfind)
  cases Option.some.inj (hc'.symm.trans hr.1)
  rfl

/-! ### Timestamps and deadlines along a run -/

/-- What the timestamps and the deletion timers say about the steps so far. -/
structure Timely (n : Nat) (past : List (Server × Event × Server)) (s : Server) : Prop where
  sound : s.Sound n
  traffic : ∀ m ∈ past, ∀ h c time, s.clients.heap h = some c → TrafficAt m h time →
    time ≤ c.ts + CLIENT_EXPAND_TIMEOUT_TIME
  connect : ∀ m ∈ past, ∀ h c time, s.clients.heap h = some c → ConnectAt m h time → time ≤ c.ts
  deadline : ∀ h c timer, s.clients.heap h = some c → s.timers h = some timer →
    timer.cb = .timeoutCbDeleteClient → c.ts + CLIENT_TIMEOUT_TO_DELETE ≤ timer.due
  ts_le : ∀ h c now, s.clients.heap h = some c →
    (∀ m ∈ past, ∀ time, m.2.1.time = some time → time ≤ now) → c.ts ≤ now
  known : ∀ m ∈ past, ∀ h time, TrafficAt m h time ∨ ConnectAt m h time → h < s.clients.brk

def InOrder (past : List (Server × Event × Server)) (e : Event) : Prop :=
  ∀ m ∈ past, ∀ time now, m.2.1.time = some time → e.time = some now → time ≤ now

variable {past : List (Server × Event × Server)}

theorem Timely.ts_mono (hs : s.Timely n past) (horder : InOrder past e) (hstep : step s e = some t)
    (hlt : h < s.clients.brk) (hc' : t.clients.heap h = some c') :
    ∃ c, s.clients.heap h = some c ∧ c.ts ≤ c'.ts := by
  rcases hs.sound.ts_cases hstep hc' with ⟨hbrk, -⟩ | ⟨c, hc, hsame | htime⟩
  · exact absurd hbrk (Nat.ne_of_lt hlt)
  · exact ⟨c, hc, hsame.ge⟩
  · exact ⟨c, hc, hs.ts_le h c c'.ts hc fun m hm time hm' => horder m hm time c'.ts hm' htime⟩

/-- A deletion timer runs out two days after the timestamp at the earliest. -/
theorem Timely.deadline_of_step (hs : s.Timely n past) (horder : InOrder past e)
    (hstep : step s e = some t) {timer : Timer} (hc' : t.clients.heap h = some c')
    (htimer : t.timers h = some timer) (hcb : timer.cb = .timeoutCbDeleteClient) :
    c'.ts + CLIENT_TIMEOUT_TO_DELETE ≤ timer.due := by
  cases hs.sound.step_cases hstep with
  | quiet => exact hs.deadline h c' timer hc' htimer hcb
  | lapse =>
      rcases update_timers_eq_some.1 htimer with ⟨-, hnone⟩ | ⟨-, hold⟩
      · cases hnone
      · exact hs.deadline h c' timer hc' hold hcb
  | touch ctx hr htouch =>
      rename_i k c d active xs
      change (s.clients.set k d).heap h = some c' at hc'
      rw [set_heap] at hc'
      rcases update_timers_eq_some.1 htimer with ⟨rfl, hactive⟩ | ⟨hne, hold⟩
      · rw [if_pos rfl, Option.some.injEq] at hc'
        subst hc'
        cases htouch with
        | reconnect | resend =>
            cases hactive
            cases hcb
        | connectDone | traffic => exact hs.deadline h c timer hr.1 hactive hcb
        | refresh =>
            cases hactive
            exact le_rfl
        | settle hevent =>
            rename_i env fired _ _ _
            cases hactive
            subst hevent
            have hts : c.ts ≤ env.now := hs.ts_le h c env.now hr.1 fun m hm time hm' =>
              horder m hm time env.now hm' rfl
            show c.ts + _ ≤ env.now + _
            linarith
      · rw [if_neg hne] at hc'
        exact hs.deadline h c' timer hc' hold hcb
  | create =>
      change (s.clients.enroll _).heap h = some c' at hc'
      rw [enroll_heap hs.sound.agree] at hc'
      rcases update_timers_eq_some.1 htimer with ⟨-, hactive⟩ | ⟨hne, hold⟩
      · cases hactive
        cases hcb
      · rw [if_neg hne] at hc'
        split_ifs at hc'
        exact hs.deadline h c' timer hc' hold hcb
  | expire =>
      change (s.clients.drop _).heap h = some c' at hc'
      rw [drop_heap] at hc'
      split_ifs at hc'
      rcases update_timers_eq_some.1 htimer with ⟨-, hnone⟩ | ⟨-, hold⟩
      · cases hnone
      · exact hs.deadline h c' timer hc' hold hcb

theorem Timely.of_step (hs : s.Timely n past) (horder : InOrder past e) (hstep : step s e = some t) :
    t.Timely n (past ++ [(s, e, t)]) := by
  have ht := hs.sound.of_step hstep
  have hbrk := hs.sound.brk_le_of_step hstep
  have hknown : ∀ m ∈ past ++ [(s, e, t)], ∀ h time, TrafficAt m h time ∨ ConnectAt m h time →
      h < t.clients.brk := by
    intro m hm h time hat
    rcases List.mem_append.1 hm with hm | hm
    · exact Nat.lt_of_lt_of_le (hs.known m hm h time hat) hbrk
    · cases List.mem_singleton.1 hm
      rcases hat with ⟨ctx, env, hacc, -⟩ | ⟨ctx, env, -, hfind, -⟩
      · obtain ⟨c, -, -, hc, -⟩ := accepts_eq_some.1 hacc
        exact Nat.lt_of_lt_of_le (hs.sound.agree.heap_lt h c hc) hbrk
      · obtain ⟨c, hr, -⟩ := ht.agree.registered_of_findGuid hfind
        exact ht.agree.heap_lt h c hr.1
  refine
    { sound := ht
      traffic := fun m hm h c' time hc' hat => ?_
      connect := fun m hm h c' time hc' hat => ?_
      deadline := fun h c' timer => hs.deadline_of_step horder hstep
      ts_le := fun h c' now hc' hnow => ?_
      known := hknown }
  · rcases List.mem_append.1 hm with hm | hm
    · obtain ⟨c, hc, hts⟩ := hs.ts_mono horder hstep (hs.known m hm h time (Or.inl hat)) hc'
      have htime := hs.traffic m hm h c time hc hat
      linarith
    · cases List.mem_singleton.1 hm
      obtain ⟨ctx, env, hacc, rfl⟩ := hat
      exact hs.sound.ts_of_traffic hstep hacc hc'
  · rcases List.mem_append.1 hm with hm | hm
    · obtain ⟨c, hc, hts⟩ := hs.ts_mono horder hstep (hs.known m hm h time (Or.inr hat)) hc'
      exact (hs.connect m hm h c time hc hat).trans hts
    · cases List.mem_singleton.1 hm
      obtain ⟨ctx, env, hcmd, hfind, rfl⟩ := hat
      exact (hs.sound.ts_of_connect hstep hcmd hfind hc').ge
  · have hlast : ∀ time, e.time = some time → time ≤ now := fun time htime =>
      hnow (s, e, t) (List.mem_append_right _ List.mem_cons_self) time htime
    rcases hs.sound.ts_cases hstep hc' with ⟨-, htime⟩ | ⟨c, hc, hsame | htime⟩
    · exact hlast _ htime
    · rw [hsame]
      exact hs.ts_le h c now hc fun m hm => hnow m (List.mem_append_left _ hm)
    · exact hlast _ htime

theorem inOrder_of_clocked {es : List Event} (hrun : Run.exec step s es = some t)
    (hclock : Clocked es) {m : Server × Event × Server} {rest : List (Server × Event × Server)}
    (hsplit : Run.taken step s es = past ++ m :: rest) : InOrder past m.2.1 := by
  intro m' hm' time now htime hnow
  rw [Clocked, ← Run.map_event_taken hrun, hsplit, List.map_append, List.filterMap_append,
    List.pairwise_append] at hclock
  refine hclock.2.2 time ?_ now ?_
  · exact List.mem_filterMap.2 ⟨m'.2.1, List.mem_map_of_mem hm', htime⟩
  · exact List.mem_filterMap.2 ⟨m.2.1, List.mem_map_of_mem List.mem_cons_self, hnow⟩

end Server

open Server

/-- **An active client is not expired early.** In a run whose clock does not go back, let
`timeout_cb_delete_client` delete a client, by a timer that does not fire before it is due. That is no
earlier than `CLIENT_TIMEOUT_TO_DELETE - CLIENT_EXPAND_TIMEOUT_TIME` after every trans-out datagram
accepted for the client and `CLIENT_TIMEOUT_TO_DELETE` after every CONNECT. -/
theorem not_expired_early {n : Nat} (hmin : 2 ≤ n) (hmax : n ≤ 65533) {es : List Event} {s : Server}
    (hrun : Run.exec step (serverInit (ipPoolOf n)) es = some s) (hclock : Clocked es) {h : Handle}
    {c : Client} {timer : Timer} {env : Env}
    (hdeleted : s.expiring (.timer h false env) = some (h, c)) (htimer : s.timers h = some timer)
    (hcb : timer.cb = .timeoutCbDeleteClient) (hpunctual : timer.due ≤ env.now) :
    ∀ m ∈ Run.taken step (serverInit (ipPoolOf n)) es, ∀ time,
      (TrafficAt m h time →
        time + (CLIENT_TIMEOUT_TO_DELETE - CLIENT_EXPAND_TIMEOUT_TIME) ≤ env.now) ∧
      (ConnectAt m h time → time + CLIENT_TIMEOUT_TO_DELETE ≤ env.now) := by
  have hs : s.Timely n (Run.taken step (serverInit (ipPoolOf n)) es) :=
    Run.inv_history (fun _ _ _ _ hs horder hstep => hs.of_step horder hstep)
      { sound := serverInit_sound hmin hmax
        traffic := fun _ hm => nomatch hm
        connect := fun _ hm => nomatch hm
        deadline := fun _ _ _ hc => nomatch hc
        ts_le := fun _ _ _ hc => nomatch hc
        known := fun _ hm => nomatch hm } hrun fun _ _ _ hsplit => inOrder_of_clocked hrun hclock hsplit
  have hc := heap_of_expiring hdeleted
  have hdeadline := hs.deadline h c timer hc htimer hcb
  intro m hm time
  constructor
  · intro hat
    have htime := hs.traffic m hm h c time hc hat
    linarith
  · intro hat
    have htime := hs.connect m hm h c time hc hat
    linarith

/-- A client that connects, is acknowledged, and sends its last packet but one within the hour. -/
def busyClient : List Event :=
  [.arrives (connectDatagram [0x61]) (.inet 192 0 2 1) 0,
    .arrives (connectDoneDatagram (htonl minIp) 0) (.inet 192 0 2 1) (1 / 4),
    .fires 0 (1 / 2),
    .arrives (transOutDatagram 0 (ipv4Header (htonl minIp) 0)) (.inet 192 0 2 1) 3000,
    .arrives (transOutDatagram 0 (ipv4Header (htonl minIp) 0)) (.inet 192 0 2 1) 4000,
    .arrives (transOutDatagram 0 (ipv4Header (htonl minIp) 0)) (.inet 192 0 2 1) 7000]

theorem not_expired_early_busyClient :
    ∃ s c, Run.exec step (serverInit (ipPoolOf 65533)) busyClient = some s ∧
      s.expiring (.fires 0 (4000 + CLIENT_TIMEOUT_TO_DELETE)) = some (0, c) ∧
      ∀ m ∈ Run.taken step (serverInit (ipPoolOf 65533)) busyClient, ∀ time,
        (TrafficAt m 0 time → time + (CLIENT_TIMEOUT_TO_DELETE - CLIENT_EXPAND_TIMEOUT_TIME) ≤
          4000 + CLIENT_TIMEOUT_TO_DELETE) ∧
        (ConnectAt m 0 time → time + CLIENT_TIMEOUT_TO_DELETE ≤ 4000 + CLIENT_TIMEOUT_TO_DELETE) := by
  have hexpires : (Run.exec step (serverInit (ipPoolOf 65533)) busyClient).any (fun s =>
      (s.timers 0).any fun timer =>
        (s.expiring (.fires 0 (4000 + CLIENT_TIMEOUT_TO_DELETE))).any fun d =>
          decide (d.1 = 0 ∧ timer.cb = .timeoutCbDeleteClient ∧
            timer.due ≤ 4000 + CLIENT_TIMEOUT_TO_DELETE)) = true := by
    decide +kernel
  simp only [Option.any_eq_true, decide_eq_true_eq, Prod.exists] at hexpires
  obtain ⟨s, hrun, timer, htimer, h, c, hdeleted, rfl, hcb, hdue⟩ := hexpires
  exact ⟨s, c, hrun, hdeleted, not_expired_early (by decide) le_rfl hrun (by decide +kernel) hdeleted
    htimer hcb hdue⟩

end TunnelServer
