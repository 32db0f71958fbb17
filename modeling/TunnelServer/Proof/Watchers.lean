import TunnelServer.Proof.Handshake

/-!
# The typestate of a watcher

libev lets a program stop and start only a watcher it has initialised, and initialise only one that is
not active. Every path through the handlers keeps to that but one: the end of `server_on_connect` stops
the watcher first, and a new client's watcher is still what `malloc` returned.
-/

namespace TunnelServer

/-- What libev makes of a watcher: memory nobody initialised, initialised, or in its heap of timers. -/
inductive WatcherState
  | raw
  | idle
  | active
deriving DecidableEq

inductive WatcherCall
  | stop
  | init
  | start
deriving DecidableEq

def WatcherState.call : WatcherState → WatcherCall → Option WatcherState
  | .raw, .init | .idle, .init => some .idle
  | .idle, .stop | .active, .stop => some .idle
  | .idle, .start | .active, .start => some .active
  | .raw, .stop | .raw, .start | .active, .init => none

theorem WatcherState.restart {w : WatcherState} (h : w ≠ .raw) :
    Run.exec call w [.stop, .init, .start] = some .active := by
  cases w with
  | raw => exact absurd rfl h
  | idle | active => rfl

def Effect.watcherCall (h : Handle) : Effect → Option WatcherCall
  | .evTimerStop k => if k = h then some .stop else none
  | .evTimerInit k _ => if k = h then some .init else none
  | .evTimerStart k => if k = h then some .start else none
  | _ => none

def watcherCalls (h : Handle) (trace : List Effect) : List WatcherCall :=
  trace.filterMap (Effect.watcherCall h)

def Event.firing : Event → Option Handle
  | .timer w _ _ => some w
  | _ => none

namespace Server

open ClientTable

/-- The watcher of a client as the handler of an event finds it. It is active when its timer is, unless
it is the one that fires; a record that does not exist yet comes from `malloc`. -/
def watcherBefore (s : Server) (e : Event) (h : Handle) : WatcherState :=
  match s.clients.heap h with
  | none => .raw
  | some c =>
    if c.timeoutWatcher.init.isNone then .raw
    else if (s.timers h).isSome ∧ e.firing ≠ some h then .active
    else .idle

/-- The calls a step makes on the watcher of a client are allowed, one after the other. -/
def WatcherRespected (m : Server × Event × Server) (h : Handle) : Prop :=
  (Run.exec WatcherState.call (m.1.watcherBefore m.2.1 h) (watcherCalls h (logged m.1 m.2.2))).isSome

/-- The event is a CONNECT from a GUID that is not registered, and `h` is the record it will get. -/
def Creates (m : Server × Event) (h : Handle) : Prop :=
  h = m.1.clients.brk ∧ ∃ ctx env, m.2.command TUNNEL_CMD_CONNECT = some (ctx, env) ∧
    m.1.clients.findClientByGuid ctx.connectGuid = none

variable {n : Nat} {s t : Server} {e : Event} {h k : Handle} {c c' : Client}

/-! ### The calls in a log -/

theorem watcherCalls_append (h : Handle) (xs ys : List Effect) :
    watcherCalls h (xs ++ ys) = watcherCalls h xs ++ watcherCalls h ys :=
  List.filterMap_append

theorem watcherCalls_sent {xs : List Effect}
    (hsent : ∀ x ∈ xs, ∃ cli dst packet, x = .sendto cli dst packet) : watcherCalls h xs = [] := by
  rw [watcherCalls, List.filterMap_eq_nil_iff]
  intro x hx
  obtain ⟨cli, dst, packet, rfl⟩ := hsent x hx
  rfl

theorem watcherCalls_tunEffects (h : Handle) (ctx : ServerCtx) : watcherCalls h (tunEffects ctx) = [] := by
  unfold tunEffects
  split <;> rfl

theorem watcherCalls_arm (h k : Handle) (cb : TimerCb) {sent : List Effect}
    (hsent : ∀ x ∈ sent, ∃ cli dst packet, x = .sendto cli dst packet) :
    watcherCalls h (sent ++ [.evTimerInit k cb, .evTimerStart k]) =
      if k = h then [.init, .start] else [] := by
  rw [watcherCalls_append, watcherCalls_sent hsent]
  by_cases heq : k = h <;> simp [watcherCalls, Effect.watcherCall, heq]

theorem watcherCalls_restart (h k : Handle) (cb : TimerCb) {sent : List Effect}
    (hsent : ∀ x ∈ sent, ∃ cli dst packet, x = .sendto cli dst packet) :
    watcherCalls h (.evTimerStop k :: (sent ++ [.evTimerInit k cb, .evTimerStart k])) =
      if k = h then [.stop, .init, .start] else [] := by
  rw [← List.singleton_append, watcherCalls_append, watcherCalls_arm h k cb hsent]
  by_cases heq : k = h <;> simp [watcherCalls, Effect.watcherCall, heq]

theorem sent_nil : ∀ x ∈ ([] : List Effect), ∃ cli dst packet, x = .sendto cli dst packet :=
  fun _ hx => nomatch hx

theorem sent_singleton (cli : Option Handle) (dst : SockAddr) (packet : List UInt8) :
    ∀ x ∈ [Effect.sendto cli dst packet], ∃ cli dst packet, x = .sendto cli dst packet :=
  fun _ hx => ⟨_, _, _, List.mem_singleton.1 hx⟩

/-! ### Every live record has been initialised -/

structure Initialised (n : Nat) (s : Server) : Prop where
  sound : s.Sound n
  init : ∀ h c, s.clients.heap h = some c → c.timeoutWatcher.init ≠ none

theorem serverInit_initialised (hmin : 2 ≤ n) (hmax : n ≤ 65533) :
    (serverInit (ipPoolOf n)).Initialised n :=
  ⟨serverInit_sound hmin hmax, fun _ _ hc => nomatch hc⟩

theorem Touch.init {timer : Option Timer} {xs : List Effect} (htouch : s.Touch h c e c' timer xs)
    (hinit : c.timeoutWatcher.init ≠ none) : c'.timeoutWatcher.init ≠ none := by
  cases htouch with
  | reconnect | refresh | resend | settle => exact Option.some_ne_none _
  | connectDone | traffic => exact hinit

theorem Initialised.of_step (hs : s.Initialised n) (hstep : step s e = some t) : t.Initialised n := by
  refine ⟨hs.sound.of_step hstep, fun h c hc => ?_⟩
  rcases (hs.sound.step_cases hstep).heap_cases hs.sound.agree hc with
    ⟨-, ctx, env, m, -, rfl⟩ | ⟨d, timer, xs, hr, htouch⟩ | hsame
  · exact Option.some_ne_none _
  · exact htouch.init (hs.init h d hr.1)
  · exact hs.init h c hsame

theorem Initialised.watcherBefore_ne_raw (hs : s.Initialised n) (hc : s.clients.heap h = some c) :
    s.watcherBefore e h ≠ .raw := by
  have hinit := hs.init h c hc
  simp only [watcherBefore, hc, Option.isNone_iff_eq_none, hinit, if_false]
  split_ifs <;> exact nofun

theorem Initialised.watcherBefore_fires (hs : s.Initialised n) (hc : s.clients.heap h = some c)
    {error : Bool} {env : Env} : s.watcherBefore (.timer h error env) h = .idle := by
  have hinit := hs.init h c hc
  simp [watcherBefore, hc, hinit, Event.firing]

/-! ### One step -/

theorem respected_of_no_calls {xs : List Effect} (htrace : t.trace = s.trace ++ xs)
    (hnone : watcherCalls h xs = []) : WatcherRespected (s, e, t) h := by
  rw [WatcherRespected, logged_append htrace, hnone]
  rfl

/-- A touched client's watcher is given another callback, or its own handler arms it again. -/
theorem Initialised.touch_calls (hs : s.Initialised n) (hr : s.clients.Registered k c)
    {timer : Option Timer} {xs : List Effect} (htouch : s.Touch k c e c' timer xs) (h : Handle) :
    (Run.exec WatcherState.call (s.watcherBefore e h) (watcherCalls h xs)).isSome := by
  have hrestart : watcherCalls h xs = (if k = h then [.stop, .init, .start] else []) →
      (Run.exec WatcherState.call (s.watcherBefore e h) (watcherCalls h xs)).isSome := by
    intro hcalls
    rw [hcalls]
    split_ifs with heq
    · subst heq
      rw [WatcherState.restart (hs.watcherBefore_ne_raw hr.1)]
      rfl
    · rfl
  cases htouch with
  | reconnect =>
      exact hrestart (watcherCalls_restart h k .timeoutCb (sent_singleton _ _ _))
  | connectDone => rfl
  | traffic =>
      rw [watcherCalls_tunEffects]
      rfl
  | refresh =>
      refine hrestart ?_
      rw [watcherCalls_append, watcherCalls_tunEffects]
      exact watcherCalls_restart h k .timeoutCbDeleteClient sent_nil
  | resend hevent =>
      subst hevent
      have hcalls := watcherCalls_arm h k .timeoutCb (sent_singleton (some k) c.srcAddr c.connectOk)
      rw [List.singleton_append] at hcalls
      rw [hcalls]
      split_ifs with heq
      · subst heq
        rw [hs.watcherBefore_fires hr.1]
        rfl
      · rfl
  | settle =>
      exact hrestart (watcherCalls_restart h k .timeoutCbDeleteClient sent_nil)

/-- A step keeps to the typestate of a watcher, except that it stops the watcher of a record it has just
created. -/
theorem Initialised.watcherRespected_iff (hs : s.Initialised n) (hstep : step s e = some t) (h : Handle) :
    WatcherRespected (s, e, t) h ↔ ¬ Creates (s, e) h := by
  by_cases hnew : ∃ ctx env, e.command TUNNEL_CMD_CONNECT = some (ctx, env) ∧
      s.clients.findClientByGuid ctx.connectGuid = none
  · obtain ⟨ctx, env, hcmd, hfind⟩ := hnew
    obtain ⟨-, ⟨k, c, ctx', hknown, -⟩ | ⟨m, ctx', -, -, rfl⟩⟩ := hs.sound.connect_cases hcmd hstep
    · rw [hfind] at hknown
      cases hknown
    · have hcalls := watcherCalls_restart h s.clients.brk .timeoutCb
        (sent_singleton (some s.clients.brk) ctx.srcAddr (s.freshClient ctx m).connectOk)
      rw [List.singleton_append] at hcalls
      rw [WatcherRespected, logged_append rfl, ← List.singleton_append, watcherCalls_append, hcalls]
      by_cases heq : s.clients.brk = h
      · have hraw : s.watcherBefore e h = .raw := by
          have hfree : s.clients.heap h = none := by
            rw [Option.eq_none_iff_forall_ne_some]
            intro c hc
            exact hs.sound.agree.heap_ne_brk hc heq.symm
          rw [watcherBefore, hfree]
        have hcreates : Creates (s, e) h := ⟨heq.symm, ctx, env, hcmd, hfind⟩
        rw [if_pos heq, hraw]
        exact iff_of_false (fun hallowed => nomatch hallowed) fun hnot => hnot hcreates
      · have hnot : ¬ Creates (s, e) h := fun hcreates => heq hcreates.1.symm
        rw [if_neg heq]
        exact iff_of_true rfl hnot
  · have hnot : ¬ Creates (s, e) h := fun hcreates => hnew hcreates.2
    refine iff_of_true ?_ hnot
    cases hs.sound.step_cases hstep with
    | quiet ctx xs _ _ hsent =>
        exact respected_of_no_calls rfl (watcherCalls_sent hsent)
    | lapse | expire => exact respected_of_no_calls (List.append_nil _).symm rfl
    | touch ctx hr htouch =>
        rw [WatcherRespected, logged_append rfl]
        exact hs.touch_calls hr htouch h
    | create ctx' hcmd _ hfind => exact absurd ⟨_, _, hcmd, hfind⟩ hnew

end Server

open Server

/-- In every step of every run the calls on a client's watcher are allowed, exactly when the step is not
the CONNECT that creates this client's record. -/
theorem watcher_respected_iff {n : Nat} (hmin : 2 ≤ n) (hmax : n ≤ 65533) (es : List Event) :
    ∀ m ∈ Run.taken step (serverInit (ipPoolOf n)) es, ∀ h,
      WatcherRespected m h ↔ ¬ Creates (m.1, m.2.1) h := by
  have hinit : ∀ s ∈ Run.visited step (serverInit (ipPoolOf n)) es, s.Initialised n :=
    Run.forall_visited (fun _ _ _ hs hstep => hs.of_step hstep) (serverInit_initialised hmin hmax) es
  intro m hm h
  obtain ⟨hfrom, hstep, -⟩ := Run.of_mem_taken hm
  exact (hinit m.1 hfrom).watcherRespected_iff hstep h

theorem watcher_respected_iff_reconnect :
    ∃ s t, step (serverInit (ipPoolOf 65533)) firstConnect = some s ∧ step s firstConnect = some t ∧
      (WatcherRespected (s, firstConnect, t) 0 ↔ ¬ Creates (s, firstConnect) 0) := by
  have hruns : (step (serverInit (ipPoolOf 65533)) firstConnect).any
      (fun s => (step s firstConnect).isSome) = true := by decide +kernel
  obtain ⟨s, hstep, hsome⟩ := (Option.any_eq_true _ _).1 hruns
  obtain ⟨t, hagain⟩ := Option.isSome_iff_exists.1 hsome
  refine ⟨s, t, hstep, hagain, ?_⟩
  have hmem : (s, firstConnect, t) ∈
      Run.taken step (serverInit (ipPoolOf 65533)) [firstConnect, firstConnect] := by
    rw [Run.taken_cons_some hstep, Run.taken_cons_some hagain]
    exact List.mem_cons_of_mem _ List.mem_cons_self
  exact watcher_respected_iff (by decide) le_rfl _ _ hmem 0

/-- The first client that connects has its watcher stopped before it is initialised. -/
theorem first_connect_stops_raw_watcher :
    ¬ ∀ m ∈ Run.taken step (serverInit serverIpInit) [firstConnect], ∀ h, WatcherRespected m h := by
  have hstops : (step (serverInit serverIpInit) firstConnect).any (fun t =>
      decide (Run.exec WatcherState.call ((serverInit serverIpInit).watcherBefore firstConnect 0)
        (watcherCalls 0 (logged (serverInit serverIpInit) t)) = none)) = true := by
    decide +kernel
  obtain ⟨t, hstep, hnone⟩ := (Option.any_eq_true _ _).1 hstops
  intro hall
  rw [Run.taken_cons_some hstep] at hall
  have hrespected := hall _ List.mem_cons_self 0
  rw [WatcherRespected, of_decide_eq_true hnone] at hrespected
  cases hrespected

end TunnelServer
