import TunnelServer.Proof.Cleanup
import TunnelServer.Proof.Expiry
import TunnelServer.Proof.Gateway
import TunnelServer.Proof.Leases

/-!
# What runs of the server keep

The results about dialogues, read as results about runs of the server: the requests are the events of the
run, the outputs are what its log shows, and the leases are its records and timers.
-/

namespace TunnelServer

def Event.delivers (cmd : UInt8) (e : Event) : Bool := (e.command cmd).isSome

def Event.readsTun : Event → Bool
  | .tunRead error _ _ => !error
  | _ => false

def Event.isTimer : Event → Bool
  | .timer .. => true
  | _ => false

/-- The client was heard in this event: it connected, or sent a packet with its session id, at the time
that its record says. -/
def Event.HeardFrom (c : Client) (e : Event) : Prop :=
  ∃ ctx env, env.now = c.ts ∧
    ((e.command TUNNEL_CMD_CONNECT = some (ctx, env) ∧ cString ctx.connectGuid = cString c.guid) ∨
      (e.command TUNNEL_CMD_TRANS_OUT = some (ctx, env) ∧ ctx.transoutIp env.cliIp = c.ip ∧
        ctx.transoutSid = c.sid))

def Effect.leaves : Effect → Bool
  | .sendto .. => true
  | .write .. => true
  | _ => false

namespace Server

/-- At this time no timer of a registered client is late by more than `delay`. -/
def Punctual (delay now : ℚ) (s : Server) : Prop :=
  ∀ h c timer, s.clients.Registered h c → s.timers h = some timer → now ≤ timer.due + delay

instance (delay now : ℚ) (s : Server) : Decidable (s.Punctual delay now) :=
  decidable_of_iff
    (∀ entry ∈ s.clients.gClientsIp.entries, (s.clients.heap entry.2).all (fun c =>
      !decide (s.clients.findClient c.ip = some entry.2) ||
        (s.timers entry.2).all fun timer => decide (now ≤ timer.due + delay)) = true) (by
    constructor
    · intro hall h c timer hr htimer
      have hentry := hall (c.ip, h) (HashIndex.mem_of_find hr.2)
      simpa [hr.1, hr.2, htimer] using hentry
    · intro hs entry _
      simp only [Option.all_eq_true, Bool.or_eq_true, Bool.not_eq_true', decide_eq_false_iff_not,
        decide_eq_true_eq]
      intro c hc
      by_cases hfind : s.clients.findClient c.ip = some entry.2
      · exact Or.inr fun timer htimer => hs _ c timer ⟨hc, hfind⟩ htimer
      · exact Or.inl hfind)

variable {n : Nat} {s t : Server} {e : Event} {es : List Event} {L : Leases}

/-! ### The log and the dialogue -/

theorem Outcome.trace_append (hout : s.Outcome e t) : ∃ xs, t.trace = s.trace ++ xs := by
  cases hout with
  | quiet | touch | create => exact ⟨_, rfl⟩
  | lapse | expire => exact ⟨[], (List.append_nil _).symm⟩

theorem trace_of_exec (hmin : 2 ≤ n) (hmax : n ≤ 65533)
    (hrun : Run.exec step (serverInit (ipPoolOf n)) es = some t) :
    t.trace = (Run.taken step (serverInit (ipPoolOf n)) es).flatMap fun m => logged m.1 m.2.2 := by
  let Inv := fun (past : List (Server × Event × Server)) (s : Server) =>
    s.Sound n ∧ s.trace = past.flatMap fun m => logged m.1 m.2.2
  have hkept : ∀ past s e t, Inv past s → True → step s e = some t → Inv (past ++ [(s, e, t)]) t := by
    intro past s e t hs _ hstep
    obtain ⟨hsound, htrace⟩ := hs
    obtain ⟨xs, hxs⟩ := (hsound.step_cases hstep).trace_append
    refine ⟨hsound.of_step hstep, ?_⟩
    rw [List.flatMap_append, List.flatMap_singleton, ← htrace, logged_append hxs, hxs]
  exact (Run.inv_history (C := fun _ _ _ => True) hkept ⟨serverInit_sound hmin hmax, rfl⟩ hrun
    fun _ _ _ _ => trivial).2

theorem output_isSome (x : Effect) : (t.output x).isSome = x.leaves := by
  cases x <;> rfl

theorem countP_leaves (hmin : 2 ≤ n) (hmax : n ≤ 65533)
    (hrun : Run.exec step (serverInit (ipPoolOf n)) es = some t) :
    t.trace.countP Effect.leaves = ((dialogue n es).flatMap Prod.snd).length := by
  rw [trace_of_exec hmin hmax hrun, List.countP_flatMap, List.length_flatMap, dialogue, List.map_map]
  congr 1
  refine List.map_congr_left fun m _ => ?_
  show (logged m.1 m.2.2).countP Effect.leaves = ((logged m.1 m.2.2).filterMap m.2.2.output).length
  rw [List.length_filterMap_eq_countP]
  exact List.countP_congr fun x _ => by rw [output_isSome]

theorem countP_dialogue (hrun : Run.exec step (serverInit (ipPoolOf n)) es = some t)
    {P : Request → Bool} {Q : Event → Bool}
    (hkind : ∀ m ∈ Run.taken step (serverInit (ipPoolOf n)) es, P (m.1.request m.2.1) = Q m.2.1) :
    (dialogue n es).countP (fun p => P p.1) = es.countP Q := by
  rw [dialogue, List.countP_map]
  conv_rhs => rw [← Run.map_event_taken hrun, List.countP_map]
  exact List.countP_congr fun m hm => by
    show P (m.1.request m.2.1) = true ↔ Q m.2.1 = true
    rw [hkind m hm]

/-! ### Which event is which request -/

/-- A request that says where it comes from, connects or relays is a datagram that is delivered. -/
theorem request_delivered (s : Server) (bytes : List UInt8) (src : SockAddr) (env : Env) :
    let ctx := datagramCtx bytes src
    let r := s.request (.socketRead false (some (bytes, src)) env)
    (ctx.cmd = TUNNEL_CMD_CONNECT ∧ r = .connect (cString ctx.connectGuid) src env.now) ∨
      (ctx.cmd = TUNNEL_CMD_CONNECT_DONE ∧ r = .confirm ctx.doneIp) ∨
        (ctx.cmd = TUNNEL_CMD_TRANS_OUT ∧
          r = .packetOut (ctx.transoutIp env.cliIp) ctx.transoutSid ctx.ippackSize
            (ctx.ippack.take ctx.ippackSize.toNat) src env.now) ∨
          (ctx.cmd ≠ TUNNEL_CMD_CONNECT ∧ ctx.cmd ≠ TUNNEL_CMD_TRANS_OUT ∧ r = .other) := by
  intro ctx r
  by_cases hconnect : ctx.cmd = TUNNEL_CMD_CONNECT
  · exact Or.inl ⟨hconnect, if_pos hconnect⟩
  by_cases hdone : ctx.cmd = TUNNEL_CMD_CONNECT_DONE
  · exact Or.inr (Or.inl ⟨hdone, (if_neg hconnect).trans (if_pos hdone)⟩)
  by_cases htrans : ctx.cmd = TUNNEL_CMD_TRANS_OUT
  · exact Or.inr (Or.inr (Or.inl
      ⟨htrans, ((if_neg hconnect).trans (if_neg hdone)).trans (if_pos htrans)⟩))
  · exact Or.inr (Or.inr (Or.inr
      ⟨hconnect, htrans, ((if_neg hconnect).trans (if_neg hdone)).trans (if_neg htrans)⟩))

theorem delivers_datagram {cmd : UInt8} {bytes : List UInt8} {src : SockAddr} {env : Env} :
    (Event.socketRead false (some (bytes, src)) env).delivers cmd =
      decide ((datagramCtx bytes src).cmd = cmd) := by
  show (if (datagramCtx bytes src).cmd = cmd then some (datagramCtx bytes src, env) else none).isSome = _
  split_ifs with h <;> simp [h]

theorem request_cases (s : Server) (e : Event) :
    (∃ bytes src env, e = .socketRead false (some (bytes, src)) env) ∨
      ((s.request e).isConnect = false ∧ (s.request e).isPacketOut = false ∧
        (s.request e).source = none ∧ ∀ cmd, e.delivers cmd = false) := by
  cases e with
  | socketRead error received env =>
      rcases error with _ | _ <;> rcases received with _ | ⟨bytes, src⟩
      · exact Or.inr ⟨rfl, rfl, rfl, fun _ => rfl⟩
      · exact Or.inl ⟨bytes, src, env, rfl⟩
      · exact Or.inr ⟨rfl, rfl, rfl, fun _ => rfl⟩
      · exact Or.inr ⟨rfl, rfl, rfl, fun _ => rfl⟩
  | tunRead error received junk =>
      right
      cases error <;> exact ⟨rfl, rfl, rfl, fun _ => rfl⟩
  | timer w error env =>
      right
      rw [request]
      cases s.guidOf w <;> exact ⟨rfl, rfl, rfl, fun _ => rfl⟩

theorem request_isConnect (s : Server) (e : Event) :
    (s.request e).isConnect = e.delivers TUNNEL_CMD_CONNECT := by
  rcases s.request_cases e with ⟨bytes, src, env, rfl⟩ | ⟨hconnect, -, -, hnone⟩
  · rw [delivers_datagram]
    rcases s.request_delivered bytes src env with
      ⟨hcmd, hr⟩ | ⟨hcmd, hr⟩ | ⟨hcmd, hr⟩ | ⟨hcmd, -, hr⟩ <;> rw [hr]
    · exact (decide_eq_true hcmd).symm
    · exact (decide_eq_false (by rw [hcmd]; decide)).symm
    · exact (decide_eq_false (by rw [hcmd]; decide)).symm
    · exact (decide_eq_false hcmd).symm
  · rw [hconnect, hnone]

theorem request_isPacketOut (s : Server) (e : Event) :
    (s.request e).isPacketOut = e.delivers TUNNEL_CMD_TRANS_OUT := by
  rcases s.request_cases e with ⟨bytes, src, env, rfl⟩ | ⟨-, htrans, -, hnone⟩
  · rw [delivers_datagram]
    rcases s.request_delivered bytes src env with
      ⟨hcmd, hr⟩ | ⟨hcmd, hr⟩ | ⟨hcmd, hr⟩ | ⟨-, hcmd, hr⟩ <;> rw [hr]
    · exact (decide_eq_false (by rw [hcmd]; decide)).symm
    · exact (decide_eq_false (by rw [hcmd]; decide)).symm
    · exact (decide_eq_true hcmd).symm
    · exact (decide_eq_false hcmd).symm
  · rw [htrans, hnone]

theorem request_isPacketIn (s : Server) (e : Event) : (s.request e).isPacketIn = e.readsTun := by
  cases e with
  | socketRead error received env =>
      rcases error with _ | _ <;> rcases received with _ | ⟨bytes, src⟩
      · rfl
      · rcases s.request_delivered bytes src env with
          ⟨-, hr⟩ | ⟨-, hr⟩ | ⟨-, hr⟩ | ⟨-, -, hr⟩ <;> rw [hr] <;> rfl
      · rfl
      · rfl
  | tunRead error received junk => cases error <;> rfl
  | timer w error env =>
      rw [request]
      cases s.guidOf w <;> rfl

theorem request_source {dst : SockAddr} (hsource : (s.request e).source = some dst) :
    ∃ bytes env, e = .socketRead false (some (bytes, dst)) env := by
  rcases s.request_cases e with ⟨bytes, src, env, rfl⟩ | ⟨-, -, hnone, -⟩
  · rcases s.request_delivered bytes src env with
      ⟨-, hr⟩ | ⟨-, hr⟩ | ⟨-, hr⟩ | ⟨-, -, hr⟩ <;> rw [hr] at hsource <;> cases hsource
    · exact ⟨bytes, env, rfl⟩
    · exact ⟨bytes, env, rfl⟩
  · rw [hnone] at hsource
    cases hsource

theorem request_ringing (hs : s.Sound n) (hstep : step s e = some t) :
    (s.request e).ringing.isSome = e.isTimer := by
  cases e with
  | socketRead error received env =>
      rcases error with _ | _ <;> rcases received with _ | ⟨bytes, src⟩
      · rfl
      · rcases s.request_delivered bytes src env with
          ⟨-, hr⟩ | ⟨-, hr⟩ | ⟨-, hr⟩ | ⟨-, -, hr⟩ <;> rw [hr] <;> rfl
      · rfl
      · rfl
  | tunRead error received junk => cases error <;> rfl
  | timer w error env =>
      obtain ⟨timer, c, -, hr, -⟩ := hs.firing_cases hstep
      rw [request_timer hr.1]
      rfl

theorem request_time {now : ℚ} (htime : (s.request e).time = some now) : e.time = some now := by
  cases e with
  | socketRead error received env =>
      rcases error with _ | _ <;> rcases received with _ | ⟨bytes, src⟩
      · cases htime
      · rcases s.request_delivered bytes src env with
          ⟨-, hr⟩ | ⟨-, hr⟩ | ⟨-, hr⟩ | ⟨-, -, hr⟩ <;> rw [hr] at htime <;> cases htime <;> rfl
      · cases htime
      · cases htime
  | tunRead error received junk => cases error <;> cases htime
  | timer w error env =>
      rw [request] at htime
      cases hguid : s.guidOf w <;> rw [hguid] at htime <;> cases htime
      rfl

/-! ### Leases that run out -/

theorem Models.onTime (hm : s.Models L) (hs : s.Sound n) {delay : ℚ}
    (hpunctual : ∀ now, e.time = some now → s.Punctual delay now) : L.OnTime delay (s.request e) := by
  intro now hnow g l alarm hl halarm
  obtain ⟨h, c, hr, -, rfl⟩ := (hm.lease_eq_some hs.agree).1 hl
  exact hpunctual now (request_time hnow) h c alarm hr halarm

theorem request_ne_error (herror : e.NoTimerError) (s : Server) (g : List UInt8) (now : ℚ) :
    s.request e ≠ .alarm g true now := by
  intro halarm
  cases e with
  | socketRead error received env =>
      rcases error with _ | _ <;> rcases received with _ | ⟨bytes, src⟩
      · cases halarm
      · rcases s.request_delivered bytes src env with
          ⟨-, hr⟩ | ⟨-, hr⟩ | ⟨-, hr⟩ | ⟨-, -, hr⟩ <;> rw [hr] at halarm <;> cases halarm
      · cases halarm
      · cases halarm
  | tunRead error received junk => cases error <;> cases halarm
  | timer w error env =>
      rw [request] at halarm
      cases hguid : s.guidOf w <;> rw [hguid] at halarm <;> cases halarm
      exact herror w env rfl

/-- After a run without errors, in which no timer is late by more than `delay`, all leases are
running. -/
theorem running_of_exec (hmin : 2 ≤ n) (hmax : n ≤ 65533)
    (hrun : Run.exec step (serverInit (ipPoolOf n)) es = some t) {delay : ℚ} (hdelay : 0 ≤ delay)
    (hshort : handshakeTime delay ≤ CLIENT_EXPAND_TIMEOUT_TIME)
    (hpunctual : ∀ m ∈ Run.taken step (serverInit (ipPoolOf n)) es, ∀ now, m.2.1.time = some now →
      m.1.Punctual delay now) (herror : ∀ e ∈ es, e.NoTimerError) :
    t.Sound n ∧ ∃ L, t.Models L ∧ ∀ g l, L.lease g = some l → l.Running delay (dialogue n es) g := by
  let Inv := fun (past : List (Server × Event × Server)) (s : Server) =>
    s.Sound n ∧ ∃ L, s.Models L ∧ ∀ g l, L.lease g = some l → l.Running delay (past.map exchange) g
  let OnTime := fun (_ : List (Server × Event × Server)) (s : Server) (e : Event) =>
    (∀ now, e.time = some now → s.Punctual delay now) ∧ e.NoTimerError
  have hinit : Inv [] (serverInit (ipPoolOf n)) :=
    ⟨serverInit_sound hmin hmax, .empty, models_serverInit n, fun _ _ hl => nomatch hl⟩
  have hkept : ∀ past s e t, Inv past s → OnTime past s e → step s e = some t →
      Inv (past ++ [(s, e, t)]) t := by
    intro past s e t hs hontime hstep
    obtain ⟨hsound, L, hm, hrunning⟩ := hs
    obtain ⟨hpunctual, herror⟩ := hontime
    obtain ⟨M, htm, hserves⟩ := serves hm hsound hstep
    refine ⟨hsound.of_step hstep, M, htm, ?_⟩
    rw [List.map_append]
    exact hserves.running hrunning hdelay hshort (hm.onTime hsound hpunctual)
      fun g now => request_ne_error herror s g now
  refine Run.inv_history hkept hinit hrun fun past m rest hsplit => ?_
  have hmem : m ∈ Run.taken step (serverInit (ipPoolOf n)) es := by
    rw [hsplit]
    exact List.mem_append_right _ List.mem_cons_self
  refine ⟨hpunctual m hmem, herror _ ?_⟩
  rw [← Run.map_event_taken hrun]
  exact List.mem_map_of_mem hmem

theorem heardFrom_of_connectedAt (hrun : Run.exec step (serverInit (ipPoolOf n)) es = some t)
    {c : Client} (hconnected : ConnectedAt (dialogue n es) (cString c.guid) c.ts) :
    ∃ e ∈ es, e.delivers TUNNEL_CMD_CONNECT ∧ e.HeardFrom c := by
  obtain ⟨p, hp, src, hr⟩ := hconnected
  obtain ⟨m, hm, rfl⟩ := List.mem_map.1 hp
  have hmem : m.2.1 ∈ es := by
    rw [← Run.map_event_taken hrun]
    exact List.mem_map_of_mem hm
  have hdelivers := m.1.request_isConnect m.2.1
  rw [show m.1.request m.2.1 = .connect (cString c.guid) src c.ts from hr] at hdelivers
  obtain ⟨⟨ctx, env⟩, hcmd⟩ := Option.isSome_iff_exists.1 hdelivers.symm
  have hconnect := (request_connect (s := m.1) hcmd).symm.trans hr
  rw [Request.connect.injEq] at hconnect
  obtain ⟨hguid, -, hts⟩ := hconnect
  exact ⟨m.2.1, hmem, hdelivers.symm, ctx, env, hts, Or.inl ⟨hcmd, hguid⟩⟩

theorem heardFrom_of_heardAt (hrun : Run.exec step (serverInit (ipPoolOf n)) es = some t)
    {c : Client} {alarm : Option Timer}
    (hheard : HeardAt (dialogue n es) (cString c.guid) (c.lease alarm) c.ts) :
    ∃ e ∈ es, e.HeardFrom c := by
  rcases hheard with hconnected | ⟨p, hp, count, packet, src, hr⟩
  · obtain ⟨e, he, -, hfrom⟩ := heardFrom_of_connectedAt hrun hconnected
    exact ⟨e, he, hfrom⟩
  · obtain ⟨m, hm, rfl⟩ := List.mem_map.1 hp
    have hmem : m.2.1 ∈ es := by
      rw [← Run.map_event_taken hrun]
      exact List.mem_map_of_mem hm
    have hdelivers := m.1.request_isPacketOut m.2.1
    rw [show m.1.request m.2.1 = .packetOut c.ip c.sid count packet src c.ts from hr] at hdelivers
    obtain ⟨⟨ctx, env⟩, hcmd⟩ := Option.isSome_iff_exists.1 hdelivers.symm
    have hpacket := (request_transOut (s := m.1) hcmd).symm.trans hr
    rw [Request.packetOut.injEq] at hpacket
    obtain ⟨hip, hsid, -, -, -, hts⟩ := hpacket
    exact ⟨m.2.1, hmem, ctx, env, hts, Or.inr ⟨hcmd, hip, hsid⟩⟩

end Server

open Server

/-- The server sends datagrams to nobody but those whose datagrams it has received. -/
theorem sends_only_to_senders {n : Nat} (hmin : 2 ≤ n) (hmax : n ≤ 65533) (es : List Event)
    (t : Server) (hrun : Run.exec step (serverInit (ipPoolOf n)) es = some t)
    (cli : Option Handle) (dst : SockAddr) (packet : List UInt8)
    (hsent : Effect.sendto cli dst packet ∈ t.trace) :
    ∃ bytes env, Event.socketRead false (some (bytes, dst)) env ∈ es := by
  obtain ⟨-, L, hserved, -⟩ := served_of_exec hmin hmax hrun
  rw [trace_of_exec hmin hmax hrun, List.mem_flatMap] at hsent
  obtain ⟨m, hm, hlogged⟩ := hsent
  have hout : Output.datagram (cli.bind m.2.2.guidOf) dst packet ∈ (exchange m).2 :=
    List.mem_filterMap.2 ⟨_, hlogged, rfl⟩
  have hsource := hserved.to_sources.2 (exchange m) (List.mem_map_of_mem hm) _ _ _ hout
  obtain ⟨p, hp, hpsource⟩ := List.mem_filterMap.1 hsource
  obtain ⟨m', hm', rfl⟩ := List.mem_map.1 hp
  obtain ⟨bytes, env, hevent⟩ := request_source hpsource
  refine ⟨bytes, env, ?_⟩
  rw [← Run.map_event_taken hrun, ← hevent]
  exact List.mem_map_of_mem hm'

theorem sends_only_to_senders_comingAndGoing :
    ∃ t packet, Run.exec step (serverInit (ipPoolOf 65533)) comingAndGoing = some t ∧
      Effect.sendto (some 1) (.inet 192 0 2 2) packet ∈ t.trace ∧
      ∃ bytes env, Event.socketRead false (some (bytes, .inet 192 0 2 2)) env ∈ comingAndGoing := by
  obtain ⟨packet, hpacket⟩ : ∃ packet, packet = TunnelConnectOkDone.bytes
    { ver := TUNNEL_VERSION, cmd := TUNNEL_CMD_CONNECT_OK, ip := htonl (minIp + 1), sid := 0 } := ⟨_, rfl⟩
  have hsent : (Run.exec step (serverInit (ipPoolOf 65533)) comingAndGoing).any (fun t =>
      decide (Effect.sendto (some 1) (.inet 192 0 2 2) packet ∈ t.trace)) = true := by
    rw [hpacket]
    decide +kernel
  obtain ⟨t, hrun, hmem⟩ := (Option.any_eq_true _ _).1 hsent
  exact ⟨t, packet, hrun, of_decide_eq_true hmem,
    sends_only_to_senders (by decide) le_rfl comingAndGoing t hrun _ _ packet (of_decide_eq_true hmem)⟩

/-- At most eleven datagrams leave the server for a CONNECT, and one datagram or packet for a trans-out
datagram or a read of the tun device. -/
theorem traffic_bounded {n : Nat} (hmin : 2 ≤ n) (hmax : n ≤ 65533) (es : List Event) (t : Server)
    (hrun : Run.exec step (serverInit (ipPoolOf n)) es = some t) :
    t.trace.countP Effect.leaves ≤
      (SERVER_MAX_RESEND_COUNT.toNat + 1) * es.countP (Event.delivers TUNNEL_CMD_CONNECT) +
        (es.countP (Event.delivers TUNNEL_CMD_TRANS_OUT) + es.countP Event.readsTun) := by
  obtain ⟨-, L, hserved, -⟩ := served_of_exec hmin hmax hrun
  rw [countP_leaves hmin hmax hrun, ← countP_dialogue hrun fun m _ => m.1.request_isConnect m.2.1,
    ← countP_dialogue hrun fun m _ => m.1.request_isPacketOut m.2.1,
    ← countP_dialogue hrun fun m _ => m.1.request_isPacketIn m.2.1]
  exact hserved.outputs_le

theorem traffic_bounded_comingAndGoing :
    ∃ t, Run.exec step (serverInit (ipPoolOf 65533)) comingAndGoing = some t ∧
      t.trace.countP Effect.leaves ≤ 11 * 3 + (0 + 0) := by
  obtain ⟨t, hrun⟩ := Option.isSome_iff_exists.1 comingAndGoing_runs
  exact ⟨t, hrun, traffic_bounded (by decide) le_rfl comingAndGoing t hrun⟩

/-- Timers fire at most twelve times for a CONNECT and once for a trans-out datagram. -/
theorem timers_run_down {n : Nat} (hmin : 2 ≤ n) (hmax : n ≤ 65533) (es : List Event) (t : Server)
    (hrun : Run.exec step (serverInit (ipPoolOf n)) es = some t) :
    es.countP Event.isTimer ≤
      (SERVER_MAX_RESEND_COUNT.toNat + 2) * es.countP (Event.delivers TUNNEL_CMD_CONNECT) +
        es.countP (Event.delivers TUNNEL_CMD_TRANS_OUT) := by
  obtain ⟨-, L, hserved, -⟩ := served_of_exec hmin hmax hrun
  rw [← countP_dialogue hrun fun m _ => m.1.request_isConnect m.2.1,
    ← countP_dialogue hrun fun m _ => m.1.request_isPacketOut m.2.1,
    ← countP_dialogue (P := fun r => r.ringing.isSome) hrun fun m hm => ?_]
  · exact hserved.alarms_le
  · obtain ⟨hfrom, hstep, -⟩ := Run.of_mem_taken hm
    exact request_ringing (sound_of_mem_visited hmin hmax hfrom) hstep

theorem timers_run_down_comingAndGoing :
    ∃ t, Run.exec step (serverInit (ipPoolOf 65533)) comingAndGoing = some t ∧
      comingAndGoing.countP Event.isTimer ≤ 12 * 3 + 0 := by
  obtain ⟨t, hrun⟩ := Option.isSome_iff_exists.1 comingAndGoing_runs
  exact ⟨t, hrun, timers_run_down (by decide) le_rfl comingAndGoing t hrun⟩

/-- Let timers run without errors and late by no more than `delay`, so that a handshake takes no more
than `CLIENT_EXPAND_TIMEOUT_TIME`. A registered client has then been heard at the time in its record, no
longer ago than a handshake and `CLIENT_TIMEOUT_TO_DELETE`; and one that has not acknowledged its address
has connected no longer ago than a handshake. -/
theorem silent_clients_leave {n : Nat} (hmin : 2 ≤ n) (hmax : n ≤ 65533) {es : List Event} {t : Server}
    (hrun : Run.exec step (serverInit (ipPoolOf n)) es = some t) {delay : ℚ} (hdelay : 0 ≤ delay)
    (hshort : handshakeTime delay ≤ CLIENT_EXPAND_TIMEOUT_TIME)
    (hpunctual : ∀ m ∈ Run.taken step (serverInit (ipPoolOf n)) es, ∀ now, m.2.1.time = some now →
      m.1.Punctual delay now) (herror : ∀ e ∈ es, e.NoTimerError) {now : ℚ}
    (hnow : t.Punctual delay now) {h : Handle} {c : Client} (hr : t.clients.Registered h c) :
    (∃ e ∈ es, e.HeardFrom c) ∧
      now ≤ c.ts + handshakeTime delay + CLIENT_TIMEOUT_TO_DELETE + delay ∧
      (c.state = .connect →
        (∃ e ∈ es, e.delivers TUNNEL_CMD_CONNECT ∧ e.HeardFrom c) ∧
          now ≤ c.ts + handshakeTime delay) := by
  obtain ⟨hsound, L, hm, hall⟩ := running_of_exec hmin hmax hrun hdelay hshort hpunctual herror
  have hrunning := hall _ _ (hm.lease_of_registered hsound.agree hr)
  obtain ⟨alarm, halarm, -⟩ := hrunning.alarm
  obtain ⟨hlong, hhandshake⟩ := hrunning.due_le hdelay halarm
  have hlate := hnow h c alarm hr halarm
  refine ⟨heardFrom_of_heardAt hrun hrunning.heard, ?_, fun hstate => ⟨?_, ?_⟩⟩
  · exact hlate.trans (add_le_add_left hlong delay)
  · exact heardFrom_of_connectedAt hrun (hrunning.connected hstate)
  · exact hlate.trans (hhandshake (Or.inr hstate))

theorem silent_clients_leave_busyClient :
    ∃ t c, Run.exec step (serverInit (ipPoolOf 65533)) busyClient = some t ∧
      t.clients.Registered 0 c ∧ (∃ e ∈ busyClient, e.HeardFrom c) ∧
      7000 ≤ c.ts + handshakeTime 1 + CLIENT_TIMEOUT_TO_DELETE + 1 ∧
      (c.state = .connect →
        (∃ e ∈ busyClient, e.delivers TUNNEL_CMD_CONNECT ∧ e.HeardFrom c) ∧
          7000 ≤ c.ts + handshakeTime 1) := by
  have hpunctual : ∀ m ∈ Run.taken step (serverInit (ipPoolOf 65533)) busyClient,
      ∀ now ∈ m.2.1.time, m.1.Punctual 1 now := by decide +kernel
  have hend : (Run.exec step (serverInit (ipPoolOf 65533)) busyClient).any (fun t =>
      decide ((∃ c, t.clients.Registered 0 c) ∧ t.Punctual 1 7000)) = true := by decide +kernel
  obtain ⟨t, hrun, ht⟩ := (Option.any_eq_true _ _).1 hend
  obtain ⟨⟨c, hr⟩, hnow⟩ := of_decide_eq_true ht
  have hshort : handshakeTime 1 ≤ CLIENT_EXPAND_TIMEOUT_TIME := by decide +kernel
  exact ⟨t, c, hrun, hr, silent_clients_leave (by decide) le_rfl hrun (by decide) hshort hpunctual
    (by decide) hnow hr⟩

end TunnelServer
