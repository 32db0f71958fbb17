import TunnelServer.Proof.Handshake

/-!
# One client, one address, one session id

From its registration to its removal a client keeps its keys and its session id, and every CONNECT_OK
sent for it carries them. A repeated CONNECT only sends one more, and the acknowledgement of any of
them reaches the client it was sent for.
-/

namespace TunnelServer

namespace Server

open ClientTable

variable {n : Nat} {s t : Server} {e : Event} {h k : Handle} {c c' : Client}

/-! ### The keys of a registered client -/

theorem Sound.brk_le_of_step (hs : s.Sound n) (hstep : step s e = some t) :
    s.clients.brk ≤ t.clients.brk := by
  cases hs.step_cases hstep with
  | quiet | lapse | touch | expire => exact Nat.le_refl _
  | create =>
      show s.clients.brk ≤ (s.clients.enroll _).brk
      rw [enroll_brk]
      exact Nat.le_succ _

theorem Sound.registered_before (hs : s.Sound n) (hstep : step s e = some t)
    (hold : h < s.clients.brk) (hr : t.clients.Registered h c') :
    ∃ c, s.clients.Registered h c ∧ c'.guid = c.guid ∧ c'.ip = c.ip ∧ c'.sid = c.sid := by
  rcases (hs.step_cases hstep).heap_cases hs.agree hr.1 with
    ⟨hbrk, -⟩ | ⟨c, timer, xs, hr', htouch⟩ | hsame
  · exact absurd hbrk (Nat.ne_of_lt hold)
  · exact ⟨c, hr', htouch.keys⟩
  · exact ⟨c', hs.registered h c' hsame, rfl, rfl, rfl⟩

/-- Over a whole run. A handle is not used twice, so the client was registered all the time. -/
theorem Sound.keys_of_exec (hs : s.Sound n) {fs : List Event} (hrun : Run.exec step s fs = some t)
    (hr : s.clients.Registered h c) (hr' : t.clients.Registered h c') :
    c'.guid = c.guid ∧ c'.ip = c.ip ∧ c'.sid = c.sid := by
  have hback : ∃ d, s.clients.Registered h d ∧ c'.guid = d.guid ∧ c'.ip = d.ip ∧ c'.sid = d.sid := by
    have hold := hs.agree.heap_lt h c hr.1
    clear hr
    induction fs generalizing s with
    | nil =>
        cases Option.some.inj hrun
        exact ⟨c', hr', rfl, rfl, rfl⟩
    | cons e fs ih =>
        rw [Run.exec_cons, Option.bind_eq_some_iff] at hrun
        obtain ⟨u, hstep, hrun⟩ := hrun
        obtain ⟨d, hd, hguid, hip, hsid⟩ := ih (hs.of_step hstep) hrun
          (Nat.lt_of_lt_of_le hold (hs.brk_le_of_step hstep))
        obtain ⟨d', hd', hguid', hip', hsid'⟩ := hs.registered_before hstep hold hd
        exact ⟨d', hd', hguid.trans hguid', hip.trans hip', hsid.trans hsid'⟩
  obtain ⟨d, hd, hkeys⟩ := hback
  rwa [Agree.registered_unique hr hd]

/-! ### The CONNECT_OK datagrams sent for a client -/

/-- Every CONNECT_OK in the log was sent for a client with the keys that were in it. -/
structure Announced (n : Nat) (s : Server) : Prop where
  sound : s.Sound n
  own : ∀ h c, s.clients.Registered h c → ∀ packet ∈ connectOks h s.trace, packet = c.connectOk
  fresh : ∀ h, s.clients.brk ≤ h → connectOks h s.trace = []

theorem serverInit_announced (hmin : 2 ≤ n) (hmax : n ≤ 65533) :
    (serverInit (ipPoolOf n)).Announced n where
  sound := serverInit_sound hmin hmax
  own := fun _ _ _ _ hmem => nomatch hmem
  fresh := fun _ _ => rfl

theorem Announced.of_step (hs : s.Announced n) (hstep : step s e = some t) : t.Announced n := by
  have ht := hs.sound.of_step hstep
  refine ⟨ht, fun h c hr => ?_, fun h hle => ?_⟩
  · have hold : ∀ packet ∈ connectOks h s.trace, packet = c.connectOk := by
      intro packet hmem
      by_cases hlt : h < s.clients.brk
      · obtain ⟨d, hd, -, hip, hsid⟩ := hs.sound.registered_before hstep hlt hr
        rw [hs.own h d hd packet hmem, connectOk_congr hip hsid]
      · rw [hs.fresh h (Nat.le_of_not_lt hlt)] at hmem
        cases hmem
    rcases hs.sound.sent_cases hstep h with hsame | ⟨d, hd, hsent, -⟩
    · rw [hsame]
      exact hold
    · intro packet hmem
      rw [hsent, List.mem_append, List.mem_singleton] at hmem
      rcases hmem with hmem | rfl
      · exact hold packet hmem
      · rw [Agree.registered_unique hd hr]
  · rcases hs.sound.sent_cases hstep h with hsame | ⟨d, hd, -⟩
    · rw [hsame]
      exact hs.fresh h (Nat.le_trans (hs.sound.brk_le_of_step hstep) hle)
    · exact absurd (ht.agree.heap_lt h d hd.1) (Nat.not_lt.2 hle)

end Server

open Server

/-! ### A repeated CONNECT and an acknowledgement -/

/-- What stays the same, and what is sent, when a registered client connects once more. -/
structure Reconnects (s t : Server) (h : Handle) (c : Client) : Prop where
  pool : t.pool = s.pool
  ipTable : t.clients.gClientsIp = s.clients.gClientsIp
  guidTable : t.clients.gClientsGuid = s.clients.gClientsGuid
  others : ∀ k ≠ h, t.clients.heap k = s.clients.heap k ∧ t.timers k = s.timers k
  allocations : issuedIn t.trace = issuedIn s.trace
  sent : connectOks h t.trace = connectOks h s.trace ++ [c.connectOk]
  sentOthers : ∀ k ≠ h, connectOks k t.trace = connectOks k s.trace

/-- Let a client be registered at some point of a run. As long as it is, it
keeps GUID, address and session id, and all CONNECT_OK datagrams sent for it are the same; a CONNECT
with its GUID only sends one more; and a CONNECT_DONE that repeats the address bytes of one of them
marks this client as connected and changes nothing else. -/
theorem connect_idempotent {n : Nat} (hmin : 2 ≤ n) (hmax : n ≤ 65533) {es : List Event} {s : Server}
    (hrun : Run.exec step (serverInit (ipPoolOf n)) es = some s) {h : Handle} {c : Client}
    (hr : s.clients.Registered h c) :
    (∀ fs t c', Run.exec step s fs = some t → t.clients.Registered h c' →
      c'.guid = c.guid ∧ c'.ip = c.ip ∧ c'.sid = c.sid ∧
        ∀ packet ∈ connectOks h t.trace,
          packet = TUNNEL_VERSION :: TUNNEL_CMD_CONNECT_OK :: (leBytes c.ip ++ [c.sid])) ∧
      (∀ e ctx env, e.command TUNNEL_CMD_CONNECT = some (ctx, env) →
        0 ≤ ctx.guidLen ∧ ctx.guidLen < 60 → cString ctx.connectGuid = cString c.guid →
          ∃ t, step s e = some t ∧ Reconnects s t h c) ∧
      ∀ bytes src env, ∀ packet ∈ connectOks h s.trace,
        bytes.getD 1 0 = TUNNEL_CMD_CONNECT_DONE →
          (bytes.drop 2).take 4 = (packet.drop 2).take 4 →
            ∃ ctx, step s (.socketRead false (some (bytes, src)) env) =
              some { s with clients := s.clients.set h { c with state := .connectDone }, ctx } := by
  have hs : s.Announced n := Run.inv_of_exec (fun _ _ _ hs hstep => hs.of_step hstep)
    (serverInit_announced hmin hmax) hrun
  refine ⟨fun fs t c' hfs hr' => ?_, fun e ctx env hcmd hlen hguid => ?_,
    fun bytes src env packet hmem hdone hecho => ?_⟩
  · obtain ⟨hguid, hip, hsid⟩ := hs.sound.keys_of_exec hfs hr hr'
    have ht : t.Announced n := Run.inv_of_exec (fun _ _ _ hs hstep => hs.of_step hstep) hs hfs
    refine ⟨hguid, hip, hsid, fun packet hmem => ?_⟩
    rw [ht.own h c' hr' packet hmem, Client.connectOk_eq, hip, hsid]
  · have hfind : s.clients.findClientByGuid ctx.connectGuid = some h :=
      (congrArg s.clients.gClientsGuid.find hguid).trans (hs.sound.agree.findGuid_of_registered hr)
    obtain ⟨ctx', hstep⟩ := step_reconnect hcmd hlen hfind hr
    refine ⟨_, hstep, rfl, rfl, rfl, fun k hne => ⟨?_, Function.update_of_ne hne _ _⟩, ?_, ?_,
      fun k hne => ?_⟩
    · exact Function.update_of_ne hne _ _
    · exact (issuedIn_append _ _).trans (List.append_nil _)
    · have hsent := connectOks_sendto (h := h) h ctx.srcAddr c
      rw [if_pos rfl] at hsent
      exact (connectOks_append _ _ _).trans (congrArg _ hsent)
    · have hsent := connectOks_sendto (h := h) k ctx.srcAddr c
      rw [if_neg (Ne.symm hne)] at hsent
      exact (connectOks_append _ _ _).trans ((congrArg _ hsent).trans (List.append_nil _))
  · have hcmd : (datagramCtx bytes src).cmd = TUNNEL_CMD_CONNECT_DONE :=
      (sockByte_datagramCtx bytes src (by decide)).trans hdone
    have hip : (datagramCtx bytes src).doneIp = c.ip := by
      rw [hs.own h c hr packet hmem] at hecho
      rw [doneIp_datagramCtx, leWord_of_echo hecho]
    exact step_connectDone (if_pos hcmd) (hip ▸ hr.2) hr

theorem connect_idempotent_firstConnect :
    ∃ s c, Run.exec step (serverInit (ipPoolOf 65533)) [firstConnect] = some s ∧
      s.clients.Registered 0 c ∧
      (∀ fs t c', Run.exec step s fs = some t → t.clients.Registered 0 c' →
        c'.guid = c.guid ∧ c'.ip = c.ip ∧ c'.sid = c.sid ∧
          ∀ packet ∈ connectOks 0 t.trace,
            packet = TUNNEL_VERSION :: TUNNEL_CMD_CONNECT_OK :: (leBytes c.ip ++ [c.sid])) ∧
      (∃ t, step s firstConnect = some t ∧ Reconnects s t 0 c) ∧
      ∃ ctx, step s (.arrives (connectDoneDatagram c.ip c.sid) (.inet 192 0 2 1) 1) =
        some { s with clients := s.clients.set 0 { c with state := .connectDone }, ctx } := by
  have hfirst : (Run.exec step (serverInit (ipPoolOf 65533)) [firstConnect]).any (fun s =>
      decide (∃ c, s.clients.Registered 0 c) && (s.clients.heap 0).any fun c =>
        decide (cString c.guid = [0x61] ∧ c.connectOk ∈ connectOks 0 s.trace)) = true := by
    decide +kernel
  obtain ⟨s, hrun, hs⟩ := (Option.any_eq_true _ _).1 hfirst
  obtain ⟨hregistered, hheap⟩ := Bool.and_eq_true_iff.1 hs
  obtain ⟨c, hr⟩ := of_decide_eq_true hregistered
  rw [hr.1, Option.any_some] at hheap
  obtain ⟨hguid, hsent⟩ := of_decide_eq_true hheap
  obtain ⟨hkeys, hreconnect, hecho⟩ := connect_idempotent (by decide) le_rfl hrun hr
  refine ⟨s, c, hrun, hr, hkeys, ?_, ?_⟩
  · have hcmd : firstConnect.command TUNNEL_CMD_CONNECT =
        some (datagramCtx (connectDatagram [0x61]) (.inet 192 0 2 1), .at 0) := by
      refine command_eq_some.2 ⟨_, _, rfl, rfl, ?_⟩
      decide
    refine hreconnect _ _ _ hcmd (by decide) ?_
    rw [hguid]
    decide
  · exact hecho _ _ _ _ hsent rfl rfl

end TunnelServer
