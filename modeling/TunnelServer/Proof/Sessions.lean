import TunnelServer.Proof.Datagram
import TunnelServer.Proof.PoolSids
import TunnelServer.Proof.Sound

/-!
# A session id that is out of date

The ids issued with an address count up, and the client that holds it has the last one. So a trans-out
datagram with an earlier one does not pass the check until the count has gone once round.
-/

namespace TunnelServer

namespace Server

open ClientTable

variable {n : Nat} {s t : Server} {e : Event} {h : Handle} {c : Client}

structure Current (n : Nat) (s : Server) : Prop where
  sound : s.Sound n
  sids : s.pool.SidsCount (issuedIn s.trace)
  last : ∀ h c, s.clients.Registered h c → (sidsOf (issuedIn s.trace) c.ip).getLast? = some c.sid

theorem serverInit_current (hmin : 2 ≤ n) (hmax : n ≤ 65533) :
    (serverInit (ipPoolOf n)).Current n where
  sound := serverInit_sound hmin hmax
  sids := IpPool.sidsCount_ipPoolOf n
  last := fun _ _ hr => nomatch hr.1

theorem Current.of_step (hs : s.Current n) (hstep : step s e = some t) : t.Current n := by
  have ht := hs.sound.of_step hstep
  cases hs.sound.step_cases hstep with
  | quiet ctx xs halloc hoks =>
      have hissued : issuedIn (s.trace ++ xs) = issuedIn s.trace := by
        rw [issuedIn_append, halloc, List.append_nil]
      exact ⟨ht, by rw [hissued]; exact hs.sids, by rw [hissued]; exact hs.last⟩
  | lapse => exact ⟨ht, hs.sids, hs.last⟩
  | touch ctx hr htouch =>
      rename_i k d d' timer xs
      have hissued : issuedIn (s.trace ++ xs) = issuedIn s.trace := by
        rw [issuedIn_append, htouch.issuedIn_eq_nil, List.append_nil]
      refine ⟨ht, by rw [hissued]; exact hs.sids, fun h c hc => ?_⟩
      rw [hissued]
      rcases (registered_set hr htouch.keys.2.1).1 hc with ⟨-, rfl⟩ | ⟨-, hold⟩
      · rw [htouch.keys.2.1, htouch.keys.2.2]
        exact hs.last k d hr
      · exact hs.last h c hold
  | create ctx' hcmd hlen hfind hmem =>
      rename_i ctx env m
      have hissued : issuedIn (s.trace ++
          [Effect.allocate s.pool.nextIp s.pool.nextSid, .evTimerStop s.clients.brk,
            .sendto (some s.clients.brk) ctx.srcAddr (s.freshClient ctx m).connectOk,
            .evTimerInit s.clients.brk .timeoutCb, .evTimerStart s.clients.brk]) =
          issuedIn s.trace ++ [(s.pool.nextIp, s.pool.nextSid)] :=
        issuedIn_append _ _
      refine ⟨ht, by rw [hissued]; exact hs.sids.allocated hs.sound.coherent, fun h c hc => ?_⟩
      rw [hissued, IpPool.sidsOf_concat]
      rcases (registered_enroll hs.sound.agree).1 hc with ⟨-, rfl⟩ | ⟨hold, hne⟩
      · rw [if_pos (by rfl), List.getLast?_concat]
        rfl
      · have hne : s.pool.nextIp ≠ c.ip := fun heq => hne heq.symm
        rw [if_neg hne]
        exact hs.last h c hold
  | expire hexp hpool =>
      rename_i w d pool
      obtain ⟨hsmall, rfl⟩ := hs.sound.reclaimed_of_expire hexp hpool
      have hlt := hs.sound.coherent.slotOf_lt (hs.sound.owned w d (heap_of_expiring hexp))
      exact ⟨ht, hs.sids.reclaimed hs.sound.coherent hlt, fun h c hc =>
        hs.last h c ((registered_drop hs.sound.agree).1 hc).1⟩

theorem step_stale {bytes : List UInt8} {src : SockAddr} {env : Env}
    (hr : s.clients.Registered h c) (hcmd : bytes.getD 1 0 = TUNNEL_CMD_TRANS_OUT)
    (hversion : ipVersion (bytes.drop sizeofTunnelTransOutHeader) = 4)
    (hsource : ipSaddr (bytes.drop sizeofTunnelTransOutHeader) = c.ip)
    (hsid : c.sid ≠ bytes.getD 2 0) :
    step s (.socketRead false (some (bytes, src)) env) =
      some
        { s with
          ctx := (s.receive bytes src).ctx
          trace := s.trace ++ [Effect.sendto none src tunnelDisconnect] } := by
  have hcmd : (s.receive bytes src).ctx.cmd = TUNNEL_CMD_TRANS_OUT :=
    (sockByte_datagramCtx bytes src (by decide)).trans hcmd
  have hip : (s.receive bytes src).ctx.transoutIp env.cliIp = c.ip := by
    show (if ipVersion (datagramCtx bytes src).ippack = 4 then
      ipSaddr (datagramCtx bytes src).ippack else env.cliIp) = c.ip
    rw [ipVersion_datagramCtx, if_pos hversion, ipSaddr_datagramCtx, hsource]
  have hsid : c.sid ≠ (s.receive bytes src).ctx.transoutSid := by
    show c.sid ≠ (datagramCtx bytes src).sockByte 2
    rw [sockByte_datagramCtx bytes src (by decide)]
    exact hsid
  rw [step_of_transOut hcmd, serverOnTransout_stale (s := s.receive bytes src) (hip ▸ hr.2) hr.1 hsid]
  rfl

/-- An id issued fewer than 256 allocations before the client's own is another one. -/
theorem Current.sid_ne (hs : s.Current n) (hr : s.clients.Registered h c) {sid : UInt8} {j : Nat}
    (hj : (sidsOf (issuedIn s.trace) c.ip)[j]? = some sid)
    (hearlier : j + 1 < (sidsOf (issuedIn s.trace) c.ip).length)
    (hrecent : (sidsOf (issuedIn s.trace) c.ip).length - 1 - j < 256) : c.sid ≠ sid := by
  have hlast := hs.last h c hr
  obtain ⟨hcount, -⟩ := hs.sids c.ip (hs.sound.owned h c hr.1)
  set sids := sidsOf (issuedIn s.trace) c.ip
  have hget : ∀ i < sids.length, sids[i]? = some (UInt8.ofNat i) := by
    intro i hi
    rw [hcount, List.getElem?_map, List.getElem?_range (by simpa using hi)]
    rfl
  rw [List.getLast?_eq_getElem?, hget _ (by omega), Option.some.injEq] at hlast
  rw [hget j (by omega), Option.some.injEq] at hj
  rw [← hlast, ← hj]
  intro heq
  have htoNat := congrArg UInt8.toNat heq
  rw [UInt8.toNat_ofNat', UInt8.toNat_ofNat'] at htoNat
  omega

end Server

open Server

/-- **Sessions are isolated.** In every sequence of pool calls the ids issued with an address are 0, 1,
2 and so on modulo 256. On the server, the holder of an address has the id issued last with it, and a
trans-out datagram with that source and an earlier id, issued fewer than 256 allocations before, is
answered with one DISCONNECT to its sender and changes nothing. -/
theorem sessions_isolated {n : Nat} (hmin : 2 ≤ n) (hmax : n ≤ 65533) :
    (∀ ops, (∀ m ∈ Run.attempts poolStep (poolInit (ipPoolOf n)) ops, ReclaimsOwned m) →
      (∀ m ∈ Run.attempts poolStep (poolInit (ipPoolOf n)) ops, ReclaimsSmall m) →
        ∃ t, Run.exec poolStep (poolInit (ipPoolOf n)) ops = some t ∧
          ∀ ip, t.pool.Owns ip →
            sidsOf t.issued ip = (List.range (sidsOf t.issued ip).length).map UInt8.ofNat) ∧
      ∀ es s, Run.exec step (serverInit (ipPoolOf n)) es = some s →
        ∀ h c, s.clients.Registered h c →
          sidsOf (issuedIn s.trace) c.ip =
              (List.range (sidsOf (issuedIn s.trace) c.ip).length).map UInt8.ofNat ∧
            (sidsOf (issuedIn s.trace) c.ip).getLast? = some c.sid ∧
            ∀ j sid, (sidsOf (issuedIn s.trace) c.ip)[j]? = some sid →
              j + 1 < (sidsOf (issuedIn s.trace) c.ip).length →
              (sidsOf (issuedIn s.trace) c.ip).length - 1 - j < 256 →
                ∀ bytes src env, bytes.getD 1 0 = TUNNEL_CMD_TRANS_OUT → bytes.getD 2 0 = sid →
                  ipVersion (bytes.drop sizeofTunnelTransOutHeader) = 4 →
                  ipSaddr (bytes.drop sizeofTunnelTransOutHeader) = c.ip →
                    step s (.socketRead false (some (bytes, src)) env) =
                      some
                        { s with
                          ctx := (s.receive bytes src).ctx
                          trace := s.trace ++ [Effect.sendto none src tunnelDisconnect] } := by
  refine ⟨fun ops howned hsmall => ?_, fun es s hrun h c hr => ?_⟩
  · obtain ⟨t, hrun, -, hsids⟩ := exec_sidsCount hmin hmax howned hsmall
    exact ⟨t, hrun, fun ip hip => (hsids ip hip).1⟩
  · have hs : s.Current n := Run.inv_of_exec (fun _ _ _ hs hstep => hs.of_step hstep)
      (serverInit_current hmin hmax) hrun
    refine ⟨(hs.sids c.ip (hs.sound.owned h c hr.1)).1, hs.last h c hr, ?_⟩
    intro j sid hj hearlier hrecent bytes src env hcmd hsid hversion hsource
    exact step_stale hr hcmd hversion hsource (hsid ▸ hs.sid_ne hr hj hearlier hrecent)

/-- On a pool of two the third client takes over the address of the first, whose packets are refused from
then on. -/
theorem sessions_isolated_takeover :
    ∃ s t, Run.exec step (serverInit (ipPoolOf 2))
        [.arrives (connectDatagram [0x61]) (.inet 192 0 2 1) 0,
          .arrives (connectDatagram [0x62]) (.inet 192 0 2 2) 0,
          .arrives (connectDatagram [0x63]) (.inet 192 0 2 3) 0] = some s ∧
      step s (.arrives (transOutDatagram 0 (ipv4Header (htonl minIp) 0)) (.inet 192 0 2 1) 1) =
        some t ∧
      t.clients = s.clients ∧
      t.trace = s.trace ++ [.sendto none (.inet 192 0 2 1) tunnelDisconnect] := by
  have htakeover : (Run.exec step (serverInit (ipPoolOf 2))
      [.arrives (connectDatagram [0x61]) (.inet 192 0 2 1) 0,
        .arrives (connectDatagram [0x62]) (.inet 192 0 2 2) 0,
        .arrives (connectDatagram [0x63]) (.inet 192 0 2 3) 0]).any (fun s =>
      (s.clients.heap 2).any fun c => decide (s.clients.findClient c.ip = some 2 ∧
        c.ip = htonl minIp ∧ sidsOf (issuedIn s.trace) c.ip = [0, 1])) = true := by
    decide +kernel
  simp only [Option.any_eq_true, decide_eq_true_eq] at htakeover
  obtain ⟨s, hrun, c, hc, hfind, hip, hsids⟩ := htakeover
  have hstale := ((sessions_isolated (by decide) (by decide)).2 _ s hrun 2 c ⟨hc, hfind⟩).2.2 0 0
    (by rw [hsids]; rfl) (by rw [hsids]; decide) (by rw [hsids]; decide)
    (transOutDatagram 0 (ipv4Header (htonl minIp) 0)) (.inet 192 0 2 1) (.at 1) rfl rfl (by decide)
    (by rw [hip]; decide)
  exact ⟨s, _, hrun, hstale, rfl, rfl⟩

end TunnelServer
