import TunnelServer.Proof.Addresses

/-!
# A run that fills the pool

As many clients as there are addresses, each under its own GUID, connect one after the other. The run
is too long to evaluate, so what it leads to is proved by induction on the number of clients.
-/

namespace TunnelServer

open Server ClientTable

/-- The GUID of the `k`-th client: three bytes, none of them NUL. -/
def guidOf (k : Nat) : List UInt8 :=
  [UInt8.ofNat (1 + k % 128), UInt8.ofNat (1 + k / 128 % 128), UInt8.ofNat (1 + k / 16384 % 128)]

def connects (now : ℚ) (k : Nat) : Event :=
  .arrives (connectDatagram (guidOf k)) (.inet 192 0 2 1) now

def connectCtx (k : Nat) : ServerCtx := datagramCtx (connectDatagram (guidOf k)) (.inet 192 0 2 1)

theorem toNat_guidByte (x : Nat) : (UInt8.ofNat (1 + x % 128)).toNat = 1 + x % 128 := by
  rw [UInt8.toNat_ofNat_of_lt' (by change _ < 2 ^ 8; omega)]

theorem guidOf_inj {j k : Nat} (hj : j < 65536) (hk : k < 65536) (h : guidOf j = guidOf k) :
    j = k := by
  simp only [guidOf, List.cons.injEq, and_true, ← UInt8.toNat_inj, toNat_guidByte] at h
  omega

theorem cString_guidOf (k : Nat) : cString (guidOf k ++ [0]) = guidOf k := by
  have hbyte : ∀ x, UInt8.ofNat (1 + x % 128) ≠ 0 := by
    intro x hzero
    have htoNat := congrArg UInt8.toNat hzero
    rw [toNat_guidByte] at htoNat
    change 1 + x % 128 = 0 at htoNat
    omega
  rw [show [(0 : UInt8)] = 0 :: [] from rfl, cString_append_nul]
  apply cString_eq_self
  simp only [guidOf, List.mem_cons, List.not_mem_nil, or_false, not_or]
  exact ⟨(hbyte _).symm, (hbyte _).symm, (hbyte _).symm⟩

theorem connectGuid_connectCtx (k : Nat) : (connectCtx k).connectGuid = guidOf k ++ [0] := rfl

theorem guidLen_connectCtx (k : Nat) : (connectCtx k).guidLen = 3 := rfl

theorem command_connects (now : ℚ) (k : Nat) :
    (connects now k).command TUNNEL_CMD_CONNECT = some (connectCtx k, .at now) := rfl

theorem Server.Sound.exists_step_connects {n : Nat} {s : Server} (hs : s.Sound n) (now : ℚ)
    (k : Nat) : ∃ t, step s (connects now k) = some t := by
  apply Option.isSome_iff_exists.1
  apply hs.step_isSome
  · intro ctx env hcmd
    have hcmd : some (connectCtx k, Env.at now) = some (ctx, env) := hcmd
    cases hcmd
    exact ⟨by rw [guidLen_connectCtx]; omega, rfl⟩
  · intro w error env hevent
    cases hevent
  · intro w c hexp
    cases hexp

/-- What the server looks like when the first `k` clients have connected and the very first one was
sent its CONNECT_OK `r` more times. -/
structure Filled (n k : Nat) (r : UInt8) (s : Server) : Prop where
  framed : s.Framed n
  next : s.pool.nextAvaliableIpIdx = if k = n then 0 else k
  cell : ∀ i, (s.pool.ipList.cell i).ip = minIp + UInt32.ofNat i
  client : ∀ i < k, ∃ c timer, s.clients.Registered i c ∧ c.ip = htonl (minIp + UInt32.ofNat i) ∧
    c.state = .connect ∧ s.timers i = some timer ∧ timer.cb = .timeoutCb ∧
      (i = 0 → c.resendCounter = r)
  known : ∀ h c, s.clients.Registered h c → ∃ i < k, cString c.guid = guidOf i
  brk : s.clients.brk = k

namespace Filled

variable {n k : Nat} {r : UInt8} {s : Server}

theorem full (hs : Filled n n r s) {ip : UInt32} (hip : s.pool.Owns ip) : ¬ s.Free ip := by
  have hsound := hs.framed.sound
  obtain ⟨i, hi, rfl⟩ := hsound.coherent.exists_seat_iff.2 hip
  have hi : i < n := hsound.count ▸ hi
  obtain ⟨c, -, hr, hci, -⟩ := hs.client i hi
  intro hfree
  apply hfree i c hr
  rw [hci, IpPool.Coherent.ring_seat, hs.cell]

theorem findGuid_eq_none (hs : Filled n k r s) (hk : k < 65536) :
    s.clients.findClientByGuid (connectCtx k).connectGuid = none := by
  rw [Option.eq_none_iff_forall_ne_some]
  intro h hfind
  rw [connectGuid_connectCtx, findClientByGuid, cString_guidOf] at hfind
  obtain ⟨c, hr, hguid⟩ := hs.framed.sound.agree.registered_of_findGuid hfind
  obtain ⟨i, hi, hguid'⟩ := hs.known h c hr
  have hik := guidOf_inj hk (by omega) (hguid.symm.trans hguid')
  omega

theorem step_connects (hs : Filled n k r s) (hk : k < n) (hmax : n ≤ 65533) (hfirst : k = 0 → r = 0)
    (now : ℚ) : ∃ t, step s (connects now k) = some t ∧ Filled n (k + 1) r t := by
  have hsound := hs.framed.sound
  obtain ⟨t, hstep⟩ := hsound.exists_step_connects now k
  have ht : t.Framed n := hs.framed.of_step (deletesWithRoom_of_none rfl) hstep
  refine ⟨t, hstep, ?_⟩
  have hnone := hs.findGuid_eq_none (by omega)
  obtain ⟨-, ⟨h, c, ctx', hfind, -⟩ | ⟨m, ctx', -, -, rfl⟩⟩ :=
    hsound.connect_cases (command_connects now k) hstep
  · rw [hnone] at hfind
    cases hfind
  have hnext : s.pool.nextAvaliableIpIdx = k := by rw [hs.next, if_neg (by omega)]
  have hip : s.pool.nextIp = htonl (minIp + UInt32.ofNat k) := by
    rw [IpPool.nextIp, hnext, hs.cell]
  -- the address of an earlier client sits in an earlier slot
  have hother : ∀ i < k, htonl (minIp + UInt32.ofNat i) ≠ s.pool.nextIp := by
    intro i hi heq
    have hseat : hsound.coherent.ring.seat i = hsound.coherent.ring.seat k := by
      rw [IpPool.Coherent.ring_seat, IpPool.Coherent.ring_seat, hs.cell, hs.cell, heq, hip]
    have hcount := hsound.count
    have hik := hsound.coherent.ring.seat_inj i (show i < s.pool.ipCount by omega) k
      (show k < s.pool.ipCount by omega) hseat
    omega
  refine
    { framed := ht
      next := ?_
      cell := fun i => (s.pool.allocated_cell_ip i).trans (hs.cell i)
      client := fun i hi => ?_
      known := fun h c hr => ?_
      brk := enroll_brk.trans (by rw [hs.brk]) }
  · show SeatRing.advance s.pool.ipCount s.pool.nextAvaliableIpIdx = _
    rw [hnext, hsound.count]
    rfl
  · rcases Nat.lt_succ_iff_lt_or_eq.1 hi with hlt | rfl
    · obtain ⟨c, timer, hr, hci, hstate, htimer, hcb, hcount⟩ := hs.client i hlt
      have hne := hsound.agree.heap_ne_brk hr.1
      refine ⟨c, timer, (registered_enroll hsound.agree).2 (Or.inr ⟨hr, ?_⟩), hci, hstate,
        update_timers_eq_some.2 (Or.inr ⟨hne, htimer⟩), hcb, hcount⟩
      rw [hci]
      exact hother i hlt
    · exact ⟨_, { cb := .timeoutCb, due := (Env.at now).now + 1 / 2 },
        (registered_enroll hsound.agree).2 (Or.inl ⟨hs.brk.symm, rfl⟩), hip, rfl,
        update_timers_eq_some.2 (Or.inl ⟨hs.brk.symm, rfl⟩), rfl, fun hi => (hfirst hi).symm⟩
  · rcases (registered_enroll hsound.agree).1 hr with ⟨-, rfl⟩ | ⟨hold, -⟩
    · refine ⟨k, Nat.lt_succ_self k, ?_⟩
      show cString (s.freshClient (connectCtx k) m).guid = _
      rw [cString_freshClient, connectGuid_connectCtx, cString_guidOf]
    · obtain ⟨i, hi, hguid⟩ := hs.known h c hold
      exact ⟨i, Nat.lt_succ_of_lt hi, hguid⟩

theorem step_resend (hs : Filled n 1 r s) (hr : r < SERVER_MAX_RESEND_COUNT) (now : ℚ) :
    ∃ t, step s (.fires 0 now) = some t ∧ Filled n 1 (r + 1) t := by
  obtain ⟨c, timer, hreg, hci, hstate, htimer, hcb, hcount⟩ := hs.client 0 Nat.one_pos
  have hcount := hcount rfl
  have hstep : step s (.fires 0 now) = some _ :=
    hs.framed.sound.step_resend htimer hcb hreg.1 hstate (by rw [hcount]; exact hr)
  have hnone : s.expiring (.fires 0 now) = none := by
    simp [expiring, Event.fires, htimer, hreg.1, hcb, hstate, hcount, hr]
  refine ⟨_, hstep,
    { framed := hs.framed.of_step (deletesWithRoom_of_none hnone) hstep
      next := hs.next
      cell := hs.cell
      client := fun i hi => ?_
      known := fun h d hd => ?_
      brk := hs.brk }⟩
  · obtain rfl := Nat.lt_one_iff.1 hi
    exact ⟨_, { cb := .timeoutCb, due := (Env.at now).now + 1 / 2 },
      registered_set_self hreg (by rfl), hci, hstate, by simp, rfl,
      fun _ => congrArg (· + 1) hcount⟩
  · rcases (registered_set hreg (by rfl)).1 hd with ⟨rfl, rfl⟩ | ⟨-, hold⟩
    · exact hs.known _ c hreg
    · exact hs.known h d hold

end Filled

/-- The next `k` clients connect. -/
theorem exec_connects {n j k : Nat} {r : UInt8} {s : Server} (hs : Filled n j r s) (hk : j + k ≤ n)
    (hmax : n ≤ 65533) (hfirst : j = 0 → r = 0) (now : ℚ) :
    ∃ t, Run.exec step s ((List.range k).map fun i => connects now (j + i)) = some t ∧
      Filled n (j + k) r t := by
  induction k with
  | zero => exact ⟨s, rfl, hs⟩
  | succ k ih =>
      obtain ⟨t, hrun, ht⟩ := ih (by omega)
      obtain ⟨u, hstep, hu⟩ := ht.step_connects (by omega) hmax (fun h => hfirst (by omega)) now
      refine ⟨u, ?_, hu⟩
      rw [List.range_succ, List.map_append, List.map_singleton, Run.exec_concat hrun]
      exact hstep

theorem serverInit_filled {n : Nat} (hmin : 2 ≤ n) (hmax : n ≤ 65533) :
    Filled n 0 0 (serverInit (ipPoolOf n)) := by
  refine ⟨serverInit_framed hmin hmax, ?_, fun _ => rfl,
    fun i hi => absurd hi (Nat.not_lt_zero i), fun h c hr => (nomatch hr.1), rfl⟩
  rw [if_neg (by omega)]
  rfl

end TunnelServer
