import TunnelServer.Proof.Filling

/-!
# When a newcomer takes an address away

The ring cannot show an empty window. A client deleted while every address is held makes its address
available behind one that is still held, and the next newcomer is given the held one.
-/

namespace TunnelServer

namespace Server

open ClientTable

variable {n : Nat} {s t : Server} {e : Event}

/-- With a free address in the pool, the next allocation hands out a free one and a CONNECT from an
unregistered GUID removes nobody. -/
def EvictsOnlyWhenFull (s : Server) : Prop :=
  (∃ ip, s.pool.Owns ip ∧ s.Free ip) →
    (∀ ip sid pool, s.pool.serverAllocateIp = some (ip, sid, pool) → s.Free ip) ∧
      ∀ e ctx env t, e.command TUNNEL_CMD_CONNECT = some (ctx, env) →
        s.clients.findClientByGuid ctx.connectGuid = none → step s e = some t →
          ∀ h c, s.clients.Registered h c → t.clients.Registered h c

theorem Framed.evictsOnlyWhenFull (hs : s.Framed n) : s.EvictsOnlyWhenFull := by
  intro hroom
  have hnext := hs.free_next hroom
  refine ⟨fun ip sid pool halloc => ?_, fun e ctx env t hcmd hfind hstep h c hr => ?_⟩
  · rw [IpPool.serverAllocateIp_eq hs.sound.coherent, Option.some.injEq, Prod.mk.injEq] at halloc
    rw [← halloc.1]
    exact hnext
  · obtain ⟨-, ⟨k, d, ctx', hknown, -⟩ | ⟨m, ctx', -, -, rfl⟩⟩ := hs.sound.connect_cases hcmd hstep
    · rw [hfind] at hknown
      cases hknown
    · exact (registered_enroll hs.sound.agree).2 (Or.inr ⟨hr, hnext h c hr⟩)

/-- After a deletion from a full pool the next address is one that is held. -/
theorem Framed.not_evictsOnlyWhenFull (hs : s.Framed n) (hstep : step s e = some t)
    (hfull : ¬ DeletesWithRoom (s, e)) : ¬ t.EvictsOnlyWhenFull := by
  rw [DeletesWithRoom, not_forall] at hfull
  obtain ⟨w, hfull⟩ := hfull
  rw [not_forall] at hfull
  obtain ⟨c, hfull⟩ := hfull
  rw [Classical.not_imp] at hfull
  obtain ⟨hexp, hfull⟩ := hfull
  have ht := hs.sound.of_step hstep
  have hr := hs.sound.registered w c (heap_of_expiring hexp)
  have hip := hs.sound.owned w c hr.1
  have hlt := hs.sound.coherent.slotOf_lt hip
  have hseat : hs.sound.coherent.ring.seat (s.pool.slotOf c.ip) = c.ip :=
    hs.sound.coherent.cell_slotOf hip
  rw [hs.sound.step_of_expiring hexp, Option.map_eq_some_iff] at hstep
  obtain ⟨pool, hpool, rfl⟩ := hstep
  obtain ⟨hsmall, rfl⟩ := hs.sound.reclaimed_of_expire hexp hpool
  have hexhausted : hs.sound.coherent.ring.Exhausted s.Held := by
    rcases hs.ring with htracks | hexhausted
    · exact absurd ⟨s.pool.nextIp, hs.sound.coherent.owns_cell hs.sound.coherent.next_lt,
        hs.sound.free_iff.2 htracks.not_held_next⟩ hfull
    · exact hexhausted
  have hheld : ∀ ip, (s.clients.drop w).findClient ip ≠ none ↔
      s.Held ip ∧ ip ≠ hs.sound.coherent.ring.seat (s.pool.slotOf c.ip) := by
    intro ip
    rw [hseat, Held, findClient_drop_registered hs.sound.agree hr]
    by_cases hip : ip = c.ip <;> simp [hip]
  have hnext := hexhausted.giveBack_next_held hs.sound.coherent.two_le hlt hheld
  rw [← hs.sound.coherent.ring_reclaimed hlt] at hnext
  intro hprop
  have hroom : ∃ ip, (s.pool.reclaimed (s.pool.slotOf c.ip)).Owns ip ∧
      Server.Free { s with
        pool := s.pool.reclaimed (s.pool.slotOf c.ip)
        clients := s.clients.drop w
        timers := Function.update s.timers w none } ip := by
    refine ⟨c.ip, hip, ht.free_iff.2 fun hstill => ?_⟩
    exact ((hheld c.ip).1 hstill).2 hseat.symm
  exact ht.free_iff.1 ((hprop hroom).1 _ _ _ (IpPool.serverAllocateIp_eq ht.coherent)) hnext

end Server

open Server ClientTable

/-- In a run, a newcomer takes an address away only when none is free, exactly as long as no client is
deleted while every address is held. -/
theorem evicts_only_when_full_iff {n : Nat} (hmin : 2 ≤ n) (hmax : n ≤ 65533) (es : List Event) :
    (∀ s ∈ Run.visited step (serverInit (ipPoolOf n)) es, s.EvictsOnlyWhenFull) ↔
      ∀ m ∈ Run.taken step (serverInit (ipPoolOf n)) es, DeletesWithRoom (m.1, m.2.1) :=
  Run.forall_visited_iff_forall_taken (E := fun _ => True)
    (fun _ _ _ hs _ hroom hstep => hs.of_step hroom hstep) (fun _ hs => hs.evictsOnlyWhenFull)
    (fun _ _ _ hs _ hstep hfull => hs.not_evictsOnlyWhenFull hstep hfull)
    (serverInit_framed hmin hmax) fun _ _ => trivial

theorem evicts_only_when_full_iff_comingAndGoing :
    (∀ s ∈ Run.visited step (serverInit (ipPoolOf 65533)) comingAndGoing, s.EvictsOnlyWhenFull) ↔
      ∀ m ∈ Run.taken step (serverInit (ipPoolOf 65533)) comingAndGoing,
        DeletesWithRoom (m.1, m.2.1) :=
  evicts_only_when_full_iff (by decide) le_rfl comingAndGoing

/-- The first client never answers. Just before it is given up, the others take all the addresses that
are left; then its timer deletes it. -/
def firstGivesUp : List Event :=
  connects 0 0 :: ((List.range 10).map fun i : Nat => .fires 0 ((i + 1) / 2)) ++
    ((List.range 65532).map fun i => connects (51 / 10) (1 + i)) ++ [.fires 0 (11 / 2)]

theorem exec_resends {n j : Nat} {s : Server} (hs : Filled n 1 0 s) (hj : j ≤ 10) :
    ∃ t, Run.exec step s ((List.range j).map fun i : Nat => .fires 0 ((i + 1) / 2)) = some t ∧
      Filled n 1 (UInt8.ofNat j) t := by
  induction j with
  | zero => exact ⟨s, rfl, hs⟩
  | succ j ih =>
      obtain ⟨t, hrun, ht⟩ := ih (by omega)
      have hr : UInt8.ofNat j < SERVER_MAX_RESEND_COUNT := by
        rw [UInt8.lt_iff_toNat_lt, UInt8.toNat_ofNat_of_lt' (show j < 2 ^ 8 by omega)]
        show j < 10
        omega
      obtain ⟨u, hstep, hu⟩ := ht.step_resend hr ((j + 1) / 2)
      refine ⟨u, ?_, ?_⟩
      · rw [List.range_succ, List.map_append, List.map_singleton, Run.exec_concat hrun]
        exact hstep
      · rw [UInt8.ofNat_add]
        exact hu

theorem Filled.step_giveUp {n : Nat} {s : Server} (hs : Filled n n 10 s) (now : ℚ) :
    ∃ t, step s (.fires 0 now) = some t ∧ ¬ DeletesWithRoom (s, .fires 0 now) := by
  have hsound := hs.framed.sound
  have htwo := hsound.coherent.two_le
  rw [hsound.count] at htwo
  obtain ⟨c, timer, hr, hci, hstate, htimer, hcb, hcount⟩ := hs.client 0 (by omega)
  have hexp : s.expiring (.fires 0 now) = some (0, c) :=
    expiring_eq_some.2 ⟨.at now, timer, rfl, htimer, hr.1, Or.inl ⟨hcb, hstate, by
      rw [hcount rfl]
      decide⟩⟩
  have hslot : s.pool.slotOf c.ip = 0 := by
    rw [hci, ← hs.cell 0]
    exact hsound.coherent.slotOf_cell (by rw [hsound.count]; omega)
  obtain ⟨pool, hpool⟩ := Option.isSome_iff_exists.1
    ((IpPool.serverReclaimIp_isSome_iff hsound.coherent (hsound.owned 0 c hr.1)).2 (by omega))
  refine ⟨_, by rw [hsound.step_of_expiring hexp, hpool]; rfl, fun hroom => ?_⟩
  obtain ⟨ip, howns, hfree⟩ := hroom 0 c hexp
  exact hs.full howns hfree

/-- With the server's own pool: the first client is deleted while 65533 clients hold all addresses, and
the next address to go out is held although the one of the deleted client is free. -/
theorem full_pool_hands_out_held_address :
    ¬ ∀ s ∈ Run.visited step (serverInit serverIpInit) firstGivesUp, s.EvictsOnlyWhenFull := by
  intro hall
  rw [IpPool.serverIpInit_eq] at hall
  obtain ⟨s₁, hfirst, hs₁⟩ :=
    (serverInit_filled (n := 65533) (by omega) le_rfl).step_connects (by omega) le_rfl
      (fun _ => rfl) 0
  obtain ⟨s₂, hresends, hs₂⟩ := exec_resends hs₁ (j := 10) le_rfl
  obtain ⟨s₃, hothers, hs₃⟩ :=
    exec_connects hs₂ (k := 65532) (by omega) le_rfl (fun h => absurd h (by omega)) (51 / 10)
  obtain ⟨t, hexpire, hfull⟩ := hs₃.step_giveUp (11 / 2)
  have hrun : Run.exec step (serverInit (ipPoolOf 65533)) firstGivesUp = some t := by
    rw [firstGivesUp, List.cons_append, List.cons_append, Run.exec_cons, hfirst, Option.bind_some,
      Run.exec_append, Run.exec_append, hresends, Option.bind_some, hothers, Option.bind_some,
      Run.exec_cons, hexpire]
    rfl
  exact hs₃.framed.not_evictsOnlyWhenFull hexpire hfull (hall t (Run.exec_mem_visited hrun))

end TunnelServer
