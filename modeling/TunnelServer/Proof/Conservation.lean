import TunnelServer.Proof.Addresses
import TunnelServer.Proof.PoolRuns

/-!
# No address is lost

While at most `n - 1` clients are registered the pool is never handed out completely, so the window
stays the set of free addresses through every run: none is lost and none is both held and available.
-/

namespace TunnelServer

namespace Server

open ClientTable

variable {n : Nat} {s t : Server} {h : Handle} {c : Client} {e : Event}

structure Roomy (n : Nat) (s : Server) : Prop where
  framed : s.Framed n
  count : s.clients.getClientsCount ≤ n - 1

theorem held_iff_mem_keys (s : Server) (ip : UInt32) :
    ip ∈ s.clients.gClientsIp.keys ↔ s.Held ip := by
  rw [← HashIndex.find_isSome, Option.isSome_iff_ne_none]
  rfl

theorem Roomy.tracks (hs : s.Roomy n) : hs.framed.sound.coherent.ring.Tracks s.Held := by
  rcases hs.framed.ring with htracks | hfull
  · exact htracks
  · have hkeys : hs.framed.sound.coherent.ring.Exhausted (· ∈ s.clients.gClientsIp.keys) :=
      hfull.congr (held_iff_mem_keys s)
    have hle := hkeys.size_le_length
    rw [IpPool.Coherent.ring_size, hs.framed.sound.count, HashIndex.length_keys] at hle
    have htwo := hs.framed.sound.coherent.two_le
    rw [hs.framed.sound.count] at htwo
    have hcount : s.clients.gClientsIp.count ≤ n - 1 := hs.count
    omega

theorem Roomy.exists_free (hs : s.Roomy n) : ∃ ip, s.pool.Owns ip ∧ s.Free ip :=
  ⟨s.pool.nextIp, hs.framed.sound.coherent.owns_cell hs.framed.sound.coherent.next_lt,
    hs.framed.sound.free_iff.2 hs.tracks.not_held_next⟩

theorem Roomy.of_step (hs : s.Roomy n) (ht : t.clients.getClientsCount ≤ n - 1)
    (hstep : step s e = some t) : t.Roomy n :=
  ⟨hs.framed.of_step (fun _ _ _ => hs.exists_free) hstep, ht⟩

theorem Sound.owns_iff (hs : s.Sound n) (hmax : n ≤ 65533) (ip : UInt32) :
    s.pool.Owns ip ↔ (ipPoolOf n).Owns ip := by
  rw [IpPool.Owns, IpPool.Owns, IpPool.ipOffset, IpPool.ipOffset, hs.start, hs.count,
    IpPool.ipCount_ipPoolOf hmax]
  rfl

theorem Roomy.window_spec (hs : s.Roomy n) (hmax : n ≤ 65533) :
    s.pool.window.Nodup ∧ ∀ ip, ip ∈ s.pool.window ↔ (ipPoolOf n).Owns ip ∧ s.Free ip := by
  have hsound := hs.framed.sound
  rw [← hsound.coherent.window_ring]
  refine ⟨hsound.coherent.ring.window_nodup, fun ip => ?_⟩
  rw [hs.tracks.mem_window, hsound.coherent.exists_seat_iff, hsound.free_iff, hsound.owns_iff hmax]

/-- After a CONNECT its GUID is registered: `add_client` did not fail. -/
theorem Sound.registered_after_connect (hs : s.Sound n) {ctx : ServerCtx} {env : Env}
    (hcmd : e.command TUNNEL_CMD_CONNECT = some (ctx, env)) (hstep : step s e = some t) :
    t.clients.findClientByGuid ctx.connectGuid ≠ none := by
  obtain ⟨h, c, hfind, -⟩ := hs.handshake_of_connect hstep hcmd
  rw [hfind]
  exact Option.some_ne_none h

/-- While an address is free nobody is evicted: a client leaves through its own timer only. -/
theorem Framed.registered_or_expiring (hs : s.Framed n) (hroom : ∃ ip, s.pool.Owns ip ∧ s.Free ip)
    (hstep : step s e = some t) (hr : s.clients.Registered h c) :
    (∃ c', t.clients.Registered h c') ∨ s.expiring e = some (h, c) := by
  rcases hs.sound.registered_of_step hstep hr with ⟨c', hr', -⟩ | hexp | ⟨hip, -⟩
  · exact Or.inl ⟨c', hr'⟩
  · exact Or.inr hexp
  · exact absurd hip (hs.free_next hroom h c hr)

end Server

open Server

/-- **Addresses are conserved.** A run whose CONNECTs fit, whose timers belong to registered clients
and in which at most `n - 1` clients are registered goes through, and in each of its states the window
of the pool holds exactly the addresses nobody holds. Every CONNECT ends registered and evicts
nobody. -/
theorem addresses_conserved {n : Nat} (hmin : 2 ≤ n) (hmax : n ≤ 65533) (es : List Event)
    (hfits : ∀ m ∈ Run.attempts step (serverInit (ipPoolOf n)) es, ConnectFits m)
    (howned : ∀ m ∈ Run.attempts step (serverInit (ipPoolOf n)) es, TimerOwned m)
    (hsmall : ∀ m ∈ Run.attempts step (serverInit (ipPoolOf n)) es, GivesBackSmall m)
    (hcap : ∀ s ∈ Run.visited step (serverInit (ipPoolOf n)) es,
      s.clients.getClientsCount ≤ n - 1) :
    (∃ t, Run.exec step (serverInit (ipPoolOf n)) es = some t) ∧
      (∀ s ∈ Run.visited step (serverInit (ipPoolOf n)) es,
        s.pool.window.Nodup ∧ ∀ ip, ip ∈ s.pool.window ↔ (ipPoolOf n).Owns ip ∧ s.Free ip) ∧
      ∀ m ∈ Run.taken step (serverInit (ipPoolOf n)) es,
        (∀ ctx env, m.2.1.command TUNNEL_CMD_CONNECT = some (ctx, env) →
          m.2.2.clients.findClientByGuid ctx.connectGuid ≠ none) ∧
        ∀ h c, m.1.clients.Registered h c →
          (∃ c', m.2.2.clients.Registered h c') ∨ m.1.expiring m.2.1 = some (h, c) := by
  have hinit : (serverInit (ipPoolOf n)).Roomy n := ⟨serverInit_framed hmin hmax, Nat.zero_le _⟩
  have hvisited : ∀ s ∈ Run.visited step (serverInit (ipPoolOf n)) es, s.Roomy n :=
    Run.forall_visited_of_forall_taken
      (C := fun s e => ∀ t, step s e = some t → t.clients.getClientsCount ≤ n - 1)
      (fun s e t hs hC hstep => hs.of_step (hC t hstep) hstep) hinit
      fun m hm t hstep => hcap t
        (Run.mem_visited_of_mem_attempts (Run.taken_mem_attempts hm) hstep)
  have hnext : ∀ s e, s.Roomy n →
      ((ConnectFits (s, e) ∧ TimerOwned (s, e) ∧ GivesBackSmall (s, e)) ∧
        ∀ t, step s e = some t → t.clients.getClientsCount ≤ n - 1) →
      ∃ t, step s e = some t ∧ t.Roomy n := by
    intro s e hs hmeets
    obtain ⟨⟨hfits, howned, hsmall⟩, hcap⟩ := hmeets
    obtain ⟨t, hstep⟩ := Option.isSome_iff_exists.1 (hs.framed.sound.step_isSome hfits howned hsmall)
    exact ⟨t, hstep, hs.of_step (hcap t hstep) hstep⟩
  refine ⟨?_, fun s hs => (hvisited s hs).window_spec hmax, fun m hm => ?_⟩
  · obtain ⟨t, hrun, -⟩ := Run.exec_of_forall_attempts hnext hinit fun m hm =>
      ⟨⟨hfits m hm, howned m hm, hsmall m hm⟩, fun t hstep =>
        hcap t (Run.mem_visited_of_mem_attempts hm hstep)⟩
    exact ⟨t, hrun⟩
  · obtain ⟨hfrom, hstep, -⟩ := Run.of_mem_taken hm
    have hs := hvisited m.1 hfrom
    exact ⟨fun ctx env hcmd => hs.framed.sound.registered_after_connect hcmd hstep,
      fun h c hr => hs.framed.registered_or_expiring hs.exists_free hstep hr⟩

theorem addresses_conserved_comingAndGoing :
    (∃ t, Run.exec step (serverInit (ipPoolOf 65533)) comingAndGoing = some t) ∧
      ∀ s ∈ Run.visited step (serverInit (ipPoolOf 65533)) comingAndGoing,
        s.pool.window.Nodup ∧
          ∀ ip, ip ∈ s.pool.window ↔ (ipPoolOf 65533).Owns ip ∧ s.Free ip :=
  (addresses_conserved (by decide) le_rfl comingAndGoing (by decide +kernel) (by decide +kernel)
    (by decide +kernel) (by decide +kernel)).imp_right And.left

end TunnelServer
