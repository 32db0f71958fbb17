import TunnelServer.Proof.Filling

/-!
# Whose timers are active

A record is freed on three paths. Two of them are callbacks of its own timer, which has run out by
then. The third is the eviction by a newcomer, and it frees the record whatever its timer does.
-/

namespace TunnelServer

namespace Server

open ClientTable

variable {n : Nat} {s t : Server} {e : Event}

/-- Every active timer belongs to a client that both tables have. -/
def TimersOwned (s : Server) : Prop :=
  ∀ h timer, s.timers h = some timer →
    ∃ c, s.clients.Registered h c ∧ s.clients.findClientByGuid c.guid = some h

/-- A newcomer that is given a held address finds the timer of its holder inactive. -/
def EvictsIdle (m : Server × Event) : Prop :=
  ∀ ctx env, m.2.command TUNNEL_CMD_CONNECT = some (ctx, env) →
    m.1.clients.findClientByGuid ctx.connectGuid = none →
      ∀ h, m.1.clients.findClient m.1.pool.nextIp = some h → m.1.timers h = none

theorem Sound.timersOwned_iff (hs : s.Sound n) :
    s.TimersOwned ↔ ∀ h timer, s.timers h = some timer → ∃ c, s.clients.Registered h c := by
  refine forall₃_congr fun h timer htimer => exists_congr fun c => ?_
  exact and_iff_left_of_imp hs.agree.findGuid_of_registered

structure Owned (n : Nat) (s : Server) : Prop where
  sound : s.Sound n
  timers : s.TimersOwned

theorem serverInit_owned (hmin : 2 ≤ n) (hmax : n ≤ 65533) : (serverInit (ipPoolOf n)).Owned n :=
  ⟨serverInit_sound hmin hmax, fun _ _ htimer => nomatch htimer⟩

theorem Owned.of_step (hs : s.Owned n) (hidle : EvictsIdle (s, e)) (hstep : step s e = some t) :
    t.Owned n := by
  have ht := hs.sound.of_step hstep
  have howned := hs.sound.timersOwned_iff.1 hs.timers
  refine ⟨ht, ht.timersOwned_iff.2 fun k timer htimer => ?_⟩
  cases hs.sound.step_cases hstep with
  | quiet => exact howned k timer htimer
  | lapse hevent hfired hc hcause =>
      rcases update_timers_eq_some.1 htimer with ⟨-, hnone⟩ | ⟨-, hold⟩
      · cases hnone
      · exact howned k timer hold
  | touch ctx hr htouch =>
      rcases update_timers_eq_some.1 htimer with ⟨rfl, -⟩ | ⟨hne, hold⟩
      · exact ⟨_, registered_set_self hr htouch.keys.2.1⟩
      · obtain ⟨d, hd⟩ := howned k timer hold
        exact ⟨d, (registered_set hr htouch.keys.2.1).2 (Or.inr ⟨hne, hd⟩)⟩
  | create ctx' hcmd hlen hfind hmem =>
      rcases update_timers_eq_some.1 htimer with ⟨hbrk, -⟩ | ⟨-, hold⟩
      · exact ⟨_, (registered_enroll hs.sound.agree).2 (Or.inl ⟨hbrk, rfl⟩)⟩
      · obtain ⟨d, hd⟩ := howned k timer hold
        refine ⟨d, (registered_enroll hs.sound.agree).2 (Or.inr ⟨hd, fun hip => ?_⟩)⟩
        have hholder : s.clients.findClient s.pool.nextIp = some k := by
          rw [← hd.2, hip]
          rfl
        have hnone := hidle _ _ hcmd hfind k hholder
        rw [hold] at hnone
        cases hnone
  | expire hexp hpool =>
      rcases update_timers_eq_some.1 htimer with ⟨-, hnone⟩ | ⟨hne, hold⟩
      · cases hnone
      · obtain ⟨d, hd⟩ := howned k timer hold
        exact ⟨d, (registered_drop hs.sound.agree).2 ⟨hd, hne⟩⟩

/-- Evicting a client with an active timer leaves the timer behind. -/
theorem Sound.not_timersOwned (hs : s.Sound n) (hstep : step s e = some t)
    (hactive : ¬ EvictsIdle (s, e)) : ¬ t.TimersOwned := by
  have ht := hs.of_step hstep
  unfold EvictsIdle at hactive
  push Not at hactive
  obtain ⟨ctx, env, hcmd, hfind, h, hholder, htimer⟩ := hactive
  obtain ⟨timer, htimer⟩ := Option.ne_none_iff_exists'.1 htimer
  obtain ⟨-, ⟨k, c, ctx', hknown, -⟩ | ⟨m, ctx', -, -, rfl⟩⟩ := hs.connect_cases hcmd hstep
  · have hknown : s.clients.findClientByGuid ctx.connectGuid = some k := hknown
    have hfind : s.clients.findClientByGuid ctx.connectGuid = none := hfind
    rw [hknown] at hfind
    cases hfind
  · obtain ⟨d, hd, hip⟩ := hs.agree.registered_of_findClient hholder
    have hne : h ≠ s.clients.brk := hs.agree.heap_ne_brk hd.1
    intro howned
    obtain ⟨d', hd', -⟩ := howned h timer (update_timers_eq_some.2 (Or.inr ⟨hne, htimer⟩))
    rcases (registered_enroll hs.agree).1 hd' with ⟨hbrk, -⟩ | ⟨hold, hne'⟩
    · exact hne hbrk
    · rw [Agree.registered_unique hold hd] at hne'
      exact hne' hip

end Server

open Server

/-- No timer outlives its client in a run exactly when every client that is evicted in it has an
inactive timer at that moment. -/
theorem timers_owned_iff {n : Nat} (hmin : 2 ≤ n) (hmax : n ≤ 65533) (es : List Event) :
    (∀ s ∈ Run.visited step (serverInit (ipPoolOf n)) es, s.TimersOwned) ↔
      ∀ m ∈ Run.taken step (serverInit (ipPoolOf n)) es, EvictsIdle (m.1, m.2.1) :=
  Run.forall_visited_iff_forall_taken (E := fun _ => True)
    (fun _ _ _ hs _ hidle hstep => hs.of_step hidle hstep) (fun _ hs => hs.timers)
    (fun _ _ _ hs _ hstep hactive => hs.sound.not_timersOwned hstep hactive)
    (serverInit_owned hmin hmax) fun _ _ => trivial

theorem timers_owned_iff_comingAndGoing :
    (∀ s ∈ Run.visited step (serverInit (ipPoolOf 65533)) comingAndGoing, s.TimersOwned) ↔
      ∀ m ∈ Run.taken step (serverInit (ipPoolOf 65533)) comingAndGoing, EvictsIdle (m.1, m.2.1) :=
  timers_owned_iff (by decide) le_rfl comingAndGoing

/-- With the server's own pool: 65534 clients connect, and the timer of the first one is still active
when the last one has taken its address and its record is freed. -/
theorem eviction_leaves_timer :
    ¬ ∀ s ∈ Run.visited step (serverInit serverIpInit) ((List.range 65534).map (connects 0)),
      s.TimersOwned := by
  intro hall
  rw [IpPool.serverIpInit_eq] at hall
  have hinit := serverInit_filled (n := 65533) (by omega) le_rfl
  obtain ⟨s, hrun, hs⟩ := exec_connects hinit (k := 65533) (by omega) le_rfl (fun _ => rfl) 0
  simp only [Nat.zero_add] at hrun hs
  obtain ⟨c, timer, hr, hci, -, htimer, -⟩ := hs.client 0 (by omega)
  have hnone := hs.findGuid_eq_none (by omega)
  have hnext : s.clients.findClient s.pool.nextIp = some 0 := by
    rw [IpPool.nextIp, hs.next, if_pos rfl, hs.cell, ← hci, hr.2]
  obtain ⟨t, hstep⟩ := hs.framed.sound.exists_step_connects 0 65533
  have hactive : ¬ EvictsIdle (s, connects 0 65533) := by
    intro hidle
    have hnone := hidle _ _ (command_connects 0 65533) hnone 0 hnext
    rw [htimer] at hnone
    cases hnone
  have hlast : Run.exec step (serverInit (ipPoolOf 65533)) ((List.range 65534).map (connects 0)) =
      some t := by
    rw [List.range_succ, List.map_append, List.map_singleton, Run.exec_concat hrun]
    exact hstep
  exact hs.framed.sound.not_timersOwned hstep hactive (hall t (Run.exec_mem_visited hlast))

end TunnelServer
