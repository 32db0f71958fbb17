import Mathlib.Data.Finset.Card
import TunnelServer.Proof.PoolRuns

/-!
# The pool is a queue

As long as at most `n - 1` addresses are held, the open window of the ring read in order is the queue
of free addresses: an allocation takes its head and a return appends to its tail.
-/

namespace TunnelServer

open IpPool

/-- The invariant of a pool that was never exhausted: the open slots carry the free addresses. -/
structure PoolState.Tracking (n : Nat) (s : PoolState) : Prop where
  sound : s.Sound n
  tracks : sound.coherent.ring.Tracks (· ∈ s.held)

/-- The state and the abstract queue agree on what is free and on what was issued. -/
structure PoolState.Simulates (s : PoolState) (f : Fifo UInt32) : Prop where
  queue : f.queue = s.pool.window
  out : f.out = s.issued.map Prod.fst

theorem poolInit_tracking {n : Nat} (hmin : 2 ≤ n) (hmax : n ≤ 65533) :
    (poolInit (ipPoolOf n)).Tracking n := by
  have hs := poolInit_sound hmin hmax
  refine ⟨hs, fun i hi => ?_⟩
  have hopen : hs.coherent.ring.Open i := open_ipPoolOf hs.coherent hi
  exact ⟨fun _ hmem => by simp [poolInit] at hmem, fun _ => hopen⟩

theorem poolInit_simulates {n : Nat} (hmin : 2 ≤ n) (hmax : n ≤ 65533) :
    (poolInit (ipPoolOf n)).Simulates (addressQueue n) := by
  have hcount := ipCount_ipPoolOf hmax
  refine ⟨?_, rfl⟩
  have hspan : SeatRing.placeOf (ipPoolOf n).ipCount 0 ((ipPoolOf n).ipCount - 1) + 1 = n := by
    rw [hcount]
    simp only [SeatRing.placeOf, Nat.zero_le, if_true]
    omega
  show (List.range n).map _ =
    (List.range (SeatRing.placeOf (ipPoolOf n).ipCount 0 ((ipPoolOf n).ipCount - 1) + 1)).map _
  rw [hspan]
  apply List.map_congr_left
  intro i hi
  have hslot : SeatRing.slotAt (ipPoolOf n).ipCount 0 i = i := by
    rw [hcount, SeatRing.slotAt, Nat.zero_add, if_pos (List.mem_range.1 hi)]
  show _ = htonl ((ipPoolOf n).ipList.cell (SeatRing.slotAt (ipPoolOf n).ipCount 0 i)).ip
  rw [hslot]
  rfl

/-- One call on a tracking pool is one queue operation. -/
theorem poolStep_simulates {n : Nat} {s : PoolState} {f : Fifo UInt32} (hs : s.Tracking n)
    (hf : s.Simulates f) {op : PoolOp} (hheld : ReclaimsHeld (s, op))
    (hsmall : ReclaimsSmall (s, op)) (hcap : ∀ t, poolStep s op = some t → t.held.card ≤ n - 1) :
    ∃ t, poolStep s op = some t ∧ t.Tracking n ∧ t.Simulates (f.step op.fifoOp) := by
  have hp := hs.sound.coherent
  cases op with
  | allocate =>
      have hstep := hs.sound.allocate_eq
      refine ⟨_, hstep, ?_⟩
      have hinsert : ∀ a, a ∈ insert (hp.ring.seat hp.ring.next) s.held ↔
          a ∈ s.held ∨ a = hp.ring.seat hp.ring.next := fun a => by
        rw [Finset.mem_insert, or_comm]
      have hne : hp.ring.next ≠ hp.ring.last := by
        intro heq
        -- the last free address would go out, and every address would be held
        have hfull : hp.ring.pop.Exhausted
            (· ∈ (insert (hp.ring.seat hp.ring.next) s.held).toList) :=
          hs.tracks.pop_exhausts heq fun a => by rw [Finset.mem_toList, hinsert]
        have hle := hfull.size_le_length
        have hcard := hcap _ hstep
        rw [Finset.length_toList] at hle
        have hsize : hp.ring.pop.size = n := hs.sound.count
        have hmin := hp.two_le
        rw [hs.sound.count] at hmin
        have hcard' : (insert (hp.ring.seat hp.ring.next) s.held).card ≤ n - 1 := hcard
        omega
      refine ⟨⟨hs.sound.allocate_sound hstep, ?_⟩, ?_, ?_⟩
      · have htracks := hs.tracks.pop hne hinsert
        rw [← hp.ring_allocated] at htracks
        exact htracks
      · have hwindow := hp.ring.window_pop hne
        rw [← hp.ring_allocated, Coherent.window_ring, Coherent.window_ring] at hwindow
        rw [PoolOp.fifoOp, Fifo.step, hf.queue, hwindow, List.tail_cons]
      · have hwindow := hp.ring.window_pop hne
        rw [Coherent.window_ring] at hwindow
        simp only [PoolOp.fifoOp, Fifo.step, hf.queue, hwindow, hf.out]
        simp
  | reclaim ip =>
      have hmem : ip ∈ s.held := hheld ip rfl
      have hip := hs.sound.owned ip hmem
      have hlt := hp.slotOf_lt hip
      have hstep := hs.sound.reclaim_eq hip (hsmall ip rfl)
      have hseat : hp.ring.seat (s.pool.slotOf ip) = ip := hp.cell_slotOf hip
      have htaken : ¬ hp.ring.Open (s.pool.slotOf ip) := fun hopen =>
        (hs.tracks _ hlt).1 hopen (by rw [hseat]; exact hmem)
      refine ⟨_, hstep, ⟨hs.sound.reclaim_sound hip hstep, ?_⟩, ?_, hf.out⟩
      · have htracks : (hp.ring.giveBack _ hlt).Tracks (· ∈ s.held.erase ip) :=
          hs.tracks.giveBack hlt (by rw [hseat]; exact hmem) fun a => by
            rw [hseat, Finset.mem_erase, and_comm]
        rw [← hp.ring_reclaimed hlt] at htracks
        exact htracks
      · have hwindow := hp.ring.window_giveBack hlt htaken
        rw [← hp.ring_reclaimed hlt, Coherent.window_ring, Coherent.window_ring, hseat] at hwindow
        rw [PoolOp.fifoOp, Fifo.step, hf.queue, ← hwindow]

theorem exec_simulates {n : Nat} {s : PoolState} {f : Fifo UInt32} (hs : s.Tracking n)
    (hf : s.Simulates f) {ops : List PoolOp}
    (hheld : ∀ m ∈ Run.attempts poolStep s ops, ReclaimsHeld m)
    (hsmall : ∀ m ∈ Run.attempts poolStep s ops, ReclaimsSmall m)
    (hcap : ∀ t ∈ Run.visited poolStep s ops, t.held.card ≤ n - 1) :
    ∃ t, Run.exec poolStep s ops = some t ∧ t.Tracking n ∧
      t.Simulates ((ops.map PoolOp.fifoOp).foldl Fifo.step f) := by
  induction ops generalizing s f with
  | nil => exact ⟨s, rfl, hs, hf⟩
  | cons op ops ih =>
      obtain ⟨t, hstep, ht, hft⟩ := poolStep_simulates hs hf (hheld _ List.mem_cons_self)
        (hsmall _ List.mem_cons_self) (fun t hstep => hcap t (by
          rw [Run.visited_cons_some hstep]
          exact List.mem_cons_of_mem _ (Run.mem_visited_self t ops)))
      rw [Run.attempts_cons_some hstep] at hheld hsmall
      rw [Run.visited_cons_some hstep] at hcap
      obtain ⟨u, hrun, hu⟩ := ih ht hft (fun m hm => hheld m (List.mem_cons_of_mem _ hm))
        (fun m hm => hsmall m (List.mem_cons_of_mem _ hm))
        (fun t ht => hcap t (List.mem_cons_of_mem _ ht))
      exact ⟨u, by rw [Run.exec_cons, hstep]; exact hrun, hu⟩

/-- **The pool refines a queue.** Its window is the queue and its allocations are what leaves the
queue; after an address is given back, whatever was free at that moment is issued before it. -/
theorem pool_refines_queue {n : Nat} (hmin : 2 ≤ n) (hmax : n ≤ 65533) (ops : List PoolOp)
    (hheld : ∀ m ∈ Run.attempts poolStep (poolInit (ipPoolOf n)) ops, ReclaimsHeld m)
    (hsmall : ∀ m ∈ Run.attempts poolStep (poolInit (ipPoolOf n)) ops, ReclaimsSmall m)
    (hcap : ∀ t ∈ Run.visited poolStep (poolInit (ipPoolOf n)) ops, t.held.card ≤ n - 1) :
    ∃ t, Run.exec poolStep (poolInit (ipPoolOf n)) ops = some t ∧
      t.pool.window = ((ops.map PoolOp.fifoOp).foldl Fifo.step (addressQueue n)).queue ∧
      t.issued.map Prod.fst = ((ops.map PoolOp.fifoOp).foldl Fifo.step (addressQueue n)).out ∧
      ∀ before after a, ops = before ++ .reclaim a :: after →
        ∃ s outs, Run.exec poolStep (poolInit (ipPoolOf n)) before = some s ∧
          t.issued.map Prod.fst = s.issued.map Prod.fst ++ outs ∧
          ∀ i : Nat, outs[i]? = some a →
            ∀ b, s.pool.Owns b → b ∉ s.held → ∃ j < i, outs[j]? = some b := by
  obtain ⟨t, hrun, -, ht⟩ := exec_simulates (poolInit_tracking hmin hmax)
    (poolInit_simulates hmin hmax) hheld hsmall hcap
  refine ⟨t, hrun, ht.queue.symm, ht.out.symm, ?_⟩
  intro before after a heq
  subst heq
  obtain ⟨s, hbefore⟩ : ∃ s, Run.exec poolStep (poolInit (ipPoolOf n)) before = some s := by
    rw [Run.exec_append, Option.bind_eq_some_iff] at hrun
    exact ⟨_, hrun.choose_spec.1⟩
  rw [Run.attempts_append hbefore] at hheld hsmall
  obtain ⟨s', hbefore', hs, hfs⟩ := exec_simulates (poolInit_tracking hmin hmax)
    (poolInit_simulates hmin hmax) (fun m hm => hheld m (List.mem_append_left _ hm))
    (fun m hm => hsmall m (List.mem_append_left _ hm))
    (fun u hu => hcap u (Run.mem_visited_append_left hu _))
  cases hbefore.symm.trans hbefore'
  rw [List.map_append, List.map_cons, List.foldl_append, List.foldl_cons] at ht
  set f := (before.map PoolOp.fifoOp).foldl Fifo.step (addressQueue n)
  have hout : (f.step (.push a)).out = s.issued.map Prod.fst := hfs.out
  obtain ⟨outs, houts⟩ := Fifo.out_prefix (after.map PoolOp.fifoOp) (f.step (.push a))
  refine ⟨s, outs, hbefore, by rw [← ht.out, ← hout, houts]; rfl, ?_⟩
  intro i hi b hb hfree
  have hp := hs.sound.coherent
  have ha : a ∈ s.held := hheld _ (List.mem_append_right _ List.mem_cons_self) a rfl
  have hnot : a ∉ s.pool.window := by
    rw [← hp.window_ring, hs.tracks.mem_window]
    exact fun h => h.2 ha
  have hin : b ∈ s.pool.window := by
    rw [← hp.window_ring, hs.tracks.mem_window, hp.exists_seat_iff]
    exact ⟨hb, hfree⟩
  have hqueue : (f.step (.push a)).queue = s.pool.window ++ a :: [] := by
    rw [Fifo.step, hfs.queue]
  exact Fifo.out_before hqueue hnot houts.symm hi b hin

/-- The first of three addresses comes back and goes out last. -/
theorem pool_refines_queue_three :
    ∃ t, Run.exec poolStep (poolInit (ipPoolOf 3))
        [.allocate, .allocate, .reclaim (htonl minIp), .allocate] = some t ∧
      t.pool.window = [htonl minIp] :=
  (pool_refines_queue (by decide) (by decide)
    [.allocate, .allocate, .reclaim (htonl minIp), .allocate] (by decide) (by decide)
    (by decide)).imp fun _ h => ⟨h.1, h.2.1⟩

end TunnelServer
