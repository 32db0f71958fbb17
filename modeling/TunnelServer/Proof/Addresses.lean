import TunnelServer.Proof.Sound

/-!
# Who holds which address

The ring of the pool against the addresses that registered clients hold. While the pool was never
handed out completely, its window is the set of free addresses. After that the window is one seat
with a held address, and it stays so until a client is deleted: from there on it no longer tells which
addresses are free.
-/

namespace TunnelServer

namespace Server

open ClientTable

def Held (s : Server) (ip : UInt32) : Prop := s.clients.findClient ip ≠ none

variable {n : Nat} {s t : Server} {h w : Handle} {c : Client} {e : Event}

theorem Sound.free_iff (hs : s.Sound n) {ip : UInt32} : s.Free ip ↔ ¬ s.Held ip := by
  rw [Held, not_not]
  constructor
  · intro hfree
    by_contra hfind
    obtain ⟨h, hfind⟩ := Option.ne_none_iff_exists'.1 hfind
    obtain ⟨c, hr, hip⟩ := hs.agree.registered_of_findClient hfind
    exact hfree h c hr hip
  · intro hnone h c hr heq
    subst heq
    rw [hr.2] at hnone
    cases hnone

/-- The three things a step does to the pool and to who holds an address. -/
theorem Sound.address_cases (hs : s.Sound n) (hstep : step s e = some t) :
    (t.pool = s.pool ∧ ∀ ip, t.clients.findClient ip = s.clients.findClient ip) ∨
      (t.pool = s.pool.allocated ∧ ∀ ip, t.clients.findClient ip =
        if ip = s.pool.nextIp then some s.clients.brk else s.clients.findClient ip) ∨
      ∃ w c, s.expiring e = some (w, c) ∧ t.pool = s.pool.reclaimed (s.pool.slotOf c.ip) ∧
        ∀ ip, t.clients.findClient ip = if ip = c.ip then none else s.clients.findClient ip := by
  cases hs.step_cases hstep with
  | quiet | lapse => exact Or.inl ⟨rfl, fun _ => rfl⟩
  | touch => exact Or.inl ⟨rfl, fun _ => rfl⟩
  | create => exact Or.inr (Or.inl ⟨rfl, findClient_enroll hs.agree⟩)
  | expire hexp hpool =>
      rename_i w c pool
      exact Or.inr (Or.inr ⟨w, c, hexp, (hs.reclaimed_of_expire hexp hpool).2,
        findClient_drop_registered hs.agree (hs.registered w c (heap_of_expiring hexp))⟩)

/-! ### The ring of a server -/

theorem ring_congr {p q : IpPool} (hpq : p = q) (hp : p.Coherent) (hq : q.Coherent) :
    hp.ring = hq.ring := by
  subst hpq
  rfl

/-- The window is the set of free addresses, or every address is held and one seat is open. -/
structure Framed (n : Nat) (s : Server) : Prop where
  sound : s.Sound n
  ring : sound.coherent.ring.Tracks s.Held ∨ sound.coherent.ring.Exhausted s.Held

/-- Whenever a client is deleted, some address of the pool is free at that moment. -/
def DeletesWithRoom (m : Server × Event) : Prop :=
  ∀ w c, m.1.expiring m.2 = some (w, c) → ∃ ip, m.1.pool.Owns ip ∧ m.1.Free ip

theorem deletesWithRoom_of_none (hnone : s.expiring e = none) : DeletesWithRoom (s, e) :=
  fun _ _ hexp => absurd (hnone.symm.trans hexp) (Option.some_ne_none _).symm

theorem serverInit_framed (hmin : 2 ≤ n) (hmax : n ≤ 65533) : (serverInit (ipPoolOf n)).Framed n := by
  have hs := serverInit_sound hmin hmax
  refine ⟨hs, Or.inl fun i hi => ?_⟩
  have hfree : ¬ (serverInit (ipPoolOf n)).Held (hs.coherent.ring.seat i) := fun hheld => hheld rfl
  exact ⟨fun _ => hfree, fun _ => IpPool.open_ipPoolOf hs.coherent hi⟩

theorem Sound.not_free_of_exhausted (hs : s.Sound n) (hfull : hs.coherent.ring.Exhausted s.Held)
    {ip : UInt32} (hip : s.pool.Owns ip) : ¬ s.Free ip := by
  rw [hs.free_iff, not_not]
  obtain ⟨i, hi, rfl⟩ := hs.coherent.exists_seat_iff.2 hip
  exact hfull.2 i hi

theorem Framed.of_step (hs : s.Framed n) (hroom : DeletesWithRoom (s, e))
    (hstep : step s e = some t) : t.Framed n := by
  have ht := hs.sound.of_step hstep
  refine ⟨ht, ?_⟩
  rcases hs.sound.address_cases hstep with ⟨hpool, hfind⟩ | ⟨hpool, hfind⟩ | ⟨w, c, hexp, hpool, hfind⟩
  · have hheld : ∀ ip, t.Held ip ↔ s.Held ip := fun ip => by rw [Held, Held, hfind]
    rw [ring_congr hpool ht.coherent hs.sound.coherent]
    exact hs.ring.imp (·.congr hheld) (·.congr hheld)
  · have hheld : ∀ ip, t.Held ip ↔ s.Held ip ∨ ip = s.pool.nextIp := by
      intro ip
      rw [Held, hfind, Held]
      by_cases heq : ip = s.pool.nextIp <;> simp [heq]
    rw [ring_congr hpool ht.coherent hs.sound.coherent.allocated,
      hs.sound.coherent.ring_allocated]
    rcases hs.ring with htracks | hfull
    · by_cases heq : hs.sound.coherent.ring.next = hs.sound.coherent.ring.last
      · exact Or.inr (htracks.pop_exhausts heq hheld)
      · exact Or.inl (htracks.pop heq hheld)
    · exact Or.inr (hfull.pop fun ip hip => (hheld ip).2 (Or.inl hip))
  · have hr := hs.sound.registered w c (heap_of_expiring hexp)
    have hip := hs.sound.owned w c hr.1
    have hlt := hs.sound.coherent.slotOf_lt hip
    have hseat : hs.sound.coherent.ring.seat (s.pool.slotOf c.ip) = c.ip :=
      hs.sound.coherent.cell_slotOf hip
    rcases hs.ring with htracks | hfull
    · left
      rw [ring_congr hpool ht.coherent (hs.sound.coherent.reclaimed hlt),
        hs.sound.coherent.ring_reclaimed hlt]
      refine htracks.giveBack hlt ?_ fun ip => ?_
      · rw [hseat, Held, hr.2]
        exact Option.some_ne_none w
      · rw [hseat, Held, hfind, Held]
        by_cases heq : ip = c.ip <;> simp [heq]
    · obtain ⟨ip, howns, hfree⟩ := hroom w c hexp
      exact absurd hfree (hs.sound.not_free_of_exhausted hfull howns)

/-- While the pool has room, the address the next allocation hands out is free. -/
theorem Framed.free_next (hs : s.Framed n) (hroom : ∃ ip, s.pool.Owns ip ∧ s.Free ip) :
    s.Free s.pool.nextIp := by
  obtain ⟨ip, howns, hfree⟩ := hroom
  rcases hs.ring with htracks | hfull
  · rw [hs.sound.free_iff]
    exact htracks.not_held_next
  · exact absurd hfree (hs.sound.not_free_of_exhausted hfull howns)

end Server

end TunnelServer
