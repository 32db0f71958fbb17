import TunnelServer.Lib.Ring
import TunnelServer.ServerIp

/-!
# The pool's invariant

`ip_list` and `ip_to_idx` are inverse to each other: the entry of an address names the slot it sits
in. Every pool the code builds or updates is `Coherent` in this sense, and on a coherent pool the two
operations are the two moves of a ring: `server_allocate_ip` pops the seat under the first cursor and
`server_reclaim_ip` gives a seat back. Everything proved later about the pool goes through
`serverAllocateIp_eq`, `serverReclaimIp_eq` and `serverReclaimIp_eq_none`.
-/

namespace TunnelServer

namespace IpPool

variable (p : IpPool)

/-- The place in the address range of the address in a slot. -/
def seq (i : Nat) : Nat := (p.ipOffset (p.ipList.cell i).ip).toNat

/-- The slot `ip_to_idx` names for a place in the address range. -/
def idx (j : Nat) : Nat := (p.ipToIdx.cell j).toNat

structure Coherent : Prop where
  two_le : 2 ≤ p.ipCount
  le_max : p.ipCount ≤ 65533
  list_length : p.ipList.length = p.ipCount
  idx_length : p.ipToIdx.length = p.ipCount
  next_lt : p.nextAvaliableIpIdx < p.ipCount
  last_lt : p.lastAvaliableIpIdx < p.ipCount
  seq_lt : ∀ i < p.ipCount, p.seq i < p.ipCount
  idx_seq : ∀ i < p.ipCount, p.idx (p.seq i) = i
  idx_lt : ∀ j < p.ipCount, p.idx j < p.ipCount
  seq_idx : ∀ j < p.ipCount, p.seq (p.idx j) = j

namespace Coherent

variable {p} (hp : p.Coherent)
include hp

theorem slotOf_lt {ip : UInt32} (hip : p.Owns ip) : p.slotOf ip < p.ipCount := hp.idx_lt _ hip

theorem cell_slotOf {ip : UInt32} (hip : p.Owns ip) : htonl (p.ipList.cell (p.slotOf ip)).ip = ip := by
  have hseq : p.seq (p.slotOf ip) = (p.ipOffset (ntohl ip)).toNat := hp.seq_idx _ hip
  have hoffset : p.ipOffset (p.ipList.cell (p.slotOf ip)).ip = p.ipOffset (ntohl ip) :=
    UInt32.toNat_inj.mp hseq
  have hhost : (p.ipList.cell (p.slotOf ip)).ip = ntohl ip := by
    unfold ipOffset at hoffset
    grind
  rw [hhost, htonl_ntohl]

omit hp in
theorem ipOffset_htonl (i : Nat) :
    (p.ipOffset (ntohl (htonl (p.ipList.cell i).ip))).toNat = p.seq i := by
  rw [ntohl_htonl]
  rfl

theorem owns_cell {i : Nat} (hi : i < p.ipCount) : p.Owns (htonl (p.ipList.cell i).ip) := by
  rw [Owns, ipOffset_htonl]
  exact hp.seq_lt i hi

theorem slotOf_cell {i : Nat} (hi : i < p.ipCount) :
    p.slotOf (htonl (p.ipList.cell i).ip) = i := by
  rw [slotOf, ipOffset_htonl]
  exact hp.idx_seq i hi

omit hp in
/-- The pool as a ring of network-order addresses. -/
def ring (hp : p.Coherent) : SeatRing UInt32 where
  size := p.ipCount
  seat := fun i => htonl (p.ipList.cell i).ip
  next := p.nextAvaliableIpIdx
  last := p.lastAvaliableIpIdx
  next_lt := hp.next_lt
  last_lt := hp.last_lt
  seat_inj := fun i hi j hj h => by rw [← hp.slotOf_cell hi, h, hp.slotOf_cell hj]

@[simp] theorem ring_size : hp.ring.size = p.ipCount := rfl
@[simp] theorem ring_next : hp.ring.next = p.nextAvaliableIpIdx := rfl
@[simp] theorem ring_last : hp.ring.last = p.lastAvaliableIpIdx := rfl
@[simp] theorem ring_seat (i : Nat) : hp.ring.seat i = htonl (p.ipList.cell i).ip := rfl

theorem exists_seat_iff {ip : UInt32} :
    (∃ i < hp.ring.size, hp.ring.seat i = ip) ↔ p.Owns ip := by
  constructor
  · intro hmem
    obtain ⟨i, hi, rfl⟩ := hmem
    exact hp.owns_cell hi
  · intro hip
    exact ⟨p.slotOf ip, hp.slotOf_lt hip, hp.cell_slotOf hip⟩

end Coherent

/-! ### Allocation -/

def allocated : IpPool :=
  let entry := p.ipList.cell p.nextAvaliableIpIdx
  { p with
    ipList :=
      { p.ipList with
        cell := Function.update p.ipList.cell p.nextAvaliableIpIdx
          { entry with sid := entry.sid + 1 } }
    lastAvaliableIpIdx :=
      if p.nextAvaliableIpIdx = p.lastAvaliableIpIdx then p.ipListIdxAdvance p.lastAvaliableIpIdx
      else p.lastAvaliableIpIdx
    nextAvaliableIpIdx := p.ipListIdxAdvance p.nextAvaliableIpIdx }

@[simp] theorem allocated_slotOf (ip : UInt32) : p.allocated.slotOf ip = p.slotOf ip := rfl

theorem allocated_cell_ip (i : Nat) : (p.allocated.ipList.cell i).ip = (p.ipList.cell i).ip := by
  show (Function.update p.ipList.cell _ _ i).ip = _
  by_cases h : i = p.nextAvaliableIpIdx
  · subst h
    rw [Function.update_self]
  · rw [Function.update_of_ne h]

theorem allocated_cell_sid (i : Nat) :
    (p.allocated.ipList.cell i).sid =
      if i = p.nextAvaliableIpIdx then (p.ipList.cell i).sid + 1 else (p.ipList.cell i).sid := by
  show (Function.update p.ipList.cell _ _ i).sid = _
  by_cases h : i = p.nextAvaliableIpIdx
  · subst h
    rw [Function.update_self, if_pos rfl]
  · rw [Function.update_of_ne h, if_neg h]

theorem allocated_seq (i : Nat) : p.allocated.seq i = p.seq i := by
  rw [seq, seq, allocated_cell_ip]
  rfl

variable {p}

theorem Coherent.allocated (hp : p.Coherent) : p.allocated.Coherent where
  two_le := hp.two_le
  le_max := hp.le_max
  list_length := hp.list_length
  idx_length := hp.idx_length
  next_lt := SeatRing.advance_lt hp.next_lt
  last_lt := by
    show (if _ then _ else _) < p.ipCount
    split
    · exact SeatRing.advance_lt hp.last_lt
    · exact hp.last_lt
  seq_lt := fun i hi => by rw [allocated_seq]; exact hp.seq_lt i hi
  idx_seq := fun i hi => by rw [allocated_seq]; exact hp.idx_seq i hi
  idx_lt := hp.idx_lt
  seq_idx := fun j hj => by rw [allocated_seq]; exact hp.seq_idx j hj

theorem Coherent.ring_allocated (hp : p.Coherent) : hp.allocated.ring = hp.ring.pop := by
  have hseat : hp.allocated.ring.seat = hp.ring.seat :=
    funext fun i => by rw [ring_seat, ring_seat, allocated_cell_ip]
  simp only [SeatRing.pop, ring, SeatRing.mk.injEq]
  exact ⟨rfl, hseat, rfl, rfl⟩

theorem serverAllocateIp_eq (hp : p.Coherent) :
    p.serverAllocateIp =
      some (htonl (p.ipList.cell p.nextAvaliableIpIdx).ip,
        (p.ipList.cell p.nextAvaliableIpIdx).sid, p.allocated) := by
  have hnext : p.nextAvaliableIpIdx < p.ipList.length := by
    rw [hp.list_length]
    exact hp.next_lt
  rw [serverAllocateIp, CArray.read_natCast hnext, Option.bind_eq_bind, Option.bind_some,
    CArray.write_natCast hnext]
  rfl

/-! ### Return of an address -/

variable (p)

/-- The pool after the address in slot `i` was given back: the slot changes contents with the one
after the window, in both arrays. -/
def reclaimed (i : Nat) : IpPool :=
  let l := p.ipListIdxAdvance p.lastAvaliableIpIdx
  { p with
    ipList := { p.ipList with cell := fun k => p.ipList.cell (Equiv.swap i l k) }
    ipToIdx :=
      { p.ipToIdx with
        cell :=
          if i = l then p.ipToIdx.cell
          else
            Function.update (Function.update p.ipToIdx.cell (p.seq i) (UInt16.ofNat l)) (p.seq l)
              (UInt16.ofNat i) }
    lastAvaliableIpIdx := l }

theorem reclaimed_cell (i k : Nat) :
    (p.reclaimed i).ipList.cell k =
      p.ipList.cell (Equiv.swap i (p.ipListIdxAdvance p.lastAvaliableIpIdx) k) := rfl

theorem reclaimed_seq (i k : Nat) :
    (p.reclaimed i).seq k = p.seq (Equiv.swap i (p.ipListIdxAdvance p.lastAvaliableIpIdx) k) := rfl

variable {p}

theorem Coherent.reclaimed_idx (hp : p.Coherent) {i j : Nat} (hi : i < p.ipCount)
    (hj : j < p.ipCount) :
    (p.reclaimed i).idx j =
      Equiv.swap i (p.ipListIdxAdvance p.lastAvaliableIpIdx) (p.idx j) := by
  have hl : p.ipListIdxAdvance p.lastAvaliableIpIdx < p.ipCount := SeatRing.advance_lt hp.last_lt
  have hcount := hp.le_max
  set l := p.ipListIdxAdvance p.lastAvaliableIpIdx with hldef
  by_cases hil : i = l
  · have hcell : (p.reclaimed i).ipToIdx.cell = p.ipToIdx.cell := if_pos hil
    rw [idx, hcell, hil, Equiv.swap_self]
    rfl
  · have hcell : (p.reclaimed i).ipToIdx.cell =
        Function.update (Function.update p.ipToIdx.cell (p.seq i) (UInt16.ofNat l)) (p.seq l)
          (UInt16.ofNat i) := if_neg hil
    rw [idx, hcell]
    by_cases hjl : j = p.seq l
    · rw [hjl, Function.update_self, hp.idx_seq l hl, Equiv.swap_apply_right,
        UInt16.toNat_ofNat_of_lt' (show i < 2 ^ 16 by omega)]
    · rw [Function.update_of_ne hjl]
      have hidxl : p.idx j ≠ l := fun h => hjl (by rw [← h, hp.seq_idx j hj])
      by_cases hji : j = p.seq i
      · rw [hji, Function.update_self, hp.idx_seq i hi, Equiv.swap_apply_left,
          UInt16.toNat_ofNat_of_lt' (show l < 2 ^ 16 by omega)]
      · have hidxi : p.idx j ≠ i := fun h => hji (by rw [← h, hp.seq_idx j hj])
        rw [Function.update_of_ne hji, Equiv.swap_apply_of_ne_of_ne hidxi hidxl]
        rfl

theorem Coherent.reclaimed_slotOf (hp : p.Coherent) {i : Nat} (hi : i < p.ipCount) {ip : UInt32}
    (hip : p.Owns ip) :
    (p.reclaimed i).slotOf ip =
      Equiv.swap i (p.ipListIdxAdvance p.lastAvaliableIpIdx) (p.slotOf ip) :=
  hp.reclaimed_idx hi hip

theorem Coherent.swap_lt (hp : p.Coherent) {i k : Nat} (hi : i < p.ipCount) (hk : k < p.ipCount) :
    Equiv.swap i (p.ipListIdxAdvance p.lastAvaliableIpIdx) k < p.ipCount := by
  have hl : p.ipListIdxAdvance p.lastAvaliableIpIdx < p.ipCount := SeatRing.advance_lt hp.last_lt
  rw [Equiv.swap_apply_def]
  split_ifs <;> assumption

theorem Coherent.reclaimed (hp : p.Coherent) {i : Nat} (hi : i < p.ipCount) :
    (p.reclaimed i).Coherent where
  two_le := hp.two_le
  le_max := hp.le_max
  list_length := hp.list_length
  idx_length := hp.idx_length
  next_lt := hp.next_lt
  last_lt := SeatRing.advance_lt hp.last_lt
  seq_lt := fun k hk => by
    rw [reclaimed_seq]
    exact hp.seq_lt _ (hp.swap_lt hi hk)
  idx_seq := fun k hk => by
    rw [reclaimed_seq, hp.reclaimed_idx hi (hp.seq_lt _ (hp.swap_lt hi hk)),
      hp.idx_seq _ (hp.swap_lt hi hk), Equiv.swap_apply_self]
  idx_lt := fun j hj => by
    rw [hp.reclaimed_idx hi hj]
    exact hp.swap_lt hi (hp.idx_lt j hj)
  seq_idx := fun j hj => by
    rw [hp.reclaimed_idx hi hj, reclaimed_seq, Equiv.swap_apply_self]
    exact hp.seq_idx j hj

theorem Coherent.ring_reclaimed (hp : p.Coherent) {i : Nat} (hi : i < p.ipCount) :
    (hp.reclaimed hi).ring = hp.ring.giveBack i hi := rfl

theorem Coherent.reclaimIdx_eq (hp : p.Coherent) {ip : UInt32} (hip : p.Owns ip) :
    p.reclaimIdx (ntohl ip) = some (p.ipToIdx.cell (p.ipOffset (ntohl ip)).toNat).toInt16 := by
  have hcount := hp.le_max
  have hoffset : (p.ipOffset (ntohl ip)).toNat < p.ipCount := hip
  have hlength : (p.ipOffset (ntohl ip)).toNat < p.ipToIdx.length := by
    rw [hp.idx_length]
    exact hoffset
  rw [reclaimIdx, toInt_toInt32_of_lt (by omega), CArray.read_natCast hlength]
  rfl

/-- The `int16_t` is exact below 32768, and there a return is the move of the ring. -/
theorem serverReclaimIp_eq (hp : p.Coherent) {ip : UInt32} (hip : p.Owns ip)
    (hsmall : p.slotOf ip ≤ 32767) : p.serverReclaimIp ip = some (p.reclaimed (p.slotOf ip)) := by
  have hcount := hp.le_max
  have hoffset : (p.ipOffset (ntohl ip)).toNat < p.ipCount := hip
  have hlt := hp.slotOf_lt hip
  have hl : p.ipListIdxAdvance p.lastAvaliableIpIdx < p.ipCount := SeatRing.advance_lt hp.last_lt
  have hidx : (p.ipToIdx.cell (p.ipOffset (ntohl ip)).toNat).toInt16.toInt = p.slotOf ip :=
    toInt_toInt16_of_lt (show p.slotOf ip < 2 ^ 15 by omega)
  have hback : UInt16.ofNat (p.slotOf ip) = p.ipToIdx.cell (p.ipOffset (ntohl ip)).toNat :=
    UInt16.ofNat_toNat
  have hseq : p.seq (p.slotOf ip) = (p.ipOffset (ntohl ip)).toNat := hp.seq_idx _ hip
  have hlist : ∀ k < p.ipCount, k < p.ipList.length := fun k hk => by rwa [hp.list_length]
  have htable : ∀ k < p.ipCount, k < p.ipToIdx.length := fun k hk => by rwa [hp.idx_length]
  set i := p.slotOf ip
  set l := p.ipListIdxAdvance p.lastAvaliableIpIdx with hldef
  simp only [serverReclaimIp, hp.reclaimIdx_eq hip, Option.bind_eq_bind, Option.bind_some, hidx,
    CArray.read_natCast (hlist i hlt), ← hldef]
  by_cases hli : l = i
  · rw [if_pos (by rw [hli]), reclaimed, ← hldef, hli, if_pos rfl, Equiv.swap_self]
    rfl
  · have hcells : Function.update (Function.update p.ipList.cell i (p.ipList.cell l)) l
        (p.ipList.cell i) = fun k => p.ipList.cell (Equiv.swap i l k) := by
      funext k
      by_cases hkl : k = l
      · rw [hkl, Function.update_self, Equiv.swap_apply_right]
      · rw [Function.update_of_ne hkl]
        by_cases hki : k = i
        · rw [hki, Function.update_self, Equiv.swap_apply_left]
        · rw [Function.update_of_ne hki, Equiv.swap_apply_of_ne_of_ne hki hkl]
    have hmove : (p.ipOffset (p.ipList.cell l).ip).toNat < p.ipToIdx.length :=
      htable _ (hp.seq_lt l hl)
    rw [if_neg (by omega), toInt_toInt32_of_lt (by omega), CArray.read_natCast (hlist l hl),
      Option.bind_some, CArray.write_natCast (hlist i hlt), Option.bind_some,
      CArray.write_mk (hlist l hl), Option.bind_some, CArray.write_natCast (htable _ hoffset),
      Option.bind_some, CArray.write_mk hmove, Option.bind_some, reclaimed, ← hldef,
      if_neg (Ne.symm hli), hcells, hseq, hback, UInt16.toUInt16_toInt16]
    rfl

/-- From slot 32768 on the `int16_t` is negative and `ip_list` is read outside its bounds. -/
theorem serverReclaimIp_eq_none (hp : p.Coherent) {ip : UInt32} (hip : p.Owns ip)
    (hlarge : 32767 < p.slotOf ip) : p.serverReclaimIp ip = none := by
  have hneg := toInt_toInt16_neg (x := p.ipToIdx.cell (p.ipOffset (ntohl ip)).toNat)
    (show 2 ^ 15 ≤ p.slotOf ip by omega)
  simp only [serverReclaimIp, hp.reclaimIdx_eq hip, Option.bind_eq_bind, Option.bind_some,
    CArray.read_of_neg hneg, Option.bind_none]

theorem serverReclaimIp_isSome_iff (hp : p.Coherent) {ip : UInt32} (hip : p.Owns ip) :
    (p.serverReclaimIp ip).isSome ↔ p.slotOf ip ≤ 32767 := by
  constructor
  · intro h
    by_contra hlarge
    rw [serverReclaimIp_eq_none hp hip (by omega)] at h
    simp at h
  · intro hsmall
    rw [serverReclaimIp_eq hp hip hsmall]
    rfl

/-! ### The pool the server starts with -/

theorem ipCount_ipPoolOf {n : Nat} (hmax : n ≤ 65533) : (ipPoolOf n).ipCount = n := by
  show (minIp + UInt32.ofNat n - 1 - minIp + 1).toNat = n
  have hring : minIp + UInt32.ofNat n - 1 - minIp + 1 = UInt32.ofNat n := by grind
  rw [hring, UInt32.toNat_ofNat_of_lt' (show n < 2 ^ 32 by omega)]

theorem seq_ipPoolOf {n i : Nat} (hi : i < 65533) : (ipPoolOf n).seq i = i := by
  show (minIp + UInt32.ofNat i - minIp.toInt32.toUInt32).toNat = i
  have hring : minIp + UInt32.ofNat i - minIp.toInt32.toUInt32 = UInt32.ofNat i := by
    rw [UInt32.toUInt32_toInt32]
    grind
  rw [hring, UInt32.toNat_ofNat_of_lt' (show i < 2 ^ 32 by omega)]

theorem idx_ipPoolOf {n j : Nat} (hj : j < 65533) : (ipPoolOf n).idx j = j := by
  show (UInt16.ofNat j).toNat = j
  rw [UInt16.toNat_ofNat_of_lt' (show j < 2 ^ 16 by omega)]

theorem coherent_ipPoolOf {n : Nat} (hmin : 2 ≤ n) (hmax : n ≤ 65533) : (ipPoolOf n).Coherent := by
  have hcount := ipCount_ipPoolOf hmax
  refine
    { two_le := by rw [hcount]; exact hmin
      le_max := by rw [hcount]; exact hmax
      list_length := rfl
      idx_length := rfl
      next_lt := by rw [hcount]; change 0 < n; omega
      last_lt := by change (ipPoolOf n).ipCount - 1 < (ipPoolOf n).ipCount; omega
      seq_lt := ?_
      idx_seq := ?_
      idx_lt := ?_
      seq_idx := ?_ } <;> intro k hk <;> rw [hcount] at hk
  · rw [seq_ipPoolOf (by omega), hcount]
    exact hk
  · rw [seq_ipPoolOf (by omega), idx_ipPoolOf (by omega)]
  · rw [idx_ipPoolOf (by omega), hcount]
    exact hk
  · rw [idx_ipPoolOf (by omega), seq_ipPoolOf (by omega)]

theorem open_ipPoolOf {n i : Nat} (hp : (ipPoolOf n).Coherent) (hi : i < (ipPoolOf n).ipCount) :
    hp.ring.Open i := by
  show SeatRing.placeOf (ipPoolOf n).ipCount 0 i ≤
    SeatRing.placeOf (ipPoolOf n).ipCount 0 ((ipPoolOf n).ipCount - 1)
  simp only [SeatRing.placeOf, Nat.zero_le, if_true]
  omega

theorem serverIpInit_eq : serverIpInit = ipPoolOf 65533 := by
  have hmax : maxIp = minIp + UInt32.ofNat 65533 - 1 := by decide
  rw [serverIpInit, hmax]
  rfl

end IpPool

end TunnelServer
