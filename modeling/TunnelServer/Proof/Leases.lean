import Mathlib.Algebra.BigOperators.Group.Finset.Basic
import Mathlib.Algebra.Order.BigOperators.Group.Finset
import Mathlib.Tactic.Linarith
import TunnelServer.Gateway

/-!
# What a gateway keeps

`Turn` lists what one answer makes of a lease that is there before and after, and `Serves.turn` says that
there is nothing else. The bounds are kept as credit: a CONNECT grants what the resending and the alarms
that follow from it are going to use up.
-/

namespace TunnelServer

namespace Leases

variable {L : Leases} {g k : List UInt8} {l m : Lease}

@[simp] theorem grant_self : (L.grant g l).lease g = some l := if_pos rfl

theorem grant_of_ne (hne : k ≠ g) :
    (L.grant g l).lease k = some m ↔ L.lease k = some m ∧ m.ip ≠ l.ip := by
  show (if k = g then _ else _) = _ ↔ _
  rw [if_neg hne, Option.filter_eq_some_iff, decide_eq_true_eq]

theorem lease_of_grant (h : (L.grant g l).lease k = some m) :
    (k = g ∧ m = l) ∨ (k ≠ g ∧ L.lease k = some m) := by
  by_cases hk : k = g
  · subst hk
    rw [grant_self] at h
    exact Or.inl ⟨rfl, (Option.some.inj h).symm⟩
  · exact Or.inr ⟨hk, ((grant_of_ne hk).1 h).1⟩

theorem lease_of_release (h : (L.release g).lease k = some m) : k ≠ g ∧ L.lease k = some m := by
  change (if k = g then none else L.lease k) = some m at h
  split_ifs at h with hk
  exact ⟨hk, h⟩

end Leases

/-- What a request makes of the lease under a GUID. -/
inductive Lease.Turn (g : List UInt8) (l : Lease) : Request → Lease → Prop
  | stay {r : Request} : Turn g l r l
  | renew {src : SockAddr} {now : ℚ} : Turn g l (.connect g src now) (l.offered src now)
  | confirm : Turn g l (.confirm l.ip) { l with state := .connectDone }
  | relay {count : Int} {packet : List UInt8} {src : SockAddr} {now : ℚ} :
      Turn g l (.packetOut l.ip l.sid count packet src now) (l.heard src now)
  | resend {alarm : Timer} {now : ℚ} (halarm : l.alarm = some alarm) (hcb : alarm.cb = .timeoutCb)
      (hstate : l.state = .connect) (hcount : l.resends < SERVER_MAX_RESEND_COUNT.toNat) :
      Turn g l (.alarm g false now) (l.resent now)
  | settle {alarm : Timer} {now : ℚ} (halarm : l.alarm = some alarm) (hcb : alarm.cb = .timeoutCb)
      (hstate : l.state = .connectDone) : Turn g l (.alarm g false now) (l.closing now)
  | lapse {alarm : Timer} {error : Bool} {now : ℚ} (halarm : l.alarm = some alarm)
      (hcause : error = true ∨ (alarm.cb = .timeoutCbDeleteClient ∧ l.state = .connect)) :
      Turn g l (.alarm g error now) { l with alarm := none }

/-- A lease is new, with a CONNECT, or it is what the request makes of the lease before. -/
theorem Serves.turn {L M : Leases} {r : Request} {out : List Output} (h : Serves L r M out)
    {g : List UInt8} {m : Lease} (hm : M.lease g = some m) :
    (∃ l src now, r = .connect g src now ∧ m = Lease.offered l src now) ∨
      ∃ l, L.lease g = some l ∧ l.Turn g r m := by
  cases h with
  | accept hnew =>
      rcases Leases.lease_of_grant hm with ⟨rfl, rfl⟩ | ⟨-, hm⟩
      · exact Or.inl ⟨_, _, _, rfl, rfl⟩
      · exact Or.inr ⟨m, hm, .stay⟩
  | renew hl =>
      rcases Leases.lease_of_grant hm with ⟨rfl, rfl⟩ | ⟨-, hm⟩
      · exact Or.inr ⟨_, hl, .renew⟩
      · exact Or.inr ⟨m, hm, .stay⟩
  | confirm hl =>
      rcases Leases.lease_of_grant hm with ⟨rfl, rfl⟩ | ⟨-, hm⟩
      · exact Or.inr ⟨_, hl, .confirm⟩
      · exact Or.inr ⟨m, hm, .stay⟩
  | relay hl =>
      rcases Leases.lease_of_grant hm with ⟨rfl, rfl⟩ | ⟨-, hm⟩
      · exact Or.inr ⟨_, hl, .relay⟩
      · exact Or.inr ⟨m, hm, .stay⟩
  | resend hl halarm hcb hstate hcount =>
      rcases Leases.lease_of_grant hm with ⟨rfl, rfl⟩ | ⟨-, hm⟩
      · exact Or.inr ⟨_, hl, .resend halarm hcb hstate hcount⟩
      · exact Or.inr ⟨m, hm, .stay⟩
  | settle hl halarm hcb hstate =>
      rcases Leases.lease_of_grant hm with ⟨rfl, rfl⟩ | ⟨-, hm⟩
      · exact Or.inr ⟨_, hl, .settle halarm hcb hstate⟩
      · exact Or.inr ⟨m, hm, .stay⟩
  | lapse hl halarm hcause =>
      rcases Leases.lease_of_grant hm with ⟨rfl, rfl⟩ | ⟨-, hm⟩
      · exact Or.inr ⟨_, hl, .lapse halarm hcause⟩
      · exact Or.inr ⟨m, hm, .stay⟩
  | giveUp | expire => exact Or.inr ⟨m, (Leases.lease_of_release hm).2, .stay⟩
  | unconfirmed | refuse | deliver | drop | ignore => exact Or.inr ⟨m, hm, .stay⟩

/-! ### Where datagrams go -/

def Request.source : Request → Option SockAddr
  | .connect _ src _ => some src
  | .packetOut _ _ _ _ src _ => some src
  | _ => none

def sources (ps : List (Request × List Output)) : List SockAddr := ps.filterMap fun p => p.1.source

theorem sources_append (ps qs : List (Request × List Output)) :
    sources (ps ++ qs) = sources ps ++ sources qs := List.filterMap_append

theorem Lease.Turn.endpoint {g : List UInt8} {l m : Lease} {r : Request} (h : l.Turn g r m) :
    m.endpoint = l.endpoint ∨ r.source = some m.endpoint := by
  cases h with
  | stay | confirm | resend | settle | lapse => exact Or.inl rfl
  | renew => exact Or.inr rfl
  | relay =>
      right
      unfold heard
      split <;> rfl

theorem Serves.destination {L M : Leases} {r : Request} {out : List Output} (h : Serves L r M out)
    {cli : Option (List UInt8)} {dst : SockAddr} {bytes : List UInt8}
    (hsent : Output.datagram cli dst bytes ∈ out) :
    (∃ g l, L.lease g = some l ∧ l.endpoint = dst) ∨ r.source = some dst := by
  cases h with
  | accept | renew | refuse =>
      rw [List.mem_singleton] at hsent
      cases hsent
      exact Or.inr rfl
  | deliver hl | resend hl =>
      rw [List.mem_singleton] at hsent
      cases hsent
      exact Or.inl ⟨_, _, hl, rfl⟩
  | relay =>
      rw [List.mem_singleton] at hsent
      cases hsent
  | confirm | unconfirmed | drop | giveUp | settle | expire | lapse | ignore => cases hsent

/-- A gateway never sends a datagram to an endpoint it has not heard of. -/
theorem Served.to_sources {ps : List (Request × List Output)} {L : Leases} (h : Served .empty ps L) :
    (∀ g l, L.lease g = some l → l.endpoint ∈ sources ps) ∧
      ∀ p ∈ ps, ∀ cli dst bytes, Output.datagram cli dst bytes ∈ p.2 → dst ∈ sources ps := by
  induction h with
  | nil => exact ⟨(fun _ _ hl => nomatch hl), (fun _ hp => nomatch hp)⟩
  | snoc hpast hserves ih =>
      obtain ⟨hleases, hsent⟩ := ih
      rename_i past M N r out
      have hnew : ∀ dst, r.source = some dst → dst ∈ sources (past ++ [(r, out)]) := by
        intro dst hsource
        rw [sources_append]
        exact List.mem_append_right _ (List.mem_filterMap.2 ⟨_, List.mem_singleton_self _, hsource⟩)
      have hold : ∀ dst ∈ sources past, dst ∈ sources (past ++ [(r, out)]) := by
        intro dst hdst
        rw [sources_append]
        exact List.mem_append_left _ hdst
      refine ⟨fun g m hm => ?_, fun p hp cli dst bytes hout => ?_⟩
      · rcases hserves.turn hm with ⟨l, src, now, rfl, rfl⟩ | ⟨l, hl, hturn⟩
        · exact hnew _ rfl
        · rcases hturn.endpoint with hsame | hsource
          · exact hold _ (hsame ▸ hleases g l hl)
          · exact hnew _ hsource
      · rcases List.mem_append.1 hp with hp | hp
        · exact hold _ (hsent p hp cli dst bytes hout)
        · rw [List.mem_singleton] at hp
          subst hp
          rcases hserves.destination hout with ⟨g, l, hl, rfl⟩ | hsource
          · exact hold _ (hleases g l hl)
          · exact hnew _ hsource

/-! ### Credit -/

namespace Leases

variable (f : Lease → Nat) {L : Leases} {g k : List UInt8} {l : Lease}

/-- What is left to the lease under a GUID. -/
def credit (L : Leases) (g : List UInt8) : Nat := (L.lease g).elim 0 f

theorem credit_eq (hl : L.lease g = some l) : L.credit f g = f l := by
  rw [credit, hl]
  rfl

theorem credit_grant_self : (L.grant g l).credit f g = f l := credit_eq f grant_self

theorem credit_grant_le (hne : k ≠ g) : (L.grant g l).credit f k ≤ L.credit f k := by
  cases hk : (L.grant g l).lease k with
  | none =>
      rw [credit, hk]
      exact Nat.zero_le _
  | some m => rw [credit_eq f hk, credit_eq f ((grant_of_ne hne).1 hk).1]

theorem credit_release_self : (L.release g).credit f g = 0 := by
  rw [credit, show (L.release g).lease g = none from if_pos rfl]
  rfl

theorem credit_release_of_ne (hne : k ≠ g) : (L.release g).credit f k = L.credit f k := by
  rw [credit, credit, show (L.release g).lease k = L.lease k from if_neg hne]

def credits (L : Leases) (T : Finset (List UInt8)) : Nat := ∑ k ∈ T, L.credit f k

theorem credits_add_le {M : Leases} (T : Finset (List UInt8)) {c d : Nat}
    (hother : ∀ k, k ≠ g → M.credit f k ≤ L.credit f k)
    (hself : M.credit f g + c ≤ L.credit f g + d) :
    M.credits f T + (if g ∈ T then c else 0) ≤ L.credits f T + if g ∈ T then d else 0 := by
  unfold credits
  by_cases hg : g ∈ T
  · rw [if_pos hg, if_pos hg, ← Finset.add_sum_erase T _ hg, ← Finset.add_sum_erase T (L.credit f) hg]
    have hrest : ∑ k ∈ T.erase g, M.credit f k ≤ ∑ k ∈ T.erase g, L.credit f k :=
      Finset.sum_le_sum fun k hk => hother k (Finset.ne_of_mem_erase hk)
    omega
  · rw [if_neg hg, if_neg hg]
    exact Finset.sum_le_sum fun k hk => hother k fun heq => hg (heq ▸ hk)

theorem credits_grant_le (T : Finset (List UInt8)) {c d : Nat} (hle : f l + c ≤ L.credit f g + d) :
    (L.grant g l).credits f T + (if g ∈ T then c else 0) ≤
      L.credits f T + if g ∈ T then d else 0 := by
  refine credits_add_le f T (fun k hk => credit_grant_le f hk) ?_
  rwa [credit_grant_self]

theorem credits_grant_same (T : Finset (List UInt8)) {m : Lease} (hl : L.lease g = some l)
    (hsame : f m = f l) : (L.grant g m).credits f T ≤ L.credits f T := by
  have hle := credits_grant_le (L := L) (g := g) (l := m) f T (c := 0) (d := 0)
    (by rw [credit_eq f hl, hsame])
  rwa [ite_self] at hle

theorem credits_release_le (T : Finset (List UInt8)) {c : Nat} (hle : c ≤ L.credit f g) :
    (L.release g).credits f T + (if g ∈ T then c else 0) ≤ L.credits f T := by
  have hrelease := credits_add_le (M := L.release g) (L := L) (g := g) f T (c := c) (d := 0)
    (fun k hk => (credit_release_of_ne f hk).le) (by rwa [credit_release_self, Nat.zero_add])
  rwa [ite_self] at hrelease

theorem credits_empty (T : Finset (List UInt8)) : Leases.empty.credits f T = 0 :=
  Finset.sum_eq_zero fun _ _ => rfl

end Leases

/-! ### How often clients are told of their addresses -/

def Output.okIn (T : Finset (List UInt8)) : Output → Bool
  | .datagram (some g) _ bytes => decide (g ∈ T ∧ bytes[1]? = some TUNNEL_CMD_CONNECT_OK)
  | _ => false

def Request.connectIn (T : Finset (List UInt8)) : Request → Bool
  | .connect g _ _ => decide (g ∈ T)
  | _ => false

def Lease.resendsLeft (l : Lease) : Nat := SERVER_MAX_RESEND_COUNT.toNat - l.resends

theorem countP_okIn (T : Finset (List UInt8)) (g : List UInt8) (dst : SockAddr) (l : Lease) :
    [Output.datagram (some g) dst l.connectOk].countP (Output.okIn T) = if g ∈ T then 1 else 0 := by
  have hcmd : l.connectOk[1]? = some TUNNEL_CMD_CONNECT_OK := rfl
  rw [List.countP_singleton]
  simp [Output.okIn, hcmd]

/-- An answer that tells a client of its address costs one of the eleven times that a CONNECT is good
for. -/
theorem Serves.oks_le {L M : Leases} {r : Request} {out : List Output} (h : Serves L r M out)
    (T : Finset (List UInt8)) :
    M.credits Lease.resendsLeft T + out.countP (Output.okIn T) ≤
      L.credits Lease.resendsLeft T +
        if r.connectIn T then SERVER_MAX_RESEND_COUNT.toNat + 1 else 0 := by
  cases h with
  | accept | renew =>
      rename_i g l src now _
      rw [countP_okIn]
      have hoffered : (l.offered src now).resendsLeft + 1 ≤
          L.credit Lease.resendsLeft g + (SERVER_MAX_RESEND_COUNT.toNat + 1) := Nat.le_add_left _ _
      simpa [Request.connectIn] using Leases.credits_grant_le _ T hoffered
  | resend hl halarm hcb hstate hcount =>
      rename_i g l alarm now
      rw [countP_okIn]
      have hresent : (l.resent now).resendsLeft + 1 ≤ L.credit Lease.resendsLeft g + 0 := by
        rw [Leases.credit_eq _ hl]
        show SERVER_MAX_RESEND_COUNT.toNat - (l.resends + 1) + 1 ≤ _
        rw [Lease.resendsLeft]
        omega
      simpa [Request.connectIn] using Leases.credits_grant_le _ T hresent
  | confirm hl | settle hl | lapse hl => exact Leases.credits_grant_same _ T hl rfl
  | relay hl =>
      rename_i g l count packet src now
      have hsame : (l.heard src now).resendsLeft = l.resendsLeft := by
        unfold Lease.heard
        split <;> rfl
      exact Leases.credits_grant_same _ T hl hsame
  | giveUp hl | expire hl =>
      have hle := Leases.credits_release_le Lease.resendsLeft T (Leases.credit_eq _ hl).ge
      exact (Nat.le_add_right _ _).trans hle
  | deliver hl hcmd =>
      rw [List.countP_singleton, Output.okIn, decide_eq_false fun hok => hcmd hok.2]
      exact Nat.le_refl _
  | unconfirmed | refuse | drop | ignore => exact Nat.le_refl _

/-- Whatever else happens, clients are told of their addresses at most eleven times for each of their
CONNECTs. -/
theorem Served.oks_le {ps : List (Request × List Output)} {L : Leases} (h : Served .empty ps L)
    (T : Finset (List UInt8)) :
    L.credits Lease.resendsLeft T + (ps.flatMap Prod.snd).countP (Output.okIn T) ≤
      (SERVER_MAX_RESEND_COUNT.toNat + 1) * ps.countP fun p => p.1.connectIn T := by
  induction h with
  | nil => exact (Leases.credits_empty _ T).le
  | snoc hpast hserves ih =>
      have hstep := hserves.oks_le T
      rw [List.flatMap_append, List.flatMap_singleton, List.countP_append, List.countP_append,
        List.countP_singleton, Nat.mul_add]
      dsimp only
      split_ifs at hstep ⊢ <;> omega

/-! ### How much a gateway sends -/

def Request.isConnect : Request → Bool
  | .connect .. => true
  | _ => false

def Request.isPacketOut : Request → Bool
  | .packetOut .. => true
  | _ => false

def Request.isPacketIn : Request → Bool
  | .packetIn .. => true
  | _ => false

def Output.client : Output → Option (List UInt8)
  | .datagram g _ _ => g
  | .packet .. => none

def Output.isOk : Output → Bool
  | .datagram _ _ bytes => decide (bytes[1]? = some TUNNEL_CMD_CONNECT_OK)
  | _ => false

theorem Serves.length_le {L M : Leases} {r : Request} {out : List Output} (h : Serves L r M out) :
    out.length ≤ out.countP Output.isOk +
      ((if r.isPacketOut then 1 else 0) + if r.isPacketIn then 1 else 0) := by
  cases h with
  | accept | renew | resend => exact Nat.le_refl 1
  | relay | refuse | deliver => exact Nat.le_add_left _ _
  | confirm | unconfirmed | drop | giveUp | settle | expire | lapse | ignore => exact Nat.zero_le _

theorem Served.length_le {L M : Leases} {ps : List (Request × List Output)} (h : Served L ps M) :
    (ps.flatMap Prod.snd).length ≤ (ps.flatMap Prod.snd).countP Output.isOk +
      (ps.countP (fun p => p.1.isPacketOut) + ps.countP fun p => p.1.isPacketIn) := by
  induction h with
  | nil => exact Nat.le_refl 0
  | snoc hpast hserves ih =>
      have hstep := hserves.length_le
      rw [List.flatMap_append, List.flatMap_singleton, List.length_append, List.countP_append,
        List.countP_append, List.countP_append, List.countP_singleton, List.countP_singleton]
      dsimp only
      omega

theorem Serves.client_of_isOk {L M : Leases} {r : Request} {out : List Output} (h : Serves L r M out)
    {o : Output} (ho : o ∈ out) (hok : o.isOk) : ∃ g dst bytes, o = .datagram (some g) dst bytes := by
  cases h with
  | accept | renew | resend | deliver =>
      rw [List.mem_singleton] at ho
      exact ⟨_, _, _, ho⟩
  | relay | refuse =>
      rw [List.mem_singleton] at ho
      subst ho
      cases hok
  | confirm | unconfirmed | drop | giveUp | settle | expire | lapse | ignore => cases ho

theorem Served.client_of_isOk {L M : Leases} {ps : List (Request × List Output)} (h : Served L ps M)
    {o : Output} (ho : o ∈ ps.flatMap Prod.snd) (hok : o.isOk) :
    ∃ g dst bytes, o = .datagram (some g) dst bytes := by
  induction h with
  | nil => cases ho
  | snoc hpast hserves ih =>
      rw [List.flatMap_append, List.flatMap_singleton, List.mem_append] at ho
      exact ho.elim ih fun ho => hserves.client_of_isOk ho hok

/-- A gateway sends at most eleven datagrams for a CONNECT, and one datagram or packet for a packet. -/
theorem Served.outputs_le {ps : List (Request × List Output)} {L : Leases} (h : Served .empty ps L) :
    (ps.flatMap Prod.snd).length ≤
      (SERVER_MAX_RESEND_COUNT.toNat + 1) * ps.countP (fun p => p.1.isConnect) +
        (ps.countP (fun p => p.1.isPacketOut) + ps.countP fun p => p.1.isPacketIn) := by
  let T := ((ps.flatMap Prod.snd).filterMap Output.client).toFinset
  have hoks : (ps.flatMap Prod.snd).countP Output.isOk = (ps.flatMap Prod.snd).countP (Output.okIn T) := by
    refine List.countP_congr fun o ho => ⟨fun hok => ?_, fun hok => ?_⟩
    · obtain ⟨g, dst, bytes, rfl⟩ := h.client_of_isOk ho hok
      have hmem : g ∈ T := List.mem_toFinset.2 (List.mem_filterMap.2 ⟨_, ho, rfl⟩)
      exact decide_eq_true ⟨hmem, of_decide_eq_true hok⟩
    · obtain ⟨g | g, dst, bytes⟩ | ⟨count, bytes⟩ := o
      · cases hok
      · exact decide_eq_true (of_decide_eq_true hok).2
      · cases hok
  have hconnects : ps.countP (fun p => p.1.connectIn T) ≤ ps.countP fun p => p.1.isConnect := by
    refine List.countP_mono_left fun p _ hp => ?_
    obtain ⟨r, out⟩ := p
    cases r with
    | connect => rfl
    | confirm | packetOut | packetIn | alarm | other => cases hp
  have hle := h.oks_le T
  have hlength := h.length_le
  have hmul := Nat.mul_le_mul_left (SERVER_MAX_RESEND_COUNT.toNat + 1) hconnects
  omega

/-! ### How often alarms ring -/

def Request.alarmIn (T : Finset (List UInt8)) : Request → Bool
  | .alarm g _ _ => decide (g ∈ T)
  | _ => false

def Request.ringing : Request → Option (List UInt8)
  | .alarm g _ _ => some g
  | _ => none

/-- How often the alarm of a client may still ring, if nothing is heard of it. -/
def Lease.ringsLeft (l : Lease) : Nat :=
  match l.alarm with
  | none => 0
  | some alarm =>
    if alarm.cb = .timeoutCb then SERVER_MAX_RESEND_COUNT.toNat + 2 - l.resends else 1

/-- No client has been told of its address more than eleven times. -/
def Leases.Counted (L : Leases) : Prop :=
  ∀ g l, L.lease g = some l → l.resends ≤ SERVER_MAX_RESEND_COUNT.toNat

theorem Lease.Turn.counted {g : List UInt8} {l m : Lease} {r : Request} (h : l.Turn g r m)
    (hl : l.resends ≤ SERVER_MAX_RESEND_COUNT.toNat) : m.resends ≤ SERVER_MAX_RESEND_COUNT.toNat := by
  cases h with
  | stay | confirm | settle | lapse => exact hl
  | renew => exact Nat.zero_le _
  | relay =>
      unfold heard
      split <;> exact hl
  | resend _ _ _ hcount => exact hcount

theorem Serves.counted {L M : Leases} {r : Request} {out : List Output} (h : Serves L r M out)
    (hL : L.Counted) : M.Counted := by
  intro g m hm
  rcases h.turn hm with ⟨l, src, now, -, rfl⟩ | ⟨l, hl, hturn⟩
  · exact Nat.zero_le _
  · exact hturn.counted (hL g l hl)

theorem Leases.Counted.ringsLeft {L : Leases} {g : List UInt8} {l : Lease} (hL : L.Counted)
    {alarm : Timer} (hl : L.lease g = some l) (halarm : l.alarm = some alarm) :
    1 ≤ l.ringsLeft ∧
      (alarm.cb = .timeoutCb → l.ringsLeft = SERVER_MAX_RESEND_COUNT.toNat + 2 - l.resends) := by
  have hcount := hL g l hl
  rw [Lease.ringsLeft, halarm]
  dsimp only
  split_ifs with hcb
  · exact ⟨by omega, fun _ => rfl⟩
  · exact ⟨Nat.le_refl 1, fun hcb' => absurd hcb' hcb⟩

/-- An alarm that rings uses up credit, which only a CONNECT and a packet out give. -/
theorem Serves.alarms_le {L M : Leases} {r : Request} {out : List Output} (h : Serves L r M out)
    (hL : L.Counted) (T : Finset (List UInt8)) :
    M.credits Lease.ringsLeft T + (if r.alarmIn T then 1 else 0) ≤
      L.credits Lease.ringsLeft T +
        ((if r.isConnect then SERVER_MAX_RESEND_COUNT.toNat + 2 else 0) +
          if r.isPacketOut then 1 else 0) := by
  have hless : ∀ {g : List UInt8} {d : Nat}, (if g ∈ T then d else 0) ≤ d := by
    intro g d
    split_ifs
    · exact Nat.le_refl d
    · exact Nat.zero_le d
  cases h with
  | accept | renew =>
      rename_i g l src now _
      have hoffered : (l.offered src now).ringsLeft + 0 ≤
          L.credit Lease.ringsLeft g + (SERVER_MAX_RESEND_COUNT.toNat + 2) := Nat.le_add_left _ _
      have hle := Leases.credits_grant_le _ T hoffered
      rw [ite_self] at hle
      exact hle.trans (Nat.add_le_add_left hless _)
  | confirm hl => exact Leases.credits_grant_same _ T hl rfl
  | relay hl =>
      rename_i g l count packet src now
      have hheard : (l.heard src now).ringsLeft + 0 ≤ L.credit Lease.ringsLeft g + 1 := by
        rw [Leases.credit_eq _ hl]
        unfold Lease.heard
        split
        · exact Nat.le_add_left _ _
        · exact Nat.le_add_right _ _
      have hle := Leases.credits_grant_le _ T hheard
      rw [ite_self] at hle
      exact hle.trans (Nat.add_le_add_left hless _)
  | resend hl halarm hcb hstate hcount =>
      rename_i g l alarm now
      have hresent : (l.resent now).ringsLeft + 1 ≤ L.credit Lease.ringsLeft g + 0 := by
        rw [Leases.credit_eq _ hl, (hL.ringsLeft hl halarm).2 hcb]
        show SERVER_MAX_RESEND_COUNT.toNat + 2 - (l.resends + 1) + 1 ≤ _
        omega
      simpa [Request.alarmIn, Request.isConnect, Request.isPacketOut] using
        Leases.credits_grant_le _ T hresent
  | settle hl halarm hcb hstate =>
      rename_i g l alarm now
      have hcount := hL g l hl
      have hclosing : (l.closing now).ringsLeft + 1 ≤ L.credit Lease.ringsLeft g + 0 := by
        rw [Leases.credit_eq _ hl, (hL.ringsLeft hl halarm).2 hcb]
        show 1 + 1 ≤ _
        omega
      simpa [Request.alarmIn, Request.isConnect, Request.isPacketOut] using
        Leases.credits_grant_le _ T hclosing
  | giveUp hl halarm | expire hl halarm =>
      have hone := (hL.ringsLeft hl halarm).1
      rw [← Leases.credit_eq Lease.ringsLeft hl] at hone
      simpa [Request.alarmIn, Request.isConnect, Request.isPacketOut] using
        Leases.credits_release_le _ T hone
  | lapse hl halarm hcause =>
      rename_i g l alarm error now
      have hnone : Lease.ringsLeft { l with alarm := none } + 1 ≤ L.credit Lease.ringsLeft g + 0 := by
        rw [Leases.credit_eq _ hl]
        exact (hL.ringsLeft hl halarm).1
      simpa [Request.alarmIn, Request.isConnect, Request.isPacketOut] using
        Leases.credits_grant_le _ T hnone
  | unconfirmed | refuse | deliver | drop | ignore => exact Nat.le_add_right _ _

theorem Served.alarms_in_le {ps : List (Request × List Output)} {L : Leases} (h : Served .empty ps L)
    (T : Finset (List UInt8)) :
    L.Counted ∧
      L.credits Lease.ringsLeft T + ps.countP (fun p => p.1.alarmIn T) ≤
        (SERVER_MAX_RESEND_COUNT.toNat + 2) * ps.countP (fun p => p.1.isConnect) +
          ps.countP fun p => p.1.isPacketOut := by
  induction h with
  | nil => exact ⟨(fun g l hl => nomatch hl), (Leases.credits_empty _ T).le⟩
  | snoc hpast hserves ih =>
      obtain ⟨hcounted, hle⟩ := ih
      have hstep := hserves.alarms_le hcounted T
      refine ⟨hserves.counted hcounted, ?_⟩
      rw [List.countP_append, List.countP_append, List.countP_append, List.countP_singleton,
        List.countP_singleton, List.countP_singleton, Nat.mul_add]
      dsimp only
      split_ifs at hstep ⊢ <;> omega

/-- Over a whole dialogue alarms ring at most twelve times for each CONNECT and once for each packet
out. -/
theorem Served.alarms_le {ps : List (Request × List Output)} {L : Leases} (h : Served .empty ps L) :
    ps.countP (fun p => p.1.ringing.isSome) ≤
      (SERVER_MAX_RESEND_COUNT.toNat + 2) * ps.countP (fun p => p.1.isConnect) +
        ps.countP fun p => p.1.isPacketOut := by
  let T := (ps.filterMap fun p => p.1.ringing).toFinset
  have hall : ps.countP (fun p => p.1.ringing.isSome) = ps.countP fun p => p.1.alarmIn T := by
    refine List.countP_congr fun p hp => ?_
    obtain ⟨r, out⟩ := p
    cases r with
    | alarm g error now =>
        have hmem : g ∈ T := List.mem_toFinset.2 (List.mem_filterMap.2 ⟨_, hp, rfl⟩)
        simp [Request.ringing, Request.alarmIn, hmem]
    | connect | confirm | packetOut | packetIn | other => exact Iff.rfl
  rw [hall]
  exact (Nat.le_add_left _ _).trans (h.alarms_in_le T).2

/-! ### How long a lease lasts -/

def Request.time : Request → Option ℚ
  | .connect _ _ now => some now
  | .packetOut _ _ _ _ _ now => some now
  | .alarm _ _ now => some now
  | _ => none

/-- No alarm that is set is late by more than `delay` when the request comes. -/
def Leases.OnTime (L : Leases) (delay : ℚ) (r : Request) : Prop :=
  ∀ now, r.time = some now → ∀ g l alarm, L.lease g = some l → l.alarm = some alarm →
    now ≤ alarm.due + delay

def ConnectedAt (ps : List (Request × List Output)) (g : List UInt8) (time : ℚ) : Prop :=
  ∃ p ∈ ps, ∃ src, p.1 = .connect g src time

def HeardAt (ps : List (Request × List Output)) (g : List UInt8) (l : Lease) (time : ℚ) : Prop :=
  ConnectedAt ps g time ∨
    ∃ p ∈ ps, ∃ count packet src, p.1 = .packetOut l.ip l.sid count packet src time

/-- How long a handshake takes that is not answered, when alarms are late by up to `delay`. -/
def handshakeTime (delay : ℚ) : ℚ := (SERVER_MAX_RESEND_COUNT.toNat + 1) * (1 / 2 + delay)

/-- A lease with an alarm that is going to end it, counted from the time its client was last heard. -/
structure Lease.Running (delay : ℚ) (ps : List (Request × List Output)) (g : List UInt8) (l : Lease) :
    Prop where
  counted : l.resends ≤ SERVER_MAX_RESEND_COUNT.toNat
  heard : HeardAt ps g l l.seen
  connected : l.state = .connect → ConnectedAt ps g l.seen
  alarm : ∃ alarm, l.alarm = some alarm ∧
    ((alarm.cb = .timeoutCb ∧ alarm.due + delay ≤ l.seen + (l.resends + 1) * (1 / 2 + delay)) ∨
      (alarm.cb = .timeoutCbDeleteClient ∧ l.state = .connectDone ∧
        alarm.due ≤ l.seen + handshakeTime delay + CLIENT_TIMEOUT_TO_DELETE))

section Running

variable {delay : ℚ} {ps : List (Request × List Output)} {g : List UInt8} {l m : Lease} {r : Request}
  {out : List Output}

theorem ConnectedAt.append {time : ℚ} (h : ConnectedAt ps g time) (qs : List (Request × List Output)) :
    ConnectedAt (ps ++ qs) g time := by
  obtain ⟨p, hp, src, heq⟩ := h
  exact ⟨p, List.mem_append_left _ hp, src, heq⟩

theorem HeardAt.append {time : ℚ} (h : HeardAt ps g l time) (qs : List (Request × List Output)) :
    HeardAt (ps ++ qs) g l time := by
  rcases h with h | ⟨p, hp, hpacket⟩
  · exact Or.inl (h.append qs)
  · exact Or.inr ⟨p, List.mem_append_left _ hp, hpacket⟩

theorem handshakeTime_nonneg (hdelay : 0 ≤ delay) : 0 ≤ handshakeTime delay :=
  mul_nonneg (by positivity) (by linarith)

theorem Lease.Running.due_le (h : l.Running delay ps g) (hdelay : 0 ≤ delay) {alarm : Timer}
    (halarm : l.alarm = some alarm) :
    alarm.due ≤ l.seen + handshakeTime delay + CLIENT_TIMEOUT_TO_DELETE ∧
      (alarm.cb = .timeoutCb ∨ l.state = .connect →
        alarm.due + delay ≤ l.seen + handshakeTime delay) := by
  obtain ⟨a, ha, hdue⟩ := h.alarm
  obtain rfl : a = alarm := Option.some.inj (ha.symm.trans halarm)
  have hlong : (0 : ℚ) ≤ CLIENT_TIMEOUT_TO_DELETE := by norm_num [CLIENT_TIMEOUT_TO_DELETE]
  rcases hdue with ⟨-, hdue⟩ | ⟨hcb, hstate, hdue⟩
  · have hcount : ((l.resends : ℚ) + 1) * (1 / 2 + delay) ≤ handshakeTime delay := by
      refine mul_le_mul_of_nonneg_right ?_ (by linarith)
      have hcast : (l.resends : ℚ) ≤ (SERVER_MAX_RESEND_COUNT.toNat : ℚ) := by exact_mod_cast h.counted
      linarith
    exact ⟨by linarith, fun _ => by linarith⟩
  · refine ⟨hdue, fun hshort => ?_⟩
    rw [hcb, hstate] at hshort
    simp at hshort

theorem Lease.running_offered (l : Lease) (ps : List (Request × List Output)) (out : List Output)
    (src : SockAddr) (now : ℚ) :
    (l.offered src now).Running delay (ps ++ [(.connect g src now, out)]) g := by
  have hconnected : ConnectedAt (ps ++ [(.connect g src now, out)]) g now :=
    ⟨_, List.mem_append_right _ (List.mem_singleton_self _), src, rfl⟩
  refine ⟨Nat.zero_le _, Or.inl hconnected, fun _ => hconnected, _, rfl, Or.inl ⟨rfl, ?_⟩⟩
  show now + 1 / 2 + delay ≤ now + ((0 : Nat) + 1) * (1 / 2 + delay)
  push_cast
  linarith

/-- A request that comes on time keeps the lease running. A packet that comes an hour after its client was
last heard finds the handshake finished. -/
theorem Lease.Running.of_turn (h : l.Running delay ps g) (hdelay : 0 ≤ delay)
    (hshort : handshakeTime delay ≤ CLIENT_EXPAND_TIMEOUT_TIME) (hturn : l.Turn g r m)
    (htime : ∀ now, r.time = some now → ∀ alarm, l.alarm = some alarm → now ≤ alarm.due + delay)
    (herror : ∀ now, r ≠ .alarm g true now) : m.Running delay (ps ++ [(r, out)]) g := by
  have hdue_le := fun alarm => @Lease.Running.due_le delay ps g l h hdelay alarm
  obtain ⟨hcounted, hheard, hconnected, alarm, halarm, hdue⟩ := h
  have hheard' := hheard.append [(r, out)]
  have hconnected' := fun hstate => (hconnected hstate).append [(r, out)]
  have hhandshake : alarm.cb = .timeoutCb → alarm.due + delay ≤ l.seen + handshakeTime delay :=
    fun hcb => (hdue_le alarm halarm).2 (Or.inl hcb)
  cases hturn with
  | stay => exact ⟨hcounted, hheard', hconnected', alarm, halarm, hdue⟩
  | renew => exact running_offered _ _ _ _ _
  | confirm =>
      refine ⟨hcounted, hheard', (fun hstate => nomatch hstate), alarm, halarm, ?_⟩
      exact hdue.imp_right fun hdelete => ⟨hdelete.1, rfl, hdelete.2.2⟩
  | relay =>
      rename_i count packet src now
      have hle := htime now rfl alarm halarm
      unfold Lease.heard
      split_ifs with hpause
      · rcases hdue with ⟨hcb, -⟩ | ⟨hcb, hstate, -⟩
        · have hearly := hhandshake hcb
          exact absurd hpause (not_lt.2 (by linarith))
        · refine ⟨hcounted, Or.inr ⟨_, List.mem_append_right _ (List.mem_singleton_self _), count, packet,
            src, rfl⟩, (fun hconnect => ?_), _, rfl, Or.inr ⟨rfl, hstate, ?_⟩⟩
          · exact absurd (hstate.symm.trans hconnect) (by decide)
          · show now + CLIENT_TIMEOUT_TO_DELETE ≤ now + handshakeTime delay + CLIENT_TIMEOUT_TO_DELETE
            have hnonneg := handshakeTime_nonneg hdelay
            linarith
      · exact ⟨hcounted, hheard', hconnected', alarm, halarm, hdue⟩
  | resend halarm' hcb hstate hcount =>
      rename_i alarm' now
      obtain rfl : alarm = alarm' := Option.some.inj (halarm.symm.trans halarm')
      have hle := htime now rfl alarm halarm
      refine ⟨hcount, hheard', hconnected', _, rfl, Or.inl ⟨rfl, ?_⟩⟩
      rcases hdue with ⟨-, hdue⟩ | ⟨hdelete, -⟩
      · show now + 1 / 2 + delay ≤ l.seen + ((l.resends + 1 : Nat) + 1) * (1 / 2 + delay)
        push_cast
        linarith
      · exact absurd (hcb.symm.trans hdelete) (by decide)
  | settle halarm' hcb hstate =>
      rename_i alarm' now
      obtain rfl : alarm = alarm' := Option.some.inj (halarm.symm.trans halarm')
      have hle := htime now rfl alarm halarm
      have hearly := hhandshake hcb
      refine ⟨hcounted, hheard', hconnected', _, rfl, Or.inr ⟨rfl, hstate, ?_⟩⟩
      show now + CLIENT_TIMEOUT_TO_DELETE ≤ l.seen + handshakeTime delay + CLIENT_TIMEOUT_TO_DELETE
      linarith
  | lapse halarm' hcause =>
      rename_i alarm' error now
      obtain rfl : alarm = alarm' := Option.some.inj (halarm.symm.trans halarm')
      rcases hcause with rfl | ⟨hcb, hstate⟩
      · exact absurd rfl (herror now)
      · rcases hdue with ⟨htimeout, -⟩ | ⟨-, hdone, -⟩
        · exact absurd (htimeout.symm.trans hcb) (by decide)
        · exact absurd (hstate.symm.trans hdone) (by decide)

end Running

theorem Serves.running {L M : Leases} {r : Request} {out : List Output} (h : Serves L r M out)
    {delay : ℚ} {ps : List (Request × List Output)}
    (hL : ∀ g l, L.lease g = some l → l.Running delay ps g) (hdelay : 0 ≤ delay)
    (hshort : handshakeTime delay ≤ CLIENT_EXPAND_TIMEOUT_TIME) (htime : L.OnTime delay r)
    (herror : ∀ g now, r ≠ .alarm g true now) :
    ∀ g m, M.lease g = some m → m.Running delay (ps ++ [(r, out)]) g := by
  intro g m hm
  rcases h.turn hm with ⟨l, src, now, rfl, rfl⟩ | ⟨l, hl, hturn⟩
  · exact Lease.running_offered _ _ _ _ _
  · exact (hL g l hl).of_turn hdelay hshort hturn
      (fun now hnow alarm halarm => htime now hnow g l alarm hl halarm) (herror g)

end TunnelServer
