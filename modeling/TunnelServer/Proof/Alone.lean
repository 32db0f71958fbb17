import TunnelServer.Proof.Service

/-!
# Every client by itself

As long as a client stays registered, what the server makes of its lease and sends for it depends on
nothing but the requests that concern it: all the other clients and what is sent by anyone else might as
well not be there. A client that stays away can only lose its address to the pool handing it out again.
-/

namespace TunnelServer

namespace Leases

variable {L : Leases} {g k : List UInt8} {l l' m : Lease}

theorem lease_grant_other (hne : g ≠ k) (hl : L.lease g = some l) (hk : L.lease k = some l')
    (hip : m.ip = l'.ip) : (L.grant k m).lease g = some l :=
  (grant_of_ne hne).2 ⟨hl, fun hsame => hne (L.exclusive g k l l' hl hk (hsame.trans hip))⟩

theorem lease_release_other (hne : g ≠ k) : (L.release k).lease g = L.lease g := if_neg hne

end Leases

namespace Lease

variable {l : Lease} {g k : List UInt8} {error : Bool} {now : ℚ}

theorem not_resends_of_connectDone (hstate : l.state = .connectDone) : ¬ l.Resends := by
  rintro ⟨-, hconnect, -⟩
  rw [hstate] at hconnect
  cases hconnect

theorem answer_alarm_quiet (hquiet : ¬ l.Resends) : l.answer g (.alarm k error now) = [] :=
  if_neg fun hboth => hquiet hboth.2

end Lease

section Serves

variable {L M : Leases} {r : Request} {out : List Output} {g : List UInt8} {l : Lease}

theorem Serves.next_of_concerns (h : Serves L r M out) (hl : L.lease g = some l)
    (hr : r.concerns g l.ip l.sid = true) : M.lease g = l.next r ∧ out = l.answer g r := by
  have hsame : ∀ {k : List UInt8} {m : Lease}, L.lease k = some m → m.ip = l.ip → k = g ∧ m = l := by
    intro k m hk hip
    obtain rfl : k = g := L.exclusive k g m l hk hl hip
    exact ⟨rfl, Option.some.inj (hk.symm.trans hl)⟩
  cases h with
  | accept hnew =>
      obtain rfl := of_decide_eq_true hr
      rw [hnew] at hl
      cases hl
  | renew hk =>
      obtain rfl := of_decide_eq_true hr
      obtain rfl := Option.some.inj (hk.symm.trans hl)
      exact ⟨Leases.grant_self, rfl⟩
  | confirm hk =>
      obtain ⟨rfl, rfl⟩ := hsame hk (of_decide_eq_true hr)
      exact ⟨Leases.grant_self, rfl⟩
  | unconfirmed hfree => exact absurd (of_decide_eq_true hr).symm (hfree g l hl)
  | relay hk =>
      obtain ⟨rfl, rfl⟩ := hsame hk (of_decide_eq_true hr).1
      exact ⟨Leases.grant_self, rfl⟩
  | refuse hnot =>
      obtain ⟨hip, hsid⟩ := of_decide_eq_true hr
      exact absurd hsid.symm (hnot g l hl hip.symm)
  | deliver hk =>
      obtain ⟨rfl, rfl⟩ := hsame hk (of_decide_eq_true hr)
      exact ⟨hl, rfl⟩
  | drop hfree => exact absurd (of_decide_eq_true hr).symm (hfree g l hl)
  | resend hk halarm hcb hstate hcount =>
      obtain rfl := of_decide_eq_true hr
      obtain rfl := Option.some.inj (hk.symm.trans hl)
      have hresends : Lease.Resends _ := ⟨by rw [halarm, Option.map_some, hcb], hstate, hcount⟩
      refine ⟨?_, (if_pos ⟨rfl, hresends⟩).symm⟩
      rw [Leases.grant_self]
      simp [Lease.next, Lease.rung, halarm, hcb, hstate, hresends]
  | giveUp hk halarm hcb hstate hcount =>
      obtain rfl := of_decide_eq_true hr
      obtain rfl := Option.some.inj (hk.symm.trans hl)
      have hquiet : ¬ Lease.Resends _ := fun hresends => Nat.not_lt.2 hcount hresends.2.2
      refine ⟨?_, (Lease.answer_alarm_quiet hquiet).symm⟩
      simp [Leases.release, Lease.next, Lease.rung, halarm, hcb, hstate, hquiet]
  | settle hk halarm hcb hstate =>
      obtain rfl := of_decide_eq_true hr
      obtain rfl := Option.some.inj (hk.symm.trans hl)
      refine ⟨?_, (Lease.answer_alarm_quiet (Lease.not_resends_of_connectDone hstate)).symm⟩
      rw [Leases.grant_self]
      simp [Lease.next, Lease.rung, halarm, hcb, hstate]
  | expire hk halarm hcb hstate =>
      obtain rfl := of_decide_eq_true hr
      obtain rfl := Option.some.inj (hk.symm.trans hl)
      refine ⟨?_, (Lease.answer_alarm_quiet (Lease.not_resends_of_connectDone hstate)).symm⟩
      simp [Leases.release, Lease.next, Lease.rung, halarm, hcb, hstate]
  | lapse hk halarm hcause =>
      rename_i alarm error now
      obtain rfl := of_decide_eq_true hr
      obtain rfl := Option.some.inj (hk.symm.trans hl)
      rw [Leases.grant_self]
      cases error with
      | true => exact ⟨rfl, rfl⟩
      | false =>
          obtain ⟨hcb, hstate⟩ := hcause.resolve_left Bool.false_ne_true
          have hquiet : ¬ Lease.Resends _ := fun hresends => by
            have hsame := hresends.1
            rw [halarm, Option.map_some, hcb] at hsame
            cases hsame
          refine ⟨?_, (Lease.answer_alarm_quiet hquiet).symm⟩
          simp [Lease.next, Lease.rung, halarm, hcb, hstate]
  | ignore => cases hr

/-- A request that does not concern a client leaves its lease alone, unless it is the CONNECT of a new
client that is given the same address. -/
theorem Serves.others (h : Serves L r M out) (hl : L.lease g = some l)
    (hr : r.concerns g l.ip l.sid = false) :
    (∀ o ∈ out, o.client ≠ some g) ∧
      (M.lease g = some l ∨
        ∃ k src now m, r = .connect k src now ∧ L.lease k = none ∧ M.lease k = some m ∧
          m.ip = l.ip ∧ M.lease g = none) := by
  have hother : ∀ {k : List UInt8} {m : Lease}, L.lease k = some m → m ≠ l → g ≠ k := by
    intro k m hk hm heq
    subst heq
    exact hm (Option.some.inj (hk.symm.trans hl))
  have hsilent : ∀ o ∈ ([] : List Output), o.client ≠ some g := fun _ ho => nomatch ho
  -- what is sent on behalf of another client
  have hfor : ∀ {k : List UInt8} {dst : SockAddr} {bytes : List UInt8}, g ≠ k →
      ∀ o ∈ [Output.datagram (some k) dst bytes], o.client ≠ some g := by
    intro k dst bytes hne o ho hclient
    rw [List.mem_singleton] at ho
    subst ho
    exact hne (Option.some.inj hclient).symm
  have hnobody : ∀ {o' : Output}, o'.client = none → ∀ o ∈ [o'], o.client ≠ some g := by
    intro o' hnone o ho hclient
    rw [List.mem_singleton] at ho
    subst ho
    rw [hnone] at hclient
    cases hclient
  cases h with
  | accept hnew =>
      rename_i k m src now
      have hne : g ≠ k := fun heq => of_decide_eq_false hr heq.symm
      refine ⟨hfor hne, ?_⟩
      by_cases hip : m.ip = l.ip
      · refine Or.inr ⟨k, src, now, _, rfl, hnew, Leases.grant_self, hip, ?_⟩
        refine Option.eq_none_iff_forall_ne_some.2 fun l' hl' => ?_
        obtain ⟨hl', hip'⟩ := (Leases.grant_of_ne hne).1 hl'
        cases hl.symm.trans hl'
        exact hip' hip.symm
      · exact Or.inl ((Leases.grant_of_ne hne).2 ⟨hl, fun heq => hip heq.symm⟩)
  | renew hk =>
      have hne : g ≠ _ := fun heq => of_decide_eq_false hr heq.symm
      exact ⟨hfor hne, Or.inl (Leases.lease_grant_other hne hl hk rfl)⟩
  | confirm hk =>
      have hne := hother hk fun heq => of_decide_eq_false hr (congrArg Lease.ip heq)
      exact ⟨hsilent, Or.inl (Leases.lease_grant_other hne hl hk rfl)⟩
  | relay hk =>
      have hne := hother hk fun heq =>
        of_decide_eq_false hr ⟨congrArg Lease.ip heq, congrArg Lease.sid heq⟩
      refine ⟨hnobody rfl, Or.inl (Leases.lease_grant_other hne hl hk ?_)⟩
      unfold Lease.heard
      split <;> rfl
  | deliver hk =>
      have hne := hother hk fun heq => of_decide_eq_false hr (congrArg Lease.ip heq)
      exact ⟨hfor hne, Or.inl hl⟩
  | refuse => exact ⟨hnobody rfl, Or.inl hl⟩
  | unconfirmed | drop | ignore => exact ⟨hsilent, Or.inl hl⟩
  | resend hk =>
      have hne : g ≠ _ := fun heq => of_decide_eq_false hr heq.symm
      exact ⟨hfor hne, Or.inl (Leases.lease_grant_other hne hl hk rfl)⟩
  | settle hk | lapse hk =>
      have hne : g ≠ _ := fun heq => of_decide_eq_false hr heq.symm
      exact ⟨hsilent, Or.inl (Leases.lease_grant_other hne hl hk rfl)⟩
  | giveUp | expire =>
      have hne : g ≠ _ := fun heq => of_decide_eq_false hr heq.symm
      exact ⟨hsilent, Or.inl ((Leases.lease_release_other hne).trans hl)⟩

theorem Lease.next_keys {l' : Lease} (h : l.next r = some l') : l'.ip = l.ip ∧ l'.sid = l.sid := by
  cases r with
  | connect | confirm | packetIn | other =>
      cases h
      exact ⟨rfl, rfl⟩
  | packetOut =>
      cases h
      unfold Lease.heard
      split <;> exact ⟨rfl, rfl⟩
  | alarm g error now =>
      cases error with
      | true =>
          cases h
          exact ⟨rfl, rfl⟩
      | false =>
          change l.rung now = some l' at h
          unfold Lease.rung at h
          split at h
          · split_ifs at h
            cases h
            exact ⟨rfl, rfl⟩
          · cases h
            exact ⟨rfl, rfl⟩
          · cases h
          · cases h
            exact ⟨rfl, rfl⟩
          · cases h
            exact ⟨rfl, rfl⟩

end Serves

def Lease.exchange (g : List UInt8) (m : Lease × Request × Lease) : Request × List Output :=
  (m.2.1, m.1.answer g m.2.1)

namespace Server

variable {n : Nat} {s t : Server} {e : Event} {g : List UInt8} {l : Lease}

theorem exists_models (ha : s.clients.Agree) : ∃ L, s.Models L := by
  refine ⟨⟨s.leaseOf, ?_⟩, fun _ => rfl⟩
  intro k k' m m' hk hk' hip
  obtain ⟨h, c, hr, rfl, rfl⟩ := (leaseOf_eq_some ha).1 hk
  obtain ⟨h', c', hr', rfl, rfl⟩ := (leaseOf_eq_some ha).1 hk'
  obtain rfl := ha.registered_inj hr hr' (Or.inl hip)
  rw [ClientTable.Agree.registered_unique hr hr']

/-- An address is handed out when a CONNECT names a GUID that nobody is registered under, to the new
client, and then only. -/
theorem Sound.issued_cases (hs : s.Sound n) (hstep : step s e = some t) :
    (issuedIn (logged s t) = [] ∧
        ∀ k src now, s.request e = .connect k src now → s.leaseOf k ≠ none) ∨
      ∃ k src now m, s.request e = .connect k src now ∧ s.leaseOf k = none ∧
        t.leaseOf k = some m ∧ issuedIn (logged s t) = [(m.ip, m.sid)] := by
  cases hcmd : e.command TUNNEL_CMD_CONNECT with
  | none =>
      left
      constructor
      · cases hs.step_cases hstep with
        | quiet ctx xs halloc =>
            rw [logged_append rfl]
            exact halloc
        | lapse | expire =>
            show issuedIn (s.trace.drop s.trace.length) = []
            rw [List.drop_length]
            rfl
        | touch ctx hr htouch =>
            rw [logged_append rfl]
            exact htouch.issuedIn_eq_nil
        | create ctx' hconnect =>
            rw [hcmd] at hconnect
            cases hconnect
      · intro k src now hrequest
        have hdelivers := request_isConnect s e
        rw [hrequest, Event.delivers, hcmd] at hdelivers
        cases hdelivers
  | some d =>
      obtain ⟨ctx, env⟩ := d
      obtain ⟨L, hm⟩ := exists_models hs.agree
      obtain ⟨m, hafter, -, ⟨hl, hissued⟩ | ⟨hnew, hissued⟩⟩ := hm.connect_cases hs hcmd hstep
      · refine Or.inl ⟨hissued, fun k src now hrequest hnone => ?_⟩
        rw [request_connect hcmd] at hrequest
        cases hrequest
        rw [hm, hnone] at hl
        cases hl
      · exact Or.inr ⟨cString ctx.connectGuid, ctx.srcAddr, env.now, m.offered ctx.srcAddr env.now,
          request_connect hcmd, (hm _).symm.trans hnew, (hafter _).symm.trans Leases.grant_self, hissued⟩

theorem Sound.step_own (hs : s.Sound n) (hstep : step s e = some t) (hl : s.leaseOf g = some l)
    (hr : (s.request e).concerns g l.ip l.sid = true) :
    t.leaseOf g = l.next (s.request e) ∧ sent s t = l.answer g (s.request e) := by
  obtain ⟨L, hm⟩ := exists_models hs.agree
  obtain ⟨M, htm, hserves⟩ := serves hm hs hstep
  rw [← htm g]
  exact hserves.next_of_concerns ((hm g).trans hl) hr

/-- A step that does not concern a client sends nothing for it. It takes its lease away when it hands out
its address, and otherwise leaves it alone. -/
theorem Sound.step_others (hs : s.Sound n) (hstep : step s e = some t) (hl : s.leaseOf g = some l)
    (hr : (s.request e).concerns g l.ip l.sid = false) :
    (∀ o ∈ sent s t, o.client ≠ some g) ∧
      t.leaseOf g = if l.ip ∈ (issuedIn (logged s t)).map Prod.fst then none else some l := by
  obtain ⟨L, hm⟩ := exists_models hs.agree
  obtain ⟨M, htm, hserves⟩ := serves hm hs hstep
  obtain ⟨hsent, hkept⟩ := hserves.others ((hm g).trans hl) hr
  refine ⟨hsent, ?_⟩
  rw [← htm g]
  rcases hs.issued_cases hstep with ⟨hissued, hknown⟩ | ⟨k, src, now, m, hrequest, hnew, htaken, hissued⟩
  · rw [hissued, List.map_nil, if_neg List.not_mem_nil]
    refine hkept.resolve_right fun hcase => ?_
    obtain ⟨k, src, now, m, hrequest, hnew, -⟩ := hcase
    exact hknown k src now hrequest ((hm k).symm.trans hnew)
  · have hgk : g ≠ k := by
      intro heq
      rw [heq, hnew] at hl
      cases hl
    rw [← htm k] at htaken
    rw [hissued, List.map_singleton]
    by_cases hip : l.ip = m.ip
    · rw [if_pos (List.mem_singleton.2 hip)]
      obtain hsame | ⟨-, -, -, -, -, -, -, -, hnone⟩ := hkept
      · exact absurd (M.exclusive g k l m hsame htaken hip) hgk
      · exact hnone
    · rw [if_neg fun hmem => hip (List.mem_singleton.1 hmem)]
      refine hkept.resolve_right fun hcase => ?_
      obtain ⟨k', src', now', m', hrequest', -, htaken', hip', -⟩ := hcase
      rw [hrequest] at hrequest'
      cases hrequest'
      rw [htaken] at htaken'
      cases htaken'
      exact hip hip'.symm

/-- The exchanges of a run that concern a client with this lease. -/
def concerning (g : List UInt8) (l : Lease) (s : Server) (es : List Event) :
    List (Request × List Output) :=
  ((Run.taken step s es).map exchange).filter fun p => p.1.concerns g l.ip l.sid

section Stays

variable (hs : s.Sound n) {es : List Event} (hl : s.leaseOf g = some l)
  (hstays : ∀ u ∈ Run.visited step s es, (u.leaseOf g).isSome)
include hs hl hstays

theorem Sound.keys_of_stays : ∀ u ∈ Run.visited step s es,
    u.Sound n ∧ ∃ m, u.leaseOf g = some m ∧ m.ip = l.ip ∧ m.sid = l.sid := by
  refine Run.forall_visited_of_forall_taken
    (C := fun u e => ∀ v, step u e = some v → (v.leaseOf g).isSome) ?_ ⟨hs, l, hl, rfl, rfl⟩ ?_
  · intro u e v hu hlive hstep
    obtain ⟨hsound, m, hm, hip, hsid⟩ := hu
    refine ⟨hsound.of_step hstep, ?_⟩
    obtain ⟨m', hm'⟩ := Option.isSome_iff_exists.1 (hlive v hstep)
    refine ⟨m', hm', ?_⟩
    cases hr : (u.request e).concerns g m.ip m.sid with
    | true =>
        rw [(hsound.step_own hstep hm hr).1] at hm'
        obtain ⟨hip', hsid'⟩ := Lease.next_keys hm'
        exact ⟨hip'.trans hip, hsid'.trans hsid⟩
    | false =>
        rw [(hsound.step_others hstep hm hr).2] at hm'
        split_ifs at hm'
        cases hm'
        exact ⟨hip, hsid⟩
  · intro x hx v hstep
    obtain ⟨-, hmove, hto⟩ := Run.of_mem_taken hx
    cases hmove.symm.trans hstep
    exact hstays _ hto

theorem Sound.silent_of_others {x : Server × Event × Server} (hx : x ∈ Run.taken step s es)
    (hr : (x.1.request x.2.1).concerns g l.ip l.sid = false) :
    ∀ o ∈ sent x.1 x.2.2, o.client ≠ some g := by
  obtain ⟨hfrom, hmove, -⟩ := Run.of_mem_taken hx
  obtain ⟨hsound, m, hm, hip, hsid⟩ := hs.keys_of_stays hl hstays _ hfrom
  rw [← hip, ← hsid] at hr
  exact (hsound.step_others hmove hm hr).1

/-- The exchanges that concern it are a run of its lease. -/
theorem Sound.exec_alone (hrun : Run.exec step s es = some t) :
    t.leaseOf g = Run.exec Lease.next l ((concerning g l s es).map Prod.fst) ∧
      concerning g l s es =
        (Run.taken Lease.next l ((concerning g l s es).map Prod.fst)).map (Lease.exchange g) := by
  have hown : concerning g l s es = (Run.taken step s es).filterMap fun x =>
      Option.guard (fun p => p.1.concerns g l.ip l.sid) (exchange x) := by
    rw [concerning, ← List.filterMap_eq_filter, List.filterMap_map]
    rfl
  have hkeys := hs.keys_of_stays hl hstays
  rw [hown]
  refine Run.exec_part ?_ ?_ hstays hrun hl
  · intro x hx m hm hforeign
    obtain ⟨hfrom, hmove, hto⟩ := Run.of_mem_taken hx
    obtain ⟨hsound, m', hm', hip, hsid⟩ := hkeys _ hfrom
    cases hm.symm.trans hm'
    have hr := Option.guard_eq_none_iff.1 hforeign
    change (exchange x).1.concerns g l.ip l.sid = false at hr
    rw [← hip, ← hsid] at hr
    have hafter := (hsound.step_others hmove hm hr).2
    have hlive := hstays _ hto
    rw [hafter] at hlive ⊢
    split_ifs at hlive ⊢
    · cases hlive
    · rfl
  · intro x hx m p hm hmine
    obtain ⟨hfrom, hmove, -⟩ := Run.of_mem_taken hx
    obtain ⟨hsound, m', hm', hip, hsid⟩ := hkeys _ hfrom
    cases hm.symm.trans hm'
    obtain ⟨rfl, hr⟩ := Option.guard_eq_some_iff.1 hmine
    rw [← hip, ← hsid] at hr
    obtain ⟨hafter, hsent⟩ := hsound.step_own hmove hm hr
    exact ⟨hafter, fun _ _ => Prod.ext rfl hsent⟩

end Stays

/-- A lease is lost in two ways. -/
theorem Sound.lost_iff (hs : s.Sound n) (hstep : step s e = some t) (hl : s.leaseOf g = some l) :
    t.leaseOf g = none ↔
      ((s.request e).concerns g l.ip l.sid = true ∧ l.next (s.request e) = none) ∨
        l.ip ∈ (issuedIn (logged s t)).map Prod.fst := by
  cases hr : (s.request e).concerns g l.ip l.sid with
  | false =>
      rw [(hs.step_others hstep hl hr).2, ite_eq_left_iff]
      simp
  | true =>
      have hnot : l.ip ∉ (issuedIn (logged s t)).map Prod.fst := by
        obtain ⟨hissued, -⟩ | ⟨k, src, now, m, hrequest, hnew, -⟩ := hs.issued_cases hstep
        · rw [hissued]
          exact List.not_mem_nil
        · rw [hrequest] at hr
          obtain rfl := of_decide_eq_true hr
          rw [hnew] at hl
          cases hl
      rw [(hs.step_own hstep hl hr).1]
      simp [hnot]

end Server

/-- From any moment of any run, as long as a client stays registered, its lease is that of a client alone
with the server and sees only the requests that concern it, which are answered as that lease says. The
server sends nothing for the client in any other step. The lease ends by its own alarm, or when its
address is handed out again. -/
theorem clients_independent {n : Nat} (hmin : 2 ≤ n) (hmax : n ≤ 65533) {es fs : List Event}
    {s t : Server} (hrun : Run.exec step (serverInit (ipPoolOf n)) es = some s)
    (hrest : Run.exec step s fs = some t) {g : List UInt8} {l : Lease} (hl : s.leaseOf g = some l)
    (hstays : ∀ u ∈ Run.visited step s fs, (u.leaseOf g).isSome) :
    t.leaseOf g = Run.exec Lease.next l ((Server.concerning g l s fs).map Prod.fst) ∧
      Server.concerning g l s fs =
        (Run.taken Lease.next l ((Server.concerning g l s fs).map Prod.fst)).map (Lease.exchange g) ∧
      (∀ m ∈ Run.taken step s fs, (m.1.request m.2.1).concerns g l.ip l.sid = false →
        ∀ o ∈ Server.sent m.1 m.2.2, o.client ≠ some g) ∧
      ∀ m e u, t.leaseOf g = some m → step t e = some u →
        (u.leaseOf g = none ↔
          ((t.request e).concerns g m.ip m.sid = true ∧ m.next (t.request e) = none) ∨
            m.ip ∈ (issuedIn (logged t u)).map Prod.fst) := by
  have hs := Server.sound_of_exec hmin hmax hrun
  obtain ⟨hend, hown⟩ := hs.exec_alone hl hstays hrest
  refine ⟨hend, hown, fun x hx hr => hs.silent_of_others hl hstays hx hr, ?_⟩
  intro m e u hm hstep
  obtain ⟨hsound, -⟩ := hs.keys_of_stays hl hstays t (Run.exec_mem_visited hrest)
  exact hsound.lost_iff hstep hm

theorem clients_independent_comingAndGoing :
    ∃ s t u l m, Run.exec step (serverInit (ipPoolOf 65533)) (comingAndGoing.take 1) = some s ∧
      Run.exec step s ((comingAndGoing.drop 1).take 4) = some t ∧ s.leaseOf [0x61] = some l ∧
      t.leaseOf [0x61] = Run.exec Lease.next l
        ((Server.concerning [0x61] l s ((comingAndGoing.drop 1).take 4)).map Prod.fst) ∧
      t.leaseOf [0x61] = some m ∧ step t (.fires 0 (1 + CLIENT_TIMEOUT_TO_DELETE)) = some u ∧
      u.leaseOf [0x61] = none ∧
      (((t.request (.fires 0 (1 + CLIENT_TIMEOUT_TO_DELETE))).concerns [0x61] m.ip m.sid = true ∧
          m.next (t.request (.fires 0 (1 + CLIENT_TIMEOUT_TO_DELETE))) = none) ∨
        m.ip ∈ (issuedIn (logged t u)).map Prod.fst) := by
  have hruns : (Run.exec step (serverInit (ipPoolOf 65533)) (comingAndGoing.take 1)).any (fun s =>
      decide (∀ u ∈ Run.visited step s ((comingAndGoing.drop 1).take 4),
        (u.leaseOf [0x61]).isSome) && (Run.exec step s ((comingAndGoing.drop 1).take 4)).any fun t =>
          (step t (.fires 0 (1 + CLIENT_TIMEOUT_TO_DELETE))).any
            fun u => (u.leaseOf [0x61]).isNone) = true := by
    decide +kernel
  obtain ⟨s, hrun, hs⟩ := (Option.any_eq_true _ _).1 hruns
  obtain ⟨hlive, ht⟩ := Bool.and_eq_true_iff.1 hs
  obtain ⟨t, hrest, ht⟩ := (Option.any_eq_true _ _).1 ht
  obtain ⟨u, hstep, hnone⟩ := (Option.any_eq_true _ _).1 ht
  have hstays := of_decide_eq_true hlive
  have hlost := Option.isNone_iff_eq_none.1 hnone
  obtain ⟨l, hl⟩ := Option.isSome_iff_exists.1 (hstays s (Run.mem_visited_self s _))
  obtain ⟨m, hm⟩ := Option.isSome_iff_exists.1 (hstays t (Run.exec_mem_visited hrest))
  obtain ⟨halone, -, -, hends⟩ := clients_independent (by decide) le_rfl hrun hrest hl hstays
  exact ⟨s, t, u, l, m, hrun, hrest, hl, halone, hm, hstep, hlost, (hends m _ u hm hstep).1 hlost⟩

end TunnelServer
