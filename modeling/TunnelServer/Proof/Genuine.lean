import TunnelServer.Proof.TunErrors

/-!
# Which packets are relayed

Both handlers take a client's address out of the packet without asking how long it is. If it does not
say version 4 they use the local as it is, and a header that was cut off continues with the zeros or the
older bytes behind it in the buffer.
-/

namespace TunnelServer

/-- An IPv4 packet with a complete header. -/
def GenuineIp (ippack : List UInt8) : Prop := 20 ≤ ippack.length ∧ ipVersion ippack = 4

instance (ippack : List UInt8) : Decidable (GenuineIp ippack) := inferInstanceAs (Decidable (_ ∧ _))

namespace Server

open ClientTable

variable {n : Nat} {s t : Server} {e : Event} {h : Handle} {c : Client} {ctx : ServerCtx} {env : Env}

/-- The step relays nothing but genuine packets: others have no effect in either direction, and what is
written to the tun device names a registered client as its source and came with that client's session
id. -/
structure RelaysGenuine (m : Server × Event × Server) : Prop where
  out : ∀ bytes src env, m.2.1 = .socketRead false (some (bytes, src)) env →
    bytes.getD TUNNEL_PAK_CMD_IDX 0 = TUNNEL_CMD_TRANS_OUT → ¬ GenuineIp (innerPacket bytes) →
      (∀ count packet, Effect.write count packet ∉ logged m.1 m.2.2) ∧
        m.2.2.clients = m.1.clients ∧ m.2.2.timers = m.1.timers
  back : ∀ packet junk, m.2.1 = .tunRead false (some packet) junk →
    ¬ GenuineIp (packet.take (TUNNEL_BUF_SIZE - sizeofTunnelTransInHeader)) →
      ∀ cli dst datagram, Effect.sendto cli dst datagram ∉ logged m.1 m.2.2
  written : ∀ count packet, Effect.write count packet ∈ logged m.1 m.2.2 →
    ∃ bytes src env h c, m.2.1 = .socketRead false (some (bytes, src)) env ∧
      packet = innerPacket bytes ∧ GenuineIp packet ∧ m.1.clients.Registered h c ∧
      ipSaddr packet = c.ip ∧ bytes.getD 2 0 = c.sid

/-- No other packet happens to lead to a client: in a trans-out datagram that is not genuine neither the
local nor the bytes in place of the source are the address of the client with its session id, and in a
packet from the tun device neither the local nor the bytes in place of the destination are the address
of any client. -/
structure StraysUnmatched (m : Server × Event) : Prop where
  out : ∀ bytes src env, m.2 = .socketRead false (some (bytes, src)) env →
    bytes.getD TUNNEL_PAK_CMD_IDX 0 = TUNNEL_CMD_TRANS_OUT → ¬ GenuineIp (innerPacket bytes) →
      ∀ h c, m.1.clients.Registered h c → c.sid = bytes.getD 2 0 →
        c.ip ≠ if ipVersion (innerPacket bytes) = 4 then ipSaddr (innerPacket bytes) else env.cliIp
  back : ∀ packet junk, m.2 = .tunRead false (some packet) junk →
    ¬ GenuineIp (packet.take (TUNNEL_BUF_SIZE - sizeofTunnelTransInHeader)) →
      m.1.Free (m.1.destination (packet.take (TUNNEL_BUF_SIZE - sizeofTunnelTransInHeader)) junk)

/-! ### Trans-out datagrams -/

theorem Sound.accepts_datagram_iff (hs : s.Sound n) {bytes : List UInt8} {src : SockAddr} :
    s.accepts (.socketRead false (some (bytes, src)) env) = some (h, datagramCtx bytes src, env) ↔
      bytes.getD TUNNEL_PAK_CMD_IDX 0 = TUNNEL_CMD_TRANS_OUT ∧
        ∃ c, s.clients.Registered h c ∧ c.sid = bytes.getD 2 0 ∧
          c.ip = if ipVersion (innerPacket bytes) = 4 then ipSaddr (innerPacket bytes)
            else env.cliIp := by
  have hcmd : (datagramCtx bytes src).cmd = bytes.getD TUNNEL_PAK_CMD_IDX 0 :=
    sockByte_datagramCtx bytes src (by decide)
  have hsid : (datagramCtx bytes src).transoutSid = bytes.getD 2 0 :=
    sockByte_datagramCtx bytes src (by decide)
  rw [accepts_eq_some, transoutIp_datagramCtx, hsid]
  constructor
  · intro hacc
    obtain ⟨c, hcommand, hfind, hc, hcsid⟩ := hacc
    obtain ⟨bytes', src', hevent, -, htrans⟩ := command_eq_some.1 hcommand
    obtain ⟨d, hr, hip⟩ := hs.agree.registered_of_findClient hfind
    cases hc.symm.trans hr.1
    exact ⟨hcmd.symm.trans htrans, c, hr, hcsid, hip⟩
  · intro hacc
    obtain ⟨htrans, c, hr, hcsid, hip⟩ := hacc
    exact ⟨c, if_pos (hcmd.trans htrans), hip ▸ hr.2, hr.1, hcsid⟩

theorem Sound.written_cases (hs : s.Sound n) (hstep : step s e = some t) {count : Int}
    {packet : List UInt8} (hw : Effect.write count packet ∈ logged s t) :
    ∃ bytes src env h, e = .socketRead false (some (bytes, src)) env ∧
      s.accepts e = some (h, datagramCtx bytes src, env) ∧
      count = (datagramCtx bytes src).ippackSize ∧ packet = innerPacket bytes := by
  obtain ⟨h, ctx, env, hacc⟩ := hs.accepts_of_onTun hstep hw (Or.inl ⟨count, packet, rfl⟩)
  obtain ⟨bytes, src, rfl, rfl, -⟩ := datagram_of_accepts hacc
  refine ⟨bytes, src, env, h, rfl, hacc, ?_⟩
  obtain ⟨c, c', timer, ys, -, -, hys, heq⟩ := hs.step_accepted hacc
  cases Option.some.inj (hstep.symm.trans heq)
  rw [logged_append rfl, List.mem_append] at hw
  rcases hw with hw | hw
  · rw [tunEffects, List.mem_cons] at hw
    rcases hw with hw | hw
    · obtain ⟨hcount, hpacket⟩ := Effect.write.inj hw
      exact ⟨hcount, hpacket.trans (take_ippack bytes src)⟩
    · split_ifs at hw <;> simp at hw
  · rcases hys with rfl | rfl <;> simp [refreshCalls] at hw

theorem Sound.write_of_accepts (hs : s.Sound n) (hstep : step s e = some t)
    (hacc : s.accepts e = some (h, ctx, env)) :
    ∃ count packet, Effect.write count packet ∈ logged s t := by
  obtain ⟨bytes, src, rfl, rfl, -⟩ := datagram_of_accepts hacc
  obtain ⟨c, c', timer, ys, -, -, -, heq⟩ := hs.step_accepted hacc
  cases Option.some.inj (hstep.symm.trans heq)
  rw [logged_append rfl]
  exact ⟨_, _, List.mem_cons_self⟩

/-- A datagram that is not accepted changes no client and writes nothing. -/
theorem Sound.refused (hs : s.Sound n) {bytes : List UInt8} {src : SockAddr}
    (hstep : step s (.socketRead false (some (bytes, src)) env) = some t)
    (htrans : bytes.getD TUNNEL_PAK_CMD_IDX 0 = TUNNEL_CMD_TRANS_OUT)
    (hnone : s.accepts (.socketRead false (some (bytes, src)) env) = none) :
    (∀ count packet, Effect.write count packet ∉ logged s t) ∧ t.pool = s.pool ∧
      t.clients = s.clients ∧ t.timers = s.timers := by
  have hcmd : (datagramCtx bytes src).cmd = TUNNEL_CMD_TRANS_OUT :=
    (sockByte_datagramCtx bytes src (by decide)).trans htrans
  refine ⟨fun count packet hw => ?_, ?_⟩
  · obtain ⟨bytes', src', env', h, -, hacc, -⟩ := hs.written_cases hstep hw
    rw [hnone] at hacc
    cases hacc
  · cases Option.some.inj (hstep.symm.trans (hs.step_refused hcmd hnone))
    exact ⟨rfl, rfl, rfl⟩

theorem Sound.out_iff (hs : s.Sound n) {bytes : List UInt8} {src : SockAddr}
    (hstep : step s (.socketRead false (some (bytes, src)) env) = some t)
    (htrans : bytes.getD TUNNEL_PAK_CMD_IDX 0 = TUNNEL_CMD_TRANS_OUT) :
    ((∀ count packet, Effect.write count packet ∉ logged s t) ∧ t.clients = s.clients ∧
        t.timers = s.timers) ↔
      ∀ h c, s.clients.Registered h c → c.sid = bytes.getD 2 0 →
        c.ip ≠ if ipVersion (innerPacket bytes) = 4 then ipSaddr (innerPacket bytes)
          else env.cliIp := by
  constructor
  · intro hnothing h c hr hsid hip
    obtain ⟨count, packet, hw⟩ := hs.write_of_accepts hstep
      (hs.accepts_datagram_iff.2 ⟨htrans, c, hr, hsid, hip⟩)
    exact hnothing.1 count packet hw
  · intro hunmatched
    have hnone : s.accepts (.socketRead false (some (bytes, src)) env) = none := by
      apply accepts_eq_none
      intro h hacc
      obtain ⟨-, c, hr, hsid, hip⟩ := hs.accepts_datagram_iff.1 hacc
      exact hunmatched h c hr hsid hip
    obtain ⟨hwrites, -, hclients, htimers⟩ := hs.refused hstep htrans hnone
    exact ⟨hwrites, hclients, htimers⟩

/-! ### Packets from the tun device -/

theorem Sound.back_iff (hs : s.Sound n) {received : Option (List UInt8)} {junk : UInt32}
    (hstep : step s (.tunRead false received junk) = some t) :
    (∀ cli dst datagram, Effect.sendto cli dst datagram ∉ logged s t) ↔
      s.Free ((s.ctx.tunBuffer.readTun received).transinIp junk) := by
  rw [hs.free_iff, Held, not_not]
  cases hfind : s.clients.findClient ((s.ctx.tunBuffer.readTun received).transinIp junk) with
  | none =>
      rw [step_tunRead_unknown hfind, Option.some.injEq] at hstep
      have hquiet : logged s t = [] := by
        rw [← hstep]
        exact logged_append (List.append_nil _).symm
      rw [hquiet]
      exact iff_of_true (fun _ _ _ => List.not_mem_nil) rfl
  | some h =>
      obtain ⟨c, hr, -⟩ := hs.agree.registered_of_findClient hfind
      rw [step_tunRead_known hfind hr.1, Option.some.injEq] at hstep
      subst hstep
      rw [logged_append rfl]
      refine iff_of_false (fun hnone => ?_) (Option.some_ne_none h)
      exact hnone _ _ _ List.mem_cons_self

/-! ### Every step -/

theorem Sound.relaysGenuine_iff (hs : s.Sound n) (hb : s.Buffered) (hstep : step s e = some t) :
    RelaysGenuine (s, e, t) ↔ StraysUnmatched (s, e) := by
  constructor
  · intro hgenuine
    refine ⟨fun bytes src env hevent htrans hbad => ?_, fun packet junk hevent hbad => ?_⟩
    · have he : e = .socketRead false (some (bytes, src)) env := hevent
      subst he
      exact (hs.out_iff hstep htrans).1 (hgenuine.out bytes src env rfl htrans hbad)
    · have he : e = .tunRead false (some packet) junk := hevent
      subst he
      have hfree := (hs.back_iff hstep).1 (hgenuine.back packet junk rfl hbad)
      rwa [hb.transinIp_readTun] at hfree
  · intro hunmatched
    refine ⟨fun bytes src env hevent htrans hbad => ?_, fun packet junk hevent hbad => ?_,
      fun count packet hw => ?_⟩
    · have he : e = .socketRead false (some (bytes, src)) env := hevent
      subst he
      exact (hs.out_iff hstep htrans).2 (hunmatched.out bytes src env rfl htrans hbad)
    · have he : e = .tunRead false (some packet) junk := hevent
      subst he
      refine (hs.back_iff hstep).2 ?_
      rw [hb.transinIp_readTun]
      exact hunmatched.back packet junk rfl hbad
    · obtain ⟨bytes, src, env, h, rfl, hacc, -, rfl⟩ := hs.written_cases hstep hw
      obtain ⟨htrans, c, hr, hsid, hip⟩ := hs.accepts_datagram_iff.1 hacc
      have hgood : GenuineIp (innerPacket bytes) := by
        by_contra hbad
        exact hunmatched.out bytes src env rfl htrans hbad h c hr hsid hip
      rw [if_pos hgood.2] at hip
      exact ⟨bytes, src, env, h, c, rfl, rfl, hgood, hr, hip.symm, hsid.symm⟩

end Server

open Server

/-- In every step of every run only genuine packets are relayed, exactly when no other packet happens to
lead to a registered client. -/
theorem relays_genuine_iff {n : Nat} (hmin : 2 ≤ n) (hmax : n ≤ 65533) (es : List Event)
    (m : Server × Event × Server) (hm : m ∈ Run.taken step (serverInit (ipPoolOf n)) es) :
    RelaysGenuine m ↔ StraysUnmatched (m.1, m.2.1) := by
  obtain ⟨hfrom, hstep, -⟩ := Run.of_mem_taken hm
  exact (sound_of_mem_visited hmin hmax hfrom).relaysGenuine_iff (buffered_of_mem_visited hfrom) hstep

def version6Out (cliIp : UInt32) : Event :=
  .socketRead false (some (transOutDatagram 0 [0x60], .inet 192 0 2 2)) { Env.at 1 with cliIp }

theorem relays_genuine_iff_version6 :
    ∃ s t, Run.exec step (serverInit (ipPoolOf 65533)) [firstConnect] = some s ∧
      (∃ c, s.clients.Registered 0 c) ∧ step s (version6Out (htonl minIp)) = some t ∧
      (RelaysGenuine (s, version6Out (htonl minIp), t) ↔
        StraysUnmatched (s, version6Out (htonl minIp))) := by
  have hruns : (Run.exec step (serverInit (ipPoolOf 65533)) [firstConnect]).any (fun s =>
      decide ((∃ c, s.clients.Registered 0 c) ∧
        (step s (version6Out (htonl minIp))).isSome)) = true := by
    decide +kernel
  obtain ⟨s, hrun, hs⟩ := (Option.any_eq_true _ _).1 hruns
  obtain ⟨hr, hsome⟩ := of_decide_eq_true hs
  obtain ⟨t, hstep⟩ := Option.isSome_iff_exists.1 hsome
  exact ⟨s, t, hrun, hr, hstep, relays_genuine_iff (by decide) le_rfl
    ([firstConnect] ++ [version6Out (htonl minIp)]) _ (Run.mem_taken_concat hrun hstep)⟩

/-- The local happens to hold the address of that client. -/
theorem version6_is_written :
    ¬ ∀ m ∈ Run.taken step (serverInit serverIpInit) [firstConnect, version6Out (htonl minIp)],
      RelaysGenuine m := by
  have hwrites : (step (serverInit serverIpInit) firstConnect).any (fun s =>
      (step s (version6Out (htonl minIp))).any fun t =>
        decide (Effect.write 1 [0x60] ∈ logged s t)) = true := by
    decide +kernel
  simp only [Option.any_eq_true, decide_eq_true_eq] at hwrites
  obtain ⟨s, hconnect, t, hstep, hw⟩ := hwrites
  intro hall
  rw [Run.taken_cons_some hconnect, Run.taken_cons_some hstep] at hall
  have hgenuine := hall (s, version6Out (htonl minIp), t)
    (List.mem_cons_of_mem _ List.mem_cons_self)
  exact (hgenuine.out _ _ _ rfl rfl (by decide)).1 1 [0x60] hw

end TunnelServer
