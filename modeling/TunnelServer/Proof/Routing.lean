import TunnelServer.Proof.Genuine
import TunnelServer.Proof.Guids

/-!
# Where a client's packets go

A client tells the server where it is by its CONNECTs and by the trans-out datagrams accepted for it.
The source address in its record is that of the last of these, and a packet read from the tun device is
sent there as it is, behind a header.
-/

namespace TunnelServer

/-- A CONNECT contains its whole GUID, which has no NUL, and a trans-out datagram a complete IPv4
header. -/
def Event.WellFormed : Event → Prop
  | .socketRead false (some (bytes, src)) env =>
    (bytes.getD TUNNEL_PAK_CMD_IDX 0 = TUNNEL_CMD_CONNECT →
        ∃ guid, (Event.socketRead false (some (bytes, src)) env).guidField = some guid ∧ 0 ∉ guid) ∧
      (bytes.getD TUNNEL_PAK_CMD_IDX 0 = TUNNEL_CMD_TRANS_OUT → GenuineIp (innerPacket bytes))
  | _ => True

instance (e : Event) : Decidable e.WellFormed :=
  match e with
  | .socketRead false (some (bytes, src)) env =>
    have : Decidable (∃ guid, (Event.socketRead false (some (bytes, src)) env).guidField = some guid ∧
        0 ∉ guid) :=
      decidable_of_iff (((Event.socketRead false (some (bytes, src)) env).guidField.any fun guid =>
        decide (0 ∉ guid)) = true) (by simp [Option.any_eq_true])
    inferInstanceAs (Decidable (_ ∧ _))
  | .socketRead false none _ | .socketRead true _ _ | .tunRead .. | .timer .. => isTrue trivial

/-- Where an event says a client is: a CONNECT with its GUID, or a trans-out datagram with its address
and session id. -/
def Client.locatedBy (c : Client) : Event → Option SockAddr
  | .socketRead false (some (bytes, src)) env =>
    if (Event.socketRead false (some (bytes, src)) env).guidField = some (cString c.guid) then some src
    else if bytes.getD TUNNEL_PAK_CMD_IDX 0 = TUNNEL_CMD_TRANS_OUT ∧
        ipSaddr (innerPacket bytes) = c.ip ∧ bytes.getD 2 0 = c.sid then some src
    else none
  | _ => none

theorem Client.locatedBy_congr {c c' : Client} (hguid : c'.guid = c.guid) (hip : c'.ip = c.ip)
    (hsid : c'.sid = c.sid) (e : Event) : c'.locatedBy e = c.locatedBy e := by
  unfold Client.locatedBy
  rw [hguid, hip, hsid]

theorem Client.locatedBy_eq_some {c : Client} {e : Event} {src : SockAddr} :
    c.locatedBy e = some src ↔
      ∃ bytes env, e = .socketRead false (some (bytes, src)) env ∧
        (e.guidField = some (cString c.guid) ∨
          (bytes.getD TUNNEL_PAK_CMD_IDX 0 = TUNNEL_CMD_TRANS_OUT ∧
            ipSaddr (innerPacket bytes) = c.ip ∧ bytes.getD 2 0 = c.sid)) := by
  constructor
  · intro hlocated
    cases e with
    | tunRead | timer => cases hlocated
    | socketRead error received env =>
        rcases error with _ | _ <;> rcases received with _ | ⟨bytes, src'⟩
        · cases hlocated
        · simp only [Client.locatedBy] at hlocated
          split_ifs at hlocated with hguid hmatch
          · cases hlocated
            exact ⟨bytes, env, rfl, Or.inl hguid⟩
          · cases hlocated
            exact ⟨bytes, env, rfl, Or.inr hmatch⟩
        · cases hlocated
        · cases hlocated
  · intro hlocated
    obtain ⟨bytes, env, rfl, hguid | hmatch⟩ := hlocated
    · simp only [Client.locatedBy, if_pos hguid]
    · simp only [Client.locatedBy, if_pos hmatch, ite_self]

theorem cString_idem (bytes : List UInt8) : cString (cString bytes) = cString bytes := by
  refine cString_eq_self fun hmem => ?_
  exact absurd (List.mem_takeWhile_imp hmem) (by decide)

namespace Server

open ClientTable

variable {n : Nat} {s t : Server} {e : Event} {h : Handle} {c c' : Client} {ctx : ServerCtx} {env : Env}

/-! ### What moves the source address of a client -/

/-- A well-formed CONNECT under a client's GUID says where that client is. -/
theorem locatedBy_connect (hwf : e.WellFormed)
    (hcmd : e.command TUNNEL_CMD_CONNECT = some (ctx, env))
    (hguid : cString c.guid = cString ctx.connectGuid) : c.locatedBy e = some ctx.srcAddr := by
  obtain ⟨bytes, src, rfl, rfl, hconnect⟩ := command_eq_some.1 hcmd
  obtain ⟨guid, hfield, hnul⟩ := hwf.1 ((sockByte_datagramCtx bytes src (by decide)).symm.trans hconnect)
  obtain ⟨ctx, env', hcmd', -, hkey⟩ := command_of_guidField hfield
  obtain ⟨-, rfl, -⟩ := command_inj hcmd hcmd'
  refine Client.locatedBy_eq_some.2 ⟨bytes, env, rfl, Or.inl ?_⟩
  rw [hfield, hguid, hkey, cString_terminated, cString_eq_self hnul]

theorem Sound.locatedBy_accepted (hs : s.Sound n) (hwf : e.WellFormed)
    (hr : s.clients.Registered h c) (hacc : s.accepts e = some (h, ctx, env)) :
    c.locatedBy e = some ctx.srcAddr := by
  obtain ⟨bytes, src, rfl, rfl, -⟩ := datagram_of_accepts hacc
  obtain ⟨htrans, d, hd, hsid, hip⟩ := hs.accepts_datagram_iff.1 hacc
  cases Agree.registered_unique hr hd
  rw [if_pos (hwf.2 htrans).2] at hip
  exact Client.locatedBy_eq_some.2 ⟨bytes, env, rfl, Or.inr ⟨htrans, hip.symm, hsid.symm⟩⟩

/-- When an event says where a registered client is, the client's record has it afterwards. -/
theorem Sound.srcAddr_of_located (hs : s.Sound n) (hwf : e.WellFormed) (hstep : step s e = some t)
    (hr : s.clients.Registered h c) {src : SockAddr} (hlocated : c.locatedBy e = some src) :
    ∃ c', t.clients.Registered h c' ∧ c'.srcAddr = src := by
  obtain ⟨bytes, env, rfl, hguid | ⟨htrans, hip, hsid⟩⟩ := Client.locatedBy_eq_some.1 hlocated
  · obtain ⟨ctx, env', hcmd, hlen, hkey⟩ := command_of_guidField hguid
    have hfind : s.clients.findClientByGuid ctx.connectGuid = some h := by
      rw [findClientByGuid, hkey, cString_terminated, cString_idem]
      exact hs.agree.findGuid_of_registered hr
    obtain ⟨ctx', heq⟩ := step_reconnect hcmd hlen hfind hr
    cases Option.some.inj (hstep.symm.trans heq)
    obtain ⟨bytes', src', hevent, rfl, -⟩ := command_eq_some.1 hcmd
    cases hevent
    exact ⟨_, registered_set_self hr rfl, rfl⟩
  · have hacc : s.accepts (.socketRead false (some (bytes, src)) env) =
        some (h, datagramCtx bytes src, env) := by
      rw [hs.accepts_datagram_iff, if_pos (hwf.2 htrans).2]
      exact ⟨htrans, c, hr, hsid.symm, hip.symm⟩
    obtain ⟨-, -, -, -, hcmd⟩ := datagram_of_accepts hacc
    obtain ⟨d, c', timer, ys, hd, htouch, -, heq⟩ := hs.step_accepted hacc
    cases Agree.registered_unique hr hd
    cases Option.some.inj (hstep.symm.trans heq)
    exact ⟨c', registered_set_self hr htouch.keys.2.1, (htouch.of_transOut hcmd).1⟩

theorem Sound.srcAddr_of_not_located (hs : s.Sound n) (hwf : e.WellFormed)
    (hstep : step s e = some t) (hr : s.clients.Registered h c) (hr' : t.clients.Registered h c')
    (hnone : c.locatedBy e = none) : c'.srcAddr = c.srcAddr := by
  have hunlocated : ∀ src, c.locatedBy e ≠ some src := by
    intro src hsome
    rw [hnone] at hsome
    cases hsome
  rcases (hs.step_cases hstep).heap_cases hs.agree hr'.1 with
    ⟨hbrk, -⟩ | ⟨d, timer, xs, hd, htouch⟩ | hsame
  · exact absurd hbrk (hs.agree.heap_ne_brk hr.1)
  · cases Agree.registered_unique hr hd
    cases htouch with
    | reconnect hcmd hlen hfind =>
        obtain ⟨d, hd, hguid⟩ := hs.agree.registered_of_findGuid hfind
        cases Agree.registered_unique hr hd
        exact absurd (locatedBy_connect hwf hcmd hguid) (hunlocated _)
    | traffic hcmd hfind hsid | refresh hcmd hfind hsid =>
        have hacc := accepts_eq_some.2 ⟨c, hcmd, hfind, hr.1, hsid⟩
        exact absurd (hs.locatedBy_accepted hwf hr hacc) (hunlocated _)
    | connectDone | resend | settle => rfl
  · rw [Option.some.inj (hsame.symm.trans hr.1)]

/-- A client that is new after a step comes from a CONNECT, which says where it is. -/
theorem Sound.located_of_new (hs : s.Sound n) (hwf : e.WellFormed) (hstep : step s e = some t)
    (hnew : s.clients.brk ≤ h) (hr' : t.clients.Registered h c') :
    c'.locatedBy e = some c'.srcAddr := by
  have hold : ∀ d, s.clients.heap h ≠ some d := fun d hd =>
    absurd (hs.agree.heap_lt h d hd) (Nat.not_lt.2 hnew)
  rcases (hs.step_cases hstep).heap_cases hs.agree hr'.1 with
    ⟨-, ctx, env, m, hcmd, rfl⟩ | ⟨d, timer, xs, hd, -⟩ | hsame
  · exact locatedBy_connect hwf hcmd (cString_freshClient s ctx m)
  · exact absurd hd.1 (hold d)
  · exact absurd hsame (hold c')

structure Located (n : Nat) (past : List Event) (s : Server) : Prop where
  sound : s.Sound n
  srcAddr : ∀ h c, s.clients.Registered h c → Run.latest c.locatedBy past = some c.srcAddr

theorem Located.of_step {past : List Event} (hs : s.Located n past) (hwf : e.WellFormed)
    (hstep : step s e = some t) : t.Located n (past ++ [e]) := by
  refine ⟨hs.sound.of_step hstep, fun h c' hr' => ?_⟩
  rw [Run.latest_concat]
  by_cases hlt : h < s.clients.brk
  · obtain ⟨c, hr, hguid, hip, hsid⟩ := hs.sound.registered_before hstep hlt hr'
    have hsame : c'.locatedBy = c.locatedBy := funext (Client.locatedBy_congr hguid hip hsid)
    rw [hsame]
    cases hlocated : c.locatedBy e with
    | some src =>
        obtain ⟨d, hd, rfl⟩ := hs.sound.srcAddr_of_located hwf hstep hr hlocated
        rw [Agree.registered_unique hr' hd]
        rfl
    | none =>
        rw [hs.sound.srcAddr_of_not_located hwf hstep hr hr' hlocated]
        exact hs.srcAddr h c hr
  · rw [hs.sound.located_of_new hwf hstep (Nat.le_of_not_lt hlt) hr']
    rfl

/-! ### A packet for a client -/

/-- A packet with a complete header is for the address in it, whatever the buffer held before. -/
theorem destination_of_genuine (s : Server) {packet : List UInt8} (hgenuine : GenuineIp packet)
    (junk : UInt32) : s.destination packet junk = ipDaddr packet := by
  obtain ⟨hlen, hversion⟩ := hgenuine
  have hbyte : ∀ i < 20, (memcpy (s.ctx.tunBuffer.data.drop sizeofTunnelTransInHeader) packet).getD i 0 =
      packet.getD i 0 := by
    intro i hi
    rw [memcpy, List.getD_eq_getElem?_getD, List.getElem?_append_left (by omega),
      ← List.getD_eq_getElem?_getD]
  rw [destination, if_pos]
  · simp only [ipDaddr, leWord, getD_drop]
    rw [hbyte _ (by decide), hbyte _ (by decide), hbyte _ (by decide), hbyte _ (by decide)]
  · rw [ipVersion, hbyte _ (by decide)]
    exact hversion

theorem Buffered.transinPacket_readTun (hs : s.Buffered) {packet : List UInt8}
    (hlen : packet.length ≤ TUNNEL_BUF_SIZE - sizeofTunnelTransInHeader) :
    (s.ctx.tunBuffer.readTun (some packet)).transinPacket =
      TUNNEL_VERSION :: TUNNEL_CMD_TRANS_IN :: packet := by
  have hdata : s.ctx.tunBuffer.data.length = TUNNEL_BUF_SIZE := hs
  have htake : packet.take (TUNNEL_BUF_SIZE - sizeofTunnelTransInHeader) = packet :=
    List.take_of_length_le hlen
  have hsize : (s.ctx.tunBuffer.readTun (some packet)).transinSize.toNat = packet.length + 2 := by
    show (UInt64.ofNat (packet.take (TUNNEL_BUF_SIZE - sizeofTunnelTransInHeader)).length +
      UInt64.ofNat sizeofTunnelTransInHeader).toUInt32.toInt32.toInt.toNat = _
    have hsum : (UInt64.ofNat packet.length + UInt64.ofNat sizeofTunnelTransInHeader).toNat =
        packet.length + 2 := by
      simp only [TUNNEL_BUF_SIZE, sizeofTunnelTransInHeader] at *
      rw [UInt64.toNat_add, UInt64.toNat_ofNat', UInt64.toNat_ofNat']
      omega
    simp only [TUNNEL_BUF_SIZE] at hlen
    rw [htake, toInt_toUInt32_of_lt (by rw [hsum]; omega), hsum]
    rfl
  have hheader : (s.ctx.tunBuffer.data.take sizeofTunnelTransInHeader).length =
      sizeofTunnelTransInHeader := by
    rw [List.length_take, hdata]
    rfl
  have hbody : (s.ctx.tunBuffer.readTun (some packet)).data.drop sizeofTunnelTransInHeader =
      memcpy (s.ctx.tunBuffer.data.drop sizeofTunnelTransInHeader) packet := by
    refine (List.drop_left' hheader).trans ?_
    rw [Option.getD_some, htake]
  rw [ServerBuf.transinPacket, hsize]
  show ([TUNNEL_VERSION, TUNNEL_CMD_TRANS_IN] ++
    (s.ctx.tunBuffer.readTun (some packet)).data.drop sizeofTunnelTransInHeader).take _ = _
  rw [hbody, memcpy, ← List.append_assoc]
  refine List.take_left' ?_
  rw [List.length_append]
  exact Nat.add_comm _ _

end Server

open Server

/-- **Inbound routing.** After every run of well-formed datagrams, a packet that is read from the tun
device for the address of a registered client is sent to where the last CONNECT with the client's GUID
or trans-out datagram with its address and session id came from, unchanged behind the header; a packet
for an address nobody has is dropped. Neither changes the pool, a client or a timer. -/
theorem inbound_routing {n : Nat} (hmin : 2 ≤ n) (hmax : n ≤ 65533) {es : List Event} {s : Server}
    (hrun : Run.exec step (serverInit (ipPoolOf n)) es = some s) (hwf : ∀ e ∈ es, e.WellFormed)
    {p : List UInt8} (hlen : 20 ≤ p.length ∧ p.length ≤ 10238)
    (hversion : ipVersion p = 4) (junk : UInt32) :
    ∃ t, step s (.tunRead false (some p) junk) = some t ∧ t.pool = s.pool ∧
      t.clients = s.clients ∧ t.timers = s.timers ∧
      (∀ h c, s.clients.Registered h c → c.ip = ipDaddr p →
        ∃ src, Run.latest c.locatedBy es = some src ∧
          logged s t = [.sendto (some h) src (TUNNEL_VERSION :: TUNNEL_CMD_TRANS_IN :: p)]) ∧
      ((∀ h c, s.clients.Registered h c → c.ip ≠ ipDaddr p) → logged s t = []) := by
  have hs : s.Located n es := Run.inv_events (fun _ _ _ _ hs hwf hstep => hs.of_step hwf hstep)
    ⟨serverInit_sound hmin hmax, fun _ _ hr => nomatch hr.1⟩ hrun hwf
  have hb : s.Buffered := buffered_of_mem_visited (Run.exec_mem_visited hrun)
  have htake : p.take (TUNNEL_BUF_SIZE - sizeofTunnelTransInHeader) = p :=
    List.take_of_length_le hlen.2
  have hdestination : (s.ctx.tunBuffer.readTun (some p)).transinIp junk = ipDaddr p := by
    rw [hb.transinIp_readTun, Option.getD_some, htake,
      destination_of_genuine s ⟨hlen.1, hversion⟩]
  cases hfind : s.clients.findClient (ipDaddr p) with
  | none =>
      refine ⟨_, step_tunRead_unknown (hdestination.symm ▸ hfind), rfl, rfl, rfl,
        fun h c hr hip => ?_, fun _ => logged_append (List.append_nil _).symm⟩
      rw [← hip, hr.2] at hfind
      cases hfind
  | some h =>
      obtain ⟨c, hr, hip⟩ := hs.sound.agree.registered_of_findClient hfind
      refine ⟨_, step_tunRead_known (hdestination.symm ▸ hfind) hr.1, rfl, rfl, rfl,
        fun k d hd hdip => ?_, fun hfree => absurd hip (hfree h c hr)⟩
      have hkh : k = h := hs.sound.agree.registered_inj hd hr (Or.inl (hdip.trans hip.symm))
      subst hkh
      cases ClientTable.Agree.registered_unique hr hd
      refine ⟨c.srcAddr, hs.srcAddr k c hr, ?_⟩
      rw [← hb.transinPacket_readTun hlen.2]
      exact logged_append rfl

/-- A client moves from one network to another, and somebody else acknowledges its address and sends a
packet under another session id. -/
def roaming : List Event :=
  [.arrives (connectDatagram [0x61]) (.inet 192 0 2 1) 0,
    .arrives (transOutDatagram 0 (ipv4Header (htonl minIp) 0)) (.inet 198 51 100 1) 1,
    .arrives (connectDoneDatagram (htonl minIp) 0) (.inet 192 0 2 2) 2,
    .arrives (transOutDatagram 7 (ipv4Header (htonl minIp) 0)) (.inet 192 0 2 2) 3]

theorem inbound_routing_roaming :
    ∃ s t, Run.exec step (serverInit (ipPoolOf 65533)) roaming = some s ∧
      step s (.tunRead false (some (ipv4Header 0 (htonl minIp))) 0) = some t ∧
      logged s t = [.sendto (some 0) (.inet 198 51 100 1)
        (TUNNEL_VERSION :: TUNNEL_CMD_TRANS_IN :: ipv4Header 0 (htonl minIp))] := by
  have hmoved : (Run.exec step (serverInit (ipPoolOf 65533)) roaming).any (fun s =>
      (s.clients.heap 0).any fun c => decide (s.clients.findClient c.ip = some 0 ∧
        c.ip = ipDaddr (ipv4Header 0 (htonl minIp)) ∧
        Run.latest c.locatedBy roaming = some (.inet 198 51 100 1))) = true := by
    decide +kernel
  simp only [Option.any_eq_true, decide_eq_true_eq] at hmoved
  obtain ⟨s, hrun, c, hc, hfind, hip, hlatest⟩ := hmoved
  obtain ⟨t, hstep, -, -, -, hsent, -⟩ := inbound_routing (by decide) le_rfl hrun (by decide +kernel)
    (p := ipv4Header 0 (htonl minIp)) (by decide) (by decide) 0
  obtain ⟨src, hsrc, hlogged⟩ := hsent 0 c ⟨hc, hfind⟩ hip
  rw [hlatest, Option.some.injEq] at hsrc
  exact ⟨s, t, hrun, hstep, by rw [hlogged, hsrc]⟩

end TunnelServer
