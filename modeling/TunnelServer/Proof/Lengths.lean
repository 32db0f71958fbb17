import TunnelServer.Proof.Genuine
import TunnelServer.ServerAccesses

/-!
# Lengths in a datagram against lengths of a datagram

The handlers believe the datagram: the GUID is as long as its length byte says, read as a signed `char`,
a CONNECT_DONE has an address, and a trans-out datagram has a header.
-/

namespace TunnelServer

/-- The fields a handler uses are within what was received, and the GUID within its array. -/
structure ServerCtx.FieldsFit (ctx : ServerCtx) : Prop where
  connect : ctx.cmd = TUNNEL_CMD_CONNECT →
    (0 ≤ ctx.guidLen ∧ ctx.guidLen ≤ 59) ∧ sizeofTunnelConnectHeader + ctx.guidLen ≤ ctx.received
  connectDone : ctx.cmd = TUNNEL_CMD_CONNECT_DONE → 6 ≤ ctx.received
  transOut : ctx.cmd = TUNNEL_CMD_TRANS_OUT → sizeofTunnelTransOutHeader ≤ ctx.received

namespace Server

variable {n : Nat} {s t : Server} {bytes : List UInt8} {src : SockAddr} {env : Env}

/-- A datagram touches only bytes that are there, writes to the tun device only what was received, and
does nothing to the clients and the pool if its fields do not fit. -/
structure LengthSafe (s : Server) (bytes : List UInt8) (src : SockAddr) (env : Env) : Prop where
  accesses : ∀ a ∈ s.accesses (datagramCtx bytes src), a.InBounds
  written : ∀ t, step s (.socketRead false (some (bytes, src)) env) = some t →
    ∀ count packet, Effect.write count packet ∈ logged s t → 0 ≤ count ∧ count ≤ bytes.length
  ignored : ¬ (datagramCtx bytes src).FieldsFit →
    ∃ t, step s (.socketRead false (some (bytes, src)) env) = some t ∧ t.pool = s.pool ∧
      t.clients = s.clients

/-- The datagram is as long as it says: a CONNECT contains its GUID, of at most 59 bytes, a CONNECT_DONE
an address, and a trans-out datagram that ends before its session id does not hit a client. -/
structure LengthsHonest (s : Server) (bytes : List UInt8) (env : Env) : Prop where
  connect : bytes.getD TUNNEL_PAK_CMD_IDX 0 = TUNNEL_CMD_CONNECT →
    (bytes.getD TUNNEL_PAK_GUID_LEN_IDX 0).toNat ≤ 59 ∧
      sizeofTunnelConnectHeader + (bytes.getD TUNNEL_PAK_GUID_LEN_IDX 0).toNat ≤ bytes.length
  connectDone : bytes.getD TUNNEL_PAK_CMD_IDX 0 = TUNNEL_CMD_CONNECT_DONE → 6 ≤ bytes.length
  transOut : bytes.getD TUNNEL_PAK_CMD_IDX 0 = TUNNEL_CMD_TRANS_OUT → bytes.length = 2 →
    ∀ h c, s.clients.Registered h c → c.sid = 0 → c.ip ≠ env.cliIp

theorem cmd_datagramCtx (bytes : List UInt8) (src : SockAddr) :
    (datagramCtx bytes src).cmd = bytes.getD TUNNEL_PAK_CMD_IDX 0 :=
  sockByte_datagramCtx bytes src (by decide)

theorem received_datagramCtx (hlen : bytes.length ≤ TUNNEL_BUF_SIZE) (src : SockAddr) :
    (datagramCtx bytes src).received = bytes.length := by
  show (UInt64.ofNat (bytes.take TUNNEL_BUF_SIZE).length).toNat = _
  rw [List.take_of_length_le hlen, UInt64.toNat_ofNat']
  simp only [TUNNEL_BUF_SIZE] at hlen
  omega

/-! ### CONNECT -/

/-- The copies and the terminator are in bounds exactly when the length byte is honest. -/
theorem connectAccesses_iff (hlen : bytes.length ≤ TUNNEL_BUF_SIZE) (src : SockAddr) :
    (∀ a ∈ (datagramCtx bytes src).connectAccesses, a.InBounds) ↔
      (bytes.getD TUNNEL_PAK_GUID_LEN_IDX 0).toNat ≤ 59 ∧
        sizeofTunnelConnectHeader + (bytes.getD TUNNEL_PAK_GUID_LEN_IDX 0).toNat ≤ bytes.length := by
  have hreceived := received_datagramCtx hlen src
  have hfits := guidLen_fits_iff bytes src
  constructor
  · intro hall
    have hterminator := hall { size := sizeofGuid, first := (datagramCtx bytes src).guidLen, count := 1 }
      (by simp [ServerCtx.connectAccesses])
    have hsource := hall
      { size := (datagramCtx bytes src).received
        first := sizeofTunnelConnectHeader
        count := UInt64.ofInt (datagramCtx bytes src).guidLen } (by simp [ServerCtx.connectAccesses])
    have hnonneg : 0 ≤ (datagramCtx bytes src).guidLen := hterminator.1
    have hlast : (datagramCtx bytes src).guidLen + 1 ≤ 60 := hterminator.2
    have hshort := hfits.1 ⟨hnonneg, by omega⟩
    have hguid := guidLen_of_lt src hshort
    have hcount : (UInt64.ofInt (datagramCtx bytes src).guidLen).toNat =
        (bytes.getD TUNNEL_PAK_GUID_LEN_IDX 0).toNat := by
      rw [toNat_ofInt_of_nonneg hnonneg (by omega), hguid, Int.toNat_natCast]
    have hsource := hsource.2
    simp only [hcount, hreceived] at hsource
    omega
  · intro hhonest
    obtain ⟨hshort, hin⟩ := hhonest
    have hguid := guidLen_of_lt src (Nat.lt_succ_of_le hshort)
    simp only [ServerCtx.connectAccesses, hguid, hreceived]
    generalize (bytes.getD TUNNEL_PAK_GUID_LEN_IDX 0).toNat = len at hshort hin
    have hcount : (UInt64.ofInt len).toNat = len := by
      rw [toNat_ofInt_of_nonneg (by omega) (by omega), Int.toNat_natCast]
    simp only [List.forall_mem_cons, List.not_mem_nil, false_implies, implies_true, and_true,
      Access.InBounds, hcount, sizeofGuid, TUNNEL_PAK_GUID_LEN_IDX, sizeofTunnelConnectHeader,
      UInt64.toNat_one] at hin ⊢
    omega

theorem copyAccesses_inBounds (h : (bytes.getD TUNNEL_PAK_GUID_LEN_IDX 0).toNat ≤ 59)
    (src : SockAddr) : ∀ a ∈ (datagramCtx bytes src).copyAccesses, a.InBounds := by
  have hguid := guidLen_of_lt src (Nat.lt_succ_of_le h)
  have hcount : (UInt64.ofInt ((datagramCtx bytes src).guidLen + 1)).toNat =
      (bytes.getD TUNNEL_PAK_GUID_LEN_IDX 0).toNat + 1 := by
    rw [toNat_ofInt_of_nonneg (by omega) (by omega), hguid]
    omega
  simp only [ServerCtx.copyAccesses, List.forall_mem_cons, List.not_mem_nil, false_implies,
    implies_true, and_true, Access.InBounds, hcount, sizeofGuid]
  omega

/-! ### Every datagram -/

theorem accesses_of_connect (s : Server)
    (hcmd : (datagramCtx bytes src).cmd = TUNNEL_CMD_CONNECT) :
    s.accesses (datagramCtx bytes src) = (datagramCtx bytes src).connectAccesses ∨
      s.accesses (datagramCtx bytes src) =
        (datagramCtx bytes src).connectAccesses ++ (datagramCtx bytes src).copyAccesses := by
  rw [accesses, if_pos hcmd]
  split
  · exact Or.inl rfl
  · exact Or.inr rfl

theorem accesses_of_connectDone (s : Server)
    (hcmd : (datagramCtx bytes src).cmd = TUNNEL_CMD_CONNECT_DONE) :
    s.accesses (datagramCtx bytes src) = (datagramCtx bytes src).connectDoneAccesses := by
  rw [accesses, if_neg (by rw [hcmd]; decide), if_pos hcmd]

theorem accesses_inBounds_iff (s : Server) (hlen : bytes.length ≤ TUNNEL_BUF_SIZE) (src : SockAddr) :
    (∀ a ∈ s.accesses (datagramCtx bytes src), a.InBounds) ↔
      (bytes.getD TUNNEL_PAK_CMD_IDX 0 = TUNNEL_CMD_CONNECT →
        (bytes.getD TUNNEL_PAK_GUID_LEN_IDX 0).toNat ≤ 59 ∧
          sizeofTunnelConnectHeader + (bytes.getD TUNNEL_PAK_GUID_LEN_IDX 0).toNat ≤ bytes.length) ∧
        (bytes.getD TUNNEL_PAK_CMD_IDX 0 = TUNNEL_CMD_CONNECT_DONE → 6 ≤ bytes.length) := by
  rw [← cmd_datagramCtx bytes src, ← connectAccesses_iff hlen src]
  by_cases hconnect : (datagramCtx bytes src).cmd = TUNNEL_CMD_CONNECT
  · have hdone : (datagramCtx bytes src).cmd ≠ TUNNEL_CMD_CONNECT_DONE := by
      rw [hconnect]
      decide
    simp only [hconnect, forall_const, show TUNNEL_CMD_CONNECT ≠ TUNNEL_CMD_CONNECT_DONE by decide,
      false_implies, and_true]
    rcases accesses_of_connect s hconnect with heq | heq
    · rw [heq]
    · rw [heq, List.forall_mem_append]
      refine and_iff_left_of_imp fun hall => ?_
      exact copyAccesses_inBounds ((connectAccesses_iff hlen src).1 hall).1 src
  · by_cases hdone : (datagramCtx bytes src).cmd = TUNNEL_CMD_CONNECT_DONE
    · rw [accesses_of_connectDone s hdone]
      simp only [hdone, show TUNNEL_CMD_CONNECT_DONE ≠ TUNNEL_CMD_CONNECT by decide, false_implies,
        true_and, forall_const, ServerCtx.connectDoneAccesses, List.forall_mem_cons,
        List.not_mem_nil, implies_true, and_true, Access.InBounds, received_datagramCtx hlen src]
      have hcount : (4 : UInt64).toNat = 4 := rfl
      rw [hcount]
      omega
    · simp [accesses, hconnect, hdone]

/-- A trans-out datagram is accepted in spite of its length only when it ends before its session id. -/
theorem Sound.written_iff (hs : s.Sound n) (hlen : bytes.length ≤ TUNNEL_BUF_SIZE) :
    (∀ t, step s (.socketRead false (some (bytes, src)) env) = some t →
        ∀ count packet, Effect.write count packet ∈ logged s t → 0 ≤ count ∧ count ≤ bytes.length) ↔
      (bytes.getD TUNNEL_PAK_CMD_IDX 0 = TUNNEL_CMD_TRANS_OUT → bytes.length = 2 →
        ∀ h c, s.clients.Registered h c → c.sid = 0 → c.ip ≠ env.cliIp) := by
  have htake : bytes.take TUNNEL_BUF_SIZE = bytes := List.take_of_length_le hlen
  have hsize : (datagramCtx bytes src).ippackSize = (bytes.length : Int) - 3 := by
    rw [ippackSize_datagramCtx, htake]
    rfl
  have hshort : bytes.length = 2 → innerPacket bytes = [] ∧ bytes.getD 2 0 = 0 := by
    intro htwo
    refine ⟨?_, ?_⟩
    · rw [innerPacket, htake, List.drop_eq_nil_of_le (by rw [htwo]; decide)]
    · rw [List.getD_eq_getElem?_getD, List.getElem?_eq_none (by omega)]
      rfl
  constructor
  · intro hwritten htrans htwo h c hr hsid hip
    obtain ⟨hinner, hzero⟩ := hshort htwo
    have hacc : s.accepts (.socketRead false (some (bytes, src)) env) =
        some (h, datagramCtx bytes src, env) := by
      rw [hs.accepts_datagram_iff, hinner, hzero]
      exact ⟨htrans, c, hr, hsid, hip⟩
    obtain ⟨c, c', timer, ys, -, -, -, hstep⟩ := hs.step_accepted hacc
    obtain ⟨count, packet, hw⟩ := hs.write_of_accepts hstep hacc
    obtain ⟨bytes', src', env', k, hevent, -, hcount, -⟩ := hs.written_cases hstep hw
    cases hevent
    have hnonneg := (hwritten _ hstep count packet hw).1
    rw [hcount, hsize, htwo] at hnonneg
    exact absurd hnonneg (by decide)
  · intro hunmatched t hstep count packet hw
    obtain ⟨bytes', src', env', h, hevent, hacc, hcount, -⟩ := hs.written_cases hstep hw
    cases hevent
    obtain ⟨htrans, c, hr, hsid, hip⟩ := hs.accepts_datagram_iff.1 hacc
    rw [hcount, hsize]
    have hcmd : 2 ≤ bytes.length := by
      by_contra hshorter
      rw [List.getD_eq_getElem?_getD, List.getElem?_eq_none (by simp only [TUNNEL_PAK_CMD_IDX]; omega)]
        at htrans
      exact absurd htrans (by decide)
    have htwo : bytes.length ≠ 2 := by
      intro htwo
      obtain ⟨hinner, hzero⟩ := hshort htwo
      rw [hzero] at hsid
      rw [hinner] at hip
      exact hunmatched htrans htwo h c hr hsid hip
    omega

/-- A datagram that does not fit, and is nevertheless honest, is a trans-out datagram that is refused. -/
theorem Sound.ignored_of_honest (hs : s.Sound n) (hlen : bytes.length ≤ TUNNEL_BUF_SIZE)
    (hhonest : s.LengthsHonest bytes env) (hunfit : ¬ (datagramCtx bytes src).FieldsFit) :
    ∃ t, step s (.socketRead false (some (bytes, src)) env) = some t ∧ t.pool = s.pool ∧
      t.clients = s.clients := by
  have hreceived := received_datagramCtx hlen src
  have htrans : (datagramCtx bytes src).cmd = TUNNEL_CMD_TRANS_OUT ∧ bytes.length < 3 := by
    by_contra hnot
    refine hunfit ⟨fun hcmd => ?_, fun hcmd => ?_, fun hcmd => ?_⟩
    · obtain ⟨hshort, hin⟩ := hhonest.connect ((cmd_datagramCtx bytes src).symm.trans hcmd)
      rw [guidLen_of_lt src (Nat.lt_succ_of_le hshort), hreceived]
      omega
    · rw [hreceived]
      exact hhonest.connectDone ((cmd_datagramCtx bytes src).symm.trans hcmd)
    · rw [hreceived]
      by_contra hshort
      exact hnot ⟨hcmd, Nat.lt_of_not_le hshort⟩
  obtain ⟨hcmd, hshort⟩ := htrans
  have hnone : s.accepts (.socketRead false (some (bytes, src)) env) = none := by
    apply accepts_eq_none
    intro h hacc
    obtain ⟨c, c', timer, ys, -, -, -, hstep⟩ := hs.step_accepted hacc
    obtain ⟨count, packet, hw⟩ := hs.write_of_accepts hstep hacc
    have hnonneg := ((hs.written_iff hlen).2 hhonest.transOut _ hstep count packet hw).1
    obtain ⟨bytes', src', env', k, hevent, -, hcount, -⟩ := hs.written_cases hstep hw
    cases hevent
    rw [hcount, ippackSize_datagramCtx, List.take_of_length_le hlen] at hnonneg
    simp only [sizeofTunnelTransOutHeader] at hnonneg
    omega
  exact ⟨_, hs.step_refused hcmd hnone, rfl, rfl⟩

end Server

open Server

/-- In every reachable state, a datagram of any length and contents is handled within its bounds exactly
when the lengths in it are honest. -/
theorem length_safe_iff {n : Nat} (hmin : 2 ≤ n) (hmax : n ≤ 65533) {es : List Event} {s : Server}
    (hrun : Run.exec step (serverInit (ipPoolOf n)) es = some s) {bytes : List UInt8}
    (hlen : bytes.length ≤ TUNNEL_BUF_SIZE) (src : SockAddr) (env : Env) :
    s.LengthSafe bytes src env ↔ s.LengthsHonest bytes env := by
  have hs : s.Sound n := sound_of_exec hmin hmax hrun
  constructor
  · intro hsafe
    obtain ⟨hconnect, hdone⟩ := (accesses_inBounds_iff s hlen src).1 hsafe.accesses
    exact ⟨hconnect, hdone, (hs.written_iff hlen).1 hsafe.written⟩
  · intro hhonest
    exact
      { accesses := (accesses_inBounds_iff s hlen src).2 ⟨hhonest.connect, hhonest.connectDone⟩
        written := (hs.written_iff hlen).2 hhonest.transOut
        ignored := hs.ignored_of_honest hlen hhonest }

theorem length_safe_iff_letter :
    (serverInit (ipPoolOf 65533)).LengthSafe (connectDatagram [0x61]) (.inet 192 0 2 1) (.at 0) ↔
      (serverInit (ipPoolOf 65533)).LengthsHonest (connectDatagram [0x61]) (.at 0) :=
  length_safe_iff (by decide) le_rfl (Run.exec_nil _) (by decide) _ _

/-- The terminator of a GUID of 60 bytes is written behind the end of its array. -/
theorem guid_of_sixty_overruns :
    ¬ (serverInit serverIpInit).LengthSafe (connectDatagram (List.replicate 60 0x61))
      (.inet 192 0 2 1) (.at 0) := by
  intro hsafe
  have hterminator := hsafe.accesses { size := sizeofGuid, first := 60, count := 1 }
    (by decide +kernel)
  exact absurd hterminator (by decide)

end TunnelServer
