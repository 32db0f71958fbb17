import TunnelServer.ServerRuns

/-!
# What the handlers read of a datagram

`socket_read` zeroes its buffer before it fills it. So every byte a handler looks at is a byte of the
datagram, or zero behind its end, and the fields it decodes are those of the bytes received.
-/

namespace TunnelServer

theorem sockByte_datagramCtx (bytes : List UInt8) (src : SockAddr) {i : Nat}
    (hi : i < TUNNEL_BUF_SIZE) : (datagramCtx bytes src).sockByte i = bytes.getD i 0 := by
  show (memcpy (List.replicate TUNNEL_BUF_SIZE 0) (bytes.take TUNNEL_BUF_SIZE)).getD i 0 = _
  rw [memcpy, List.getD_eq_getElem?_getD, List.getD_eq_getElem?_getD]
  by_cases hlen : i < bytes.length
  · rw [List.getElem?_append_left (by rw [List.length_take]; omega), List.getElem?_take_of_lt hi]
  · have htake : (bytes.take TUNNEL_BUF_SIZE).length ≤ i := by
      rw [List.length_take]
      omega
    rw [List.getElem?_append_right htake, List.getElem?_eq_none (Nat.le_of_not_lt hlen)]
    simp only [List.getElem?_drop, List.getElem?_replicate]
    split <;> rfl

theorem getD_drop (l : List UInt8) (k i : Nat) : (l.drop k).getD i 0 = l.getD (k + i) 0 := by
  rw [List.getD_eq_getElem?_getD, List.getD_eq_getElem?_getD, List.getElem?_drop]

theorem leWord_sockBuffer (bytes : List UInt8) (src : SockAddr) {k : Nat}
    (hk : k + 4 ≤ TUNNEL_BUF_SIZE) :
    leWord ((datagramCtx bytes src).sockBuffer.drop k) = leWord (bytes.drop k) := by
  have hbyte : ∀ i < TUNNEL_BUF_SIZE, (datagramCtx bytes src).sockBuffer.getD i 0 = bytes.getD i 0 :=
    fun i hi => sockByte_datagramCtx bytes src hi
  simp only [leWord, getD_drop]
  rw [hbyte _ (by omega), hbyte _ (by omega), hbyte _ (by omega), hbyte _ (by omega)]

theorem guidLen_datagramCtx (bytes : List UInt8) (src : SockAddr) :
    (datagramCtx bytes src).guidLen = (bytes.getD TUNNEL_PAK_GUID_LEN_IDX 0).toInt8.toInt := by
  rw [ServerCtx.guidLen, sockByte_datagramCtx bytes src (by decide)]

/-- The length that is used is the length in the datagram as long as it fits. -/
theorem guidLen_fits_iff (bytes : List UInt8) (src : SockAddr) :
    (0 ≤ (datagramCtx bytes src).guidLen ∧ (datagramCtx bytes src).guidLen < 60) ↔
      (bytes.getD TUNNEL_PAK_GUID_LEN_IDX 0).toNat < 60 := by
  rw [guidLen_datagramCtx, toInt_toInt8]
  have := (bytes.getD TUNNEL_PAK_GUID_LEN_IDX 0).toNat_lt
  split_ifs <;> omega

theorem guidLen_of_lt {bytes : List UInt8} (src : SockAddr)
    (h : (bytes.getD TUNNEL_PAK_GUID_LEN_IDX 0).toNat < 60) :
    (datagramCtx bytes src).guidLen = (bytes.getD TUNNEL_PAK_GUID_LEN_IDX 0).toNat := by
  rw [guidLen_datagramCtx, toInt_toInt8, if_pos (by omega)]

theorem take_drop_sockBuffer (bytes : List UInt8) (src : SockAddr) {k n : Nat}
    (hbytes : k + n ≤ bytes.length) (hbuf : k + n ≤ TUNNEL_BUF_SIZE) :
    ((datagramCtx bytes src).sockBuffer.drop k).take n = (bytes.drop k).take n := by
  apply List.ext_getElem?
  intro i
  by_cases hi : i < n
  · rw [List.getElem?_take_of_lt hi, List.getElem?_take_of_lt hi, List.getElem?_drop,
      List.getElem?_drop]
    show (memcpy (List.replicate TUNNEL_BUF_SIZE 0) (bytes.take TUNNEL_BUF_SIZE))[k + i]? = _
    rw [memcpy, List.getElem?_append_left (by rw [List.length_take]; omega),
      List.getElem?_take_of_lt (by omega)]
  · rw [List.getElem?_eq_none (by rw [List.length_take]; omega),
      List.getElem?_eq_none (by rw [List.length_take]; omega)]

theorem doneIp_datagramCtx (bytes : List UInt8) (src : SockAddr) :
    (datagramCtx bytes src).doneIp = leWord (bytes.drop 2) :=
  leWord_sockBuffer bytes src (by decide)

theorem ipVersion_datagramCtx (bytes : List UInt8) (src : SockAddr) :
    ipVersion (datagramCtx bytes src).ippack = ipVersion (bytes.drop sizeofTunnelTransOutHeader) := by
  have hfirst := sockByte_datagramCtx bytes src (i := sizeofTunnelTransOutHeader + 0) (by decide)
  rw [ipVersion, ipVersion, ServerCtx.ippack, getD_drop, getD_drop, ← hfirst, ServerCtx.sockByte]

theorem ipSaddr_datagramCtx (bytes : List UInt8) (src : SockAddr) :
    ipSaddr (datagramCtx bytes src).ippack = ipSaddr (bytes.drop sizeofTunnelTransOutHeader) := by
  rw [ipSaddr, ipSaddr, ServerCtx.ippack, List.drop_drop, List.drop_drop]
  exact leWord_sockBuffer bytes src (by decide)

def innerPacket (bytes : List UInt8) : List UInt8 :=
  (bytes.take TUNNEL_BUF_SIZE).drop sizeofTunnelTransOutHeader

theorem getD_ippack (bytes : List UInt8) (src : SockAddr) {i : Nat}
    (hi : sizeofTunnelTransOutHeader + i < TUNNEL_BUF_SIZE) :
    (datagramCtx bytes src).ippack.getD i 0 = (innerPacket bytes).getD i 0 := by
  have hbyte := sockByte_datagramCtx bytes src hi
  have htake : (bytes.take TUNNEL_BUF_SIZE).getD (sizeofTunnelTransOutHeader + i) 0 =
      bytes.getD (sizeofTunnelTransOutHeader + i) 0 := by
    rw [List.getD_eq_getElem?_getD, List.getD_eq_getElem?_getD, List.getElem?_take_of_lt hi]
  rw [ServerCtx.ippack, innerPacket, getD_drop, getD_drop, htake]
  exact hbyte

theorem transoutIp_datagramCtx (bytes : List UInt8) (src : SockAddr) (junk : UInt32) :
    (datagramCtx bytes src).transoutIp junk =
      if ipVersion (innerPacket bytes) = 4 then ipSaddr (innerPacket bytes) else junk := by
  have hversion : ipVersion (datagramCtx bytes src).ippack = ipVersion (innerPacket bytes) := by
    rw [ipVersion, getD_ippack bytes src (by decide)]
    rfl
  have hsource : ipSaddr (datagramCtx bytes src).ippack = ipSaddr (innerPacket bytes) := by
    simp only [ipSaddr, leWord, getD_drop]
    rw [getD_ippack bytes src (by decide), getD_ippack bytes src (by decide),
      getD_ippack bytes src (by decide), getD_ippack bytes src (by decide)]
  rw [ServerCtx.transoutIp, hversion, hsource]

/-- The length passed to `write`: negative for a datagram that is shorter than its header. -/
theorem ippackSize_datagramCtx (bytes : List UInt8) (src : SockAddr) :
    (datagramCtx bytes src).ippackSize =
      ((bytes.take TUNNEL_BUF_SIZE).length : Int) - sizeofTunnelTransOutHeader := by
  have hlen : (bytes.take TUNNEL_BUF_SIZE).length ≤ TUNNEL_BUF_SIZE := by
    rw [List.length_take]
    exact Nat.min_le_left _ _
  show (UInt64.ofNat (bytes.take TUNNEL_BUF_SIZE).length -
    UInt64.ofNat sizeofTunnelTransOutHeader).toUInt32.toInt32.toInt = _
  generalize (bytes.take TUNNEL_BUF_SIZE).length = len at hlen ⊢
  by_cases hheader : sizeofTunnelTransOutHeader ≤ len
  · have hsub : (UInt64.ofNat len - UInt64.ofNat sizeofTunnelTransOutHeader).toNat =
        len - sizeofTunnelTransOutHeader := by
      simp only [sizeofTunnelTransOutHeader, TUNNEL_BUF_SIZE] at *
      rw [UInt64.toNat_sub, UInt64.toNat_ofNat', UInt64.toNat_ofNat']
      omega
    simp only [TUNNEL_BUF_SIZE] at hlen
    rw [toInt_toUInt32_of_lt (by rw [hsub]; omega), hsub]
    omega
  · have hcases : len = 0 ∨ len = 1 ∨ len = 2 := by
      simp only [sizeofTunnelTransOutHeader] at hheader
      omega
    rcases hcases with rfl | rfl | rfl <;> decide

theorem take_ippack (bytes : List UInt8) (src : SockAddr) :
    (datagramCtx bytes src).ippack.take (datagramCtx bytes src).ippackSize.toNat =
      innerPacket bytes := by
  rw [ippackSize_datagramCtx]
  show ((memcpy (List.replicate TUNNEL_BUF_SIZE 0) (bytes.take TUNNEL_BUF_SIZE)).drop
    sizeofTunnelTransOutHeader).take _ = _
  rw [memcpy, innerPacket]
  by_cases hheader : sizeofTunnelTransOutHeader ≤ (bytes.take TUNNEL_BUF_SIZE).length
  · rw [List.drop_append_of_le_length hheader]
    refine List.take_left' ?_
    rw [List.length_drop]
    omega
  · rw [List.drop_eq_nil_of_le (Nat.le_of_not_le hheader)]
    have hnegative : (((bytes.take TUNNEL_BUF_SIZE).length : Int) -
        sizeofTunnelTransOutHeader).toNat = 0 := by
      omega
    rw [hnegative, List.take_zero]

theorem leWord_take (bytes : List UInt8) : leWord (bytes.take 4) = leWord bytes := by
  have hget : ∀ i < 4, (bytes.take 4).getD i 0 = bytes.getD i 0 := by
    intro i hi
    rw [List.getD_eq_getElem?_getD, List.getD_eq_getElem?_getD, List.getElem?_take_of_lt hi]
  rw [leWord, leWord, hget 0 (by decide), hget 1 (by decide), hget 2 (by decide),
    hget 3 (by decide)]

theorem Client.connectOk_eq (c : Client) :
    c.connectOk = TUNNEL_VERSION :: TUNNEL_CMD_CONNECT_OK :: (leBytes c.ip ++ [c.sid]) := rfl

/-- A datagram that repeats the address bytes of a CONNECT_OK is read as that address. -/
theorem leWord_of_echo {bytes : List UInt8} {c : Client}
    (hecho : (bytes.drop 2).take 4 = (c.connectOk.drop 2).take 4) : leWord (bytes.drop 2) = c.ip := by
  have hpacket : (c.connectOk.drop 2).take 4 = leBytes c.ip := rfl
  rw [← leWord_take, hecho, hpacket, leWord_leBytes]

end TunnelServer
