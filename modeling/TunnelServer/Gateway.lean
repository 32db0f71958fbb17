import TunnelServer.ServerCommon

/-!
# The gateway: who holds which address

What clients see of the server, without records, hash tables and pool. Under each GUID there is at most
one lease, and no address is leased twice. `Serves` lists the ways in which a gateway answers a request;
which address a new client is given is left open.
-/

namespace TunnelServer

/-- A client's hold on an address. -/
structure Lease where
  ip : UInt32
  sid : UInt8
  endpoint : SockAddr
  state : ClientState
  resends : Nat
  seen : ℚ
  alarm : Option Timer

namespace Lease

def connectOk (l : Lease) : List UInt8 :=
  TunnelConnectOkDone.bytes
    { ver := TUNNEL_VERSION, cmd := TUNNEL_CMD_CONNECT_OK, ip := l.ip, sid := l.sid }

def offered (l : Lease) (src : SockAddr) (now : ℚ) : Lease :=
  { l with
    endpoint := src
    state := .connect
    resends := 0
    seen := now
    alarm := some { cb := .timeoutCb, due := now + 1 / 2 } }

def closing (l : Lease) (now : ℚ) : Lease :=
  { l with alarm := some { cb := .timeoutCbDeleteClient, due := now + CLIENT_TIMEOUT_TO_DELETE } }

def heard (l : Lease) (src : SockAddr) (now : ℚ) : Lease :=
  if now - l.seen > CLIENT_EXPAND_TIMEOUT_TIME then
    closing { l with endpoint := src, seen := now } now
  else { l with endpoint := src }

def resent (l : Lease) (now : ℚ) : Lease :=
  { l with
    resends := l.resends + 1
    alarm := some { cb := .timeoutCb, due := now + 1 / 2 } }

end Lease

structure Leases where
  lease : List UInt8 → Option Lease
  exclusive : ∀ g g' l l', lease g = some l → lease g' = some l' → l.ip = l'.ip → g = g'

namespace Leases

@[ext] theorem ext {L M : Leases} (h : ∀ g, L.lease g = M.lease g) : L = M := by
  obtain ⟨f, _⟩ := L
  obtain ⟨f', _⟩ := M
  obtain rfl : f = f' := funext h
  rfl

def empty : Leases := ⟨fun _ => none, fun _ _ _ _ h => nomatch h⟩

variable (L : Leases) (g : List UInt8) (l : Lease)

/-- A lease in place of the one under this GUID and of any other on the same address. -/
def grant : Leases where
  lease k := if k = g then some l else (L.lease k).filter fun m => m.ip ≠ l.ip
  exclusive := by
    intro k k' m m' hk hk' hip
    split_ifs at hk hk' with hkg hkg' hkg'
    · rw [hkg, hkg']
    · cases hk
      obtain ⟨-, hne⟩ := Option.filter_eq_some_iff.1 hk'
      exact absurd hip.symm (by simpa using hne)
    · cases hk'
      obtain ⟨-, hne⟩ := Option.filter_eq_some_iff.1 hk
      exact absurd hip (by simpa using hne)
    · exact L.exclusive k k' m m' (Option.filter_eq_some_iff.1 hk).1
        (Option.filter_eq_some_iff.1 hk').1 hip

def release : Leases where
  lease k := if k = g then none else L.lease k
  exclusive := by
    intro k k' m m' hk hk' hip
    split_ifs at hk hk' with hkg hkg'
    exact L.exclusive k k' m m' hk hk' hip

end Leases

/-- What reaches a gateway: the four kinds of packets, and the alarm of a client, which may come with an
error. -/
inductive Request
  | connect (guid : List UInt8) (src : SockAddr) (now : ℚ)
  | confirm (ip : UInt32)
  | packetOut (ip : UInt32) (sid : UInt8) (count : Int) (packet : List UInt8) (src : SockAddr) (now : ℚ)
  | packetIn (ip : UInt32) (datagram : List UInt8)
  | alarm (guid : List UInt8) (error : Bool) (now : ℚ)
  | other

/-- What a gateway sends: a datagram, on behalf of a client or not, or a packet to the tun device. -/
inductive Output
  | datagram (guid : Option (List UInt8)) (dst : SockAddr) (bytes : List UInt8)
  | packet (count : Int) (bytes : List UInt8)

inductive Serves (L : Leases) : Request → Leases → List Output → Prop
  | accept {g : List UInt8} {l : Lease} {src : SockAddr} {now : ℚ} (hnew : L.lease g = none) :
      Serves L (.connect g src now) (L.grant g (l.offered src now))
        [.datagram (some g) src l.connectOk]
  | renew {g : List UInt8} {l : Lease} {src : SockAddr} {now : ℚ} (hl : L.lease g = some l) :
      Serves L (.connect g src now) (L.grant g (l.offered src now))
        [.datagram (some g) src l.connectOk]
  | confirm {g : List UInt8} {l : Lease} (hl : L.lease g = some l) :
      Serves L (.confirm l.ip) (L.grant g { l with state := .connectDone }) []
  | unconfirmed {ip : UInt32} (hfree : ∀ g l, L.lease g = some l → l.ip ≠ ip) :
      Serves L (.confirm ip) L []
  | relay {g : List UInt8} {l : Lease} {count : Int} {packet : List UInt8} {src : SockAddr} {now : ℚ}
      (hl : L.lease g = some l) :
      Serves L (.packetOut l.ip l.sid count packet src now) (L.grant g (l.heard src now))
        [.packet count packet]
  | refuse {ip : UInt32} {sid : UInt8} {count : Int} {packet : List UInt8} {src : SockAddr} {now : ℚ}
      (hnot : ∀ g l, L.lease g = some l → l.ip = ip → l.sid ≠ sid) :
      Serves L (.packetOut ip sid count packet src now) L [.datagram none src tunnelDisconnect]
  | deliver {g : List UInt8} {l : Lease} {datagram : List UInt8} (hl : L.lease g = some l)
      (hcmd : datagram[1]? ≠ some TUNNEL_CMD_CONNECT_OK) :
      Serves L (.packetIn l.ip datagram) L [.datagram (some g) l.endpoint datagram]
  | drop {ip : UInt32} {datagram : List UInt8} (hfree : ∀ g l, L.lease g = some l → l.ip ≠ ip) :
      Serves L (.packetIn ip datagram) L []
  | resend {g : List UInt8} {l : Lease} {alarm : Timer} {now : ℚ} (hl : L.lease g = some l)
      (halarm : l.alarm = some alarm) (hcb : alarm.cb = .timeoutCb) (hstate : l.state = .connect)
      (hcount : l.resends < SERVER_MAX_RESEND_COUNT.toNat) :
      Serves L (.alarm g false now) (L.grant g (l.resent now))
        [.datagram (some g) l.endpoint l.connectOk]
  | giveUp {g : List UInt8} {l : Lease} {alarm : Timer} {now : ℚ} (hl : L.lease g = some l)
      (halarm : l.alarm = some alarm) (hcb : alarm.cb = .timeoutCb) (hstate : l.state = .connect)
      (hcount : SERVER_MAX_RESEND_COUNT.toNat ≤ l.resends) :
      Serves L (.alarm g false now) (L.release g) []
  | settle {g : List UInt8} {l : Lease} {alarm : Timer} {now : ℚ} (hl : L.lease g = some l)
      (halarm : l.alarm = some alarm) (hcb : alarm.cb = .timeoutCb)
      (hstate : l.state = .connectDone) :
      Serves L (.alarm g false now) (L.grant g (l.closing now)) []
  | expire {g : List UInt8} {l : Lease} {alarm : Timer} {now : ℚ} (hl : L.lease g = some l)
      (halarm : l.alarm = some alarm) (hcb : alarm.cb = .timeoutCbDeleteClient)
      (hstate : l.state = .connectDone) :
      Serves L (.alarm g false now) (L.release g) []
  | lapse {g : List UInt8} {l : Lease} {alarm : Timer} {error : Bool} {now : ℚ}
      (hl : L.lease g = some l) (halarm : l.alarm = some alarm)
      (hcause : error = true ∨ (alarm.cb = .timeoutCbDeleteClient ∧ l.state = .connect)) :
      Serves L (.alarm g error now) (L.grant g { l with alarm := none }) []
  | ignore : Serves L .other L []

inductive Served (L : Leases) : List (Request × List Output) → Leases → Prop
  | nil : Served L [] L
  | snoc {past : List (Request × List Output)} {M N : Leases} {r : Request} {out : List Output}
      (hpast : Served L past M) (hserves : Serves M r N out) : Served L (past ++ [(r, out)]) N

/-! ### One client by itself -/

/-- Whether a request is about the client with this GUID, address and session id: a CONNECT or an alarm of
his, or a packet that carries what it takes to be his. -/
def Request.concerns (g : List UInt8) (ip : UInt32) (sid : UInt8) : Request → Bool
  | .connect g' _ _ | .alarm g' _ _ => g' = g
  | .confirm ip' | .packetIn ip' _ => ip' = ip
  | .packetOut ip' sid' _ _ _ _ => ip' = ip ∧ sid' = sid
  | .other => false

namespace Lease

/-- The alarm of a lease is about to make the gateway tell its client of the address again. -/
def Resends (l : Lease) : Prop :=
  l.alarm.map Timer.cb = some .timeoutCb ∧ l.state = .connect ∧
    l.resends < SERVER_MAX_RESEND_COUNT.toNat

instance (l : Lease) : Decidable l.Resends := inferInstanceAs (Decidable (_ ∧ _ ∧ _))

/-- What its alarm makes of a lease, or `none` when the lease ends. -/
def rung (l : Lease) (now : ℚ) : Option Lease :=
  match l.alarm.map Timer.cb, l.state with
  | some .timeoutCb, .connect => if l.Resends then some (l.resent now) else none
  | some .timeoutCb, .connectDone => some (l.closing now)
  | some .timeoutCbDeleteClient, .connectDone => none
  | some .timeoutCbDeleteClient, .connect => some { l with alarm := none }
  | none, _ => some l

/-- What a request that concerns its client makes of a lease. -/
def next (l : Lease) : Request → Option Lease
  | .connect _ src now => some (l.offered src now)
  | .confirm _ => some { l with state := .connectDone }
  | .packetOut _ _ _ _ src now => some (l.heard src now)
  | .packetIn _ _ => some l
  | .alarm _ error now => if error then some { l with alarm := none } else l.rung now
  | .other => some l

/-- What is sent in answer to it; `g` is the GUID of the client. -/
def answer (g : List UInt8) (l : Lease) : Request → List Output
  | .connect _ src _ => [.datagram (some g) src l.connectOk]
  | .packetOut _ _ count packet _ _ => [.packet count packet]
  | .packetIn _ datagram => [.datagram (some g) l.endpoint datagram]
  | .alarm _ error _ =>
    if error = false ∧ l.Resends then [.datagram (some g) l.endpoint l.connectOk] else []
  | .confirm _ | .other => []

end Lease

end TunnelServer
