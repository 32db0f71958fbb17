import TunnelServer.Lib.CMemory

/-!
# Wire formats: `tunnel_protocol.h`

The packed structures of the protocol and the constants that name their parts. Multi-byte fields are
written as the host keeps them in memory.
-/

namespace TunnelServer

def TUNNEL_VERSION : UInt8 := 0x01

def TUNNEL_CMD_CONNECT : UInt8 := 0x01
def TUNNEL_CMD_CONNECT_OK : UInt8 := 0x02
def TUNNEL_CMD_CONNECT_DONE : UInt8 := 0x03
def TUNNEL_CMD_TRANS_OUT : UInt8 := 0x10
def TUNNEL_CMD_TRANS_IN : UInt8 := 0x11
def TUNNEL_CMD_DISCONNECT : UInt8 := 0xf0

def TUNNEL_PAK_VER_IDX : Nat := 0
def TUNNEL_PAK_CMD_IDX : Nat := 1
def TUNNEL_PAK_GUID_LEN_IDX : Nat := 2

def sizeofTunnelConnectHeader : Nat := 3

def sizeofTunnelTransOutHeader : Nat := 3

def sizeofTunnelTransInHeader : Nat := 2

/-- The packet that carries an address and a session id, as CONNECT_OK and as CONNECT_DONE. -/
structure TunnelConnectOkDone where
  ver : UInt8
  cmd : UInt8
  ip : UInt32
  sid : UInt8
deriving DecidableEq

def TunnelConnectOkDone.bytes (packet : TunnelConnectOkDone) : List UInt8 :=
  packet.ver :: packet.cmd :: (leBytes packet.ip ++ [packet.sid])

/-- The structure a datagram carries, when the datagram is long enough to carry one. -/
def TunnelConnectOkDone.ofBytes (bytes : List UInt8) : Option TunnelConnectOkDone :=
  if 7 ≤ bytes.length then
    some
      { ver := bytes.getD 0 0
        cmd := bytes.getD 1 0
        ip := leWord (bytes.drop 2)
        sid := bytes.getD 6 0 }
  else none

theorem TunnelConnectOkDone.ofBytes_bytes (packet : TunnelConnectOkDone) :
    ofBytes packet.bytes = some packet := by
  have hip : leWord (packet.bytes.drop 2) = packet.ip := by
    rw [← leWord_leBytes packet.ip]
    rfl
  rw [ofBytes, if_pos (by simp [bytes]), hip]
  rfl

def connectDatagram (guid : List UInt8) : List UInt8 :=
  TUNNEL_VERSION :: TUNNEL_CMD_CONNECT :: UInt8.ofNat guid.length :: guid

def connectDoneDatagram (ip : UInt32) (sid : UInt8) : List UInt8 :=
  TunnelConnectOkDone.bytes { ver := TUNNEL_VERSION, cmd := TUNNEL_CMD_CONNECT_DONE, ip, sid }

def transOutDatagram (sid : UInt8) (ippack : List UInt8) : List UInt8 :=
  TUNNEL_VERSION :: TUNNEL_CMD_TRANS_OUT :: sid :: ippack

def tunnelDisconnect : List UInt8 := [TUNNEL_VERSION, TUNNEL_CMD_DISCONNECT]

end TunnelServer
