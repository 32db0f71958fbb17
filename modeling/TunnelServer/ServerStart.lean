import TunnelServer.Lib.Calls
import TunnelServer.ServerCommon

/-!
# Starting the server: `tunnel_server_start`

What `tunnel_server.c` does before the event loop: the tun device is opened and configured, the socket is
bound, and both are made non-blocking. The functions are programs that make system calls. A descriptor or
a status is an `Int`, as the C code keeps it.
-/

namespace TunnelServer

def AF_UNSPEC : Int := 0
def AF_INET : Int := 2
def SOCK_DGRAM : Int := 2
def IPPROTO_UDP : Int := 17
def AI_PASSIVE : Int := 1
def AI_ADDRCONFIG : Int := 32
def O_NONBLOCK : Nat := 0x800
def IFF_UP : UInt8 := 1
def IFNAMSIZ : Nat := 16

structure AddrInfo where
  aiFamily : Int
  aiSocktype : Int
  aiProtocol : Int
  aiAddr : SockAddr
deriving DecidableEq

structure Hints where
  aiFlags : Int
  aiFamily : Int
  aiSocktype : Int
  aiProtocol : Int
deriving DecidableEq

/-- `struct ifreq`: the name, and the union that holds the flags as well as the addresses. -/
structure Ifreq where
  ifrName : List UInt8
  ifru : List UInt8
deriving DecidableEq

inductive IoctlRequest
  | TUNSETIFF
  | SIOCSIFADDR
  | SIOCGIFFLAGS
  | SIOCSIFFLAGS
  | SIOCSIFNETMASK
deriving DecidableEq

/-- The two values the pointer `result` can have: what `getaddrinfo` stored, or what the local held
before. -/
inductive ResultPtr
  | stored
  | stray
deriving DecidableEq

inductive SysCall
  | openTun
  | socket (family socktype protocol : Int)
  | ioctl (fd : Int) (request : IoctlRequest) (ifr : Ifreq)
  | fcntlGetfl (fd : Int)
  | fcntlSetfl (fd : Int) (flags : Nat)
  | setsockoptReuseport (fd : Int)
  | bind (fd : Int) (addr : SockAddr)
  | close (fd : Int)
  | getaddrinfo (port : List UInt8) (hints : Hints)
  | freeaddrinfo (result : ResultPtr)
deriving DecidableEq

/-- What a call returns. An `ioctl` also hands back the request, `getaddrinfo` the list. -/
@[reducible] def SysCall.Result : SysCall → Type
  | .ioctl .. => Int × Ifreq
  | .getaddrinfo .. => Int × List AddrInfo
  | .freeaddrinfo _ => Unit
  | _ => Int

abbrev Sys : Type → Type := Calls SysCall SysCall.Result

def sys (k : SysCall) : Sys k.Result := Calls.perform k

abbrev SysEvent : Type := Σ k : SysCall, k.Result

def socketSetnonblock (fd : Int) : Sys Int := do
  let flags ← sys (.fcntlGetfl fd)
  if flags < 0 then return -1
  let ret ← sys (.fcntlSetfl fd (flags.toNat ||| O_NONBLOCK))
  if ret < 0 then return -1
  return 0

def socketSetReusePort (sockfd : Int) : Sys Int := do
  let ret ← sys (.setsockoptReuseport sockfd)
  if ret < 0 then return -1
  return 0

/-- How the loop of `socket_create_and_bind` ends: by the `return` inside it, at the end of the list, or
by the `break` with a bound socket. -/
inductive Bound
  | returned
  | exhausted
  | broke (sfd : Int)
deriving DecidableEq

def bindLoop : List AddrInfo → Sys Bound
  | [] => return .exhausted
  | rp :: rest => do
    let sfd ← sys (.socket rp.aiFamily rp.aiSocktype rp.aiProtocol)
    if sfd = -1 then bindLoop rest
    else
      let s ← socketSetReusePort sfd
      if s = -1 then return .returned
      let s ← sys (.bind sfd rp.aiAddr)
      if s = 0 then return .broke sfd
      let _ ← sys (.close sfd)
      bindLoop rest

def udpHints : Hints where
  aiFlags := AI_PASSIVE + AI_ADDRCONFIG
  aiFamily := AF_UNSPEC
  aiSocktype := SOCK_DGRAM
  aiProtocol := IPPROTO_UDP

/-- `socket_create_and_bind`; `stray` says that the local `result` is not `NULL` before it is assigned,
which it is not when `getaddrinfo` fails. -/
def socketCreateAndBind (stray : Bool) (port : List UInt8) : Sys Int := do
  let (s, result) ← sys (.getaddrinfo port udpHints)
  if s ≠ 0 then
    if stray then
      let _ ← sys (.freeaddrinfo .stray)
      return -1
    return -1
  match ← bindLoop result with
  | .returned => return -1
  | .exhausted => return -1
  | .broke sfd =>
    let _ ← sys (.freeaddrinfo .stored)
    return sfd

def charArray (n : Nat) (s : List UInt8) : List UInt8 := (s ++ List.replicate n 0).take n

/-- `tun_alloc`: the descriptor or an error, and `dev` afterwards. -/
def tunAlloc (dev : List UInt8) : Sys (Int × List UInt8) := do
  let fd ← sys .openTun
  if fd < 0 then return (fd, dev)
  -- `IFF_TUN | IFF_NO_PI`
  let ifr : Ifreq := { ifrName := charArray IFNAMSIZ dev, ifru := charArray 24 [0x01, 0x10] }
  let (err, ifr) ← sys (.ioctl fd .TUNSETIFF ifr)
  if err < 0 then
    let _ ← sys (.close fd)
    return (err, dev)
  return (fd, cString ifr.ifrName)

def sockaddrIn (addr : UInt32) : List UInt8 := charArray 16 ([2, 0, 0, 0] ++ leBytes addr)

/-- The part of `tun_setup` that can `goto done`. -/
def tunConfigure (sockfd : Int) (ifr : Ifreq) (netmask : UInt32) : Sys Int := do
  let (err, ifr) ← sys (.ioctl sockfd .SIOCSIFADDR ifr)
  if err < 0 then return err
  let (err, ifr) ← sys (.ioctl sockfd .SIOCGIFFLAGS ifr)
  if err < 0 then return err
  let ifr := { ifr with ifru := ifr.ifru.modify 0 (· ||| IFF_UP) }
  let (err, ifr) ← sys (.ioctl sockfd .SIOCSIFFLAGS ifr)
  if err < 0 then return err
  let ifr := { ifr with ifru := memcpy ifr.ifru (sockaddrIn netmask) }
  let (err, _) ← sys (.ioctl sockfd .SIOCSIFNETMASK ifr)
  return err

def tunSetup (dev : List UInt8) (tunip netmask : UInt32) : Sys Int := do
  let ifr : Ifreq :=
    { ifrName := charArray IFNAMSIZ dev, ifru := charArray 24 (sockaddrIn tunip) }
  let sockfd ← sys (.socket AF_INET SOCK_DGRAM 0)
  if sockfd < 0 then return -1
  let err ← tunConfigure sockfd ifr netmask
  let _ ← sys (.close sockfd)
  return err

structure MainLoop where
  sockfd : Int
  tunfd : Int
  server : Server

def tunIp : UInt32 := inetPton 10 0 0 1

def tunNetmask : UInt32 := inetPton 255 255 0 0

/-- A host address of the network of the tun device, other than the device's own. -/
def OnTunNetwork (ip : UInt32) : Prop :=
  ip &&& tunNetmask = tunIp &&& tunNetmask ∧ ip ≠ tunIp &&& tunNetmask ∧ ip ≠ tunIp ∧
    ip ≠ tunIp ||| ~~~tunNetmask

/-- `tunnel_server_start` as far as `ev_run`, or `none` for `exit(1)`. What `tun_setup` returns is not
looked at. -/
def tunnelServerStart (stray : Bool) (port : List UInt8) : Sys (Option MainLoop) := do
  let (tunfd, tunDev) ← tunAlloc [0x78, 0x74, 0x75, 0x6e]
  let _ ← tunSetup tunDev tunIp tunNetmask
  let s ← socketSetnonblock tunfd
  if s = -1 then return none
  let sfd ← socketCreateAndBind stray port
  if sfd = -1 then return none
  let s ← socketSetnonblock sfd
  if s = -1 then return none
  return some { sockfd := sfd, tunfd, server := serverInit serverIpInit }

/-! ### What the calls ask of the system -/

inductive SysResource
  | fd (n : Int)
  | addrinfo (result : ResultPtr)
deriving DecidableEq

/-- What a call does with descriptors and with the list. A negative number is no descriptor. -/
def SysEvent.ops : SysEvent → List (Resource.Op SysResource)
  | ⟨.openTun, r⟩ | ⟨.socket .., r⟩ => if 0 ≤ (r : Int) then [.acquire (.fd r)] else []
  | ⟨.ioctl fd .., _⟩ | ⟨.setsockoptReuseport fd, _⟩ | ⟨.bind fd _, _⟩ => [.use (.fd fd)]
  | ⟨.fcntlGetfl fd, _⟩ | ⟨.fcntlSetfl fd _, _⟩ => if 0 ≤ fd then [.use (.fd fd)] else []
  | ⟨.close fd, _⟩ => [.release (.fd fd)]
  | ⟨.getaddrinfo .., r⟩ => if (r : Int × List AddrInfo).1 = 0 then [.acquire (.addrinfo .stored)] else []
  | ⟨.freeaddrinfo result, _⟩ => [.release (.addrinfo result)]

/-- What the manual pages say: `socket` returns -1 or a descriptor, and `fcntl` fails on a number that is
no descriptor. -/
def SysEvent.Documented : SysEvent → Prop
  | ⟨.socket .., r⟩ => (r : Int) = -1 ∨ 0 ≤ (r : Int)
  | ⟨.fcntlGetfl fd, r⟩ => fd < 0 → (r : Int) < 0
  | _ => True

def SysEvent.Resolved : SysEvent → Prop
  | ⟨.getaddrinfo .., r⟩ => (r : Int × List AddrInfo).1 = 0
  | _ => True

/-- The contract under which nothing is touched that is not held: documented answers, and a lookup that
does not fail while `result` points anywhere. -/
def sysContract (stray : Bool) : Calls.Contract SysCall SysCall.Result SysResource where
  allows := fun x => SysEvent.Documented x ∧ (stray = true → SysEvent.Resolved x)
  ops := SysEvent.ops

instance (x : SysEvent) : Decidable (SysEvent.Documented x) :=
  match x with
  | ⟨.socket .., (r : Int)⟩ => inferInstanceAs (Decidable (r = -1 ∨ 0 ≤ r))
  | ⟨.fcntlGetfl fd, (r : Int)⟩ => inferInstanceAs (Decidable (fd < 0 → r < 0))
  | ⟨.openTun, _⟩ | ⟨.ioctl .., _⟩ | ⟨.fcntlSetfl .., _⟩ | ⟨.setsockoptReuseport _, _⟩ | ⟨.bind .., _⟩
  | ⟨.close _, _⟩ | ⟨.getaddrinfo .., _⟩ | ⟨.freeaddrinfo _, _⟩ => isTrue trivial

instance (x : SysEvent) : Decidable (SysEvent.Resolved x) :=
  match x with
  | ⟨.getaddrinfo .., (r : Int × List AddrInfo)⟩ => inferInstanceAs (Decidable (r.1 = 0))
  | ⟨.openTun, _⟩ | ⟨.socket .., _⟩ | ⟨.ioctl .., _⟩ | ⟨.fcntlGetfl _, _⟩ | ⟨.fcntlSetfl .., _⟩
  | ⟨.setsockoptReuseport _, _⟩ | ⟨.bind .., _⟩ | ⟨.close _, _⟩ | ⟨.freeaddrinfo _, _⟩ => isTrue trivial

/-! ### A start -/

def twoAddresses : ∀ k : SysCall, k.Result
  | .openTun => (3 : Int)
  | .socket .. => (4 : Int)
  | .ioctl _ _ ifr => (0, ifr)
  | .fcntlGetfl fd => if fd < 0 then (-1 : Int) else 2
  | .fcntlSetfl .. | .setsockoptReuseport _ | .close _ => (0 : Int)
  | .bind _ addr => if addr.len = 28 then (-1 : Int) else 0
  | .getaddrinfo .. =>
    (0, [{ aiFamily := 10, aiSocktype := SOCK_DGRAM, aiProtocol := IPPROTO_UDP,
           aiAddr := { storage := [], len := 28 } },
         { aiFamily := AF_INET, aiSocktype := SOCK_DGRAM, aiProtocol := IPPROTO_UDP,
           aiAddr := { storage := [], len := 16 } }])
  | .freeaddrinfo _ => ()

def failedLookup : ∀ k : SysCall, k.Result
  | .getaddrinfo .. => (-8, [])
  | k => twoAddresses k

end TunnelServer
