import TunnelServer.Proof.Sound
import TunnelServer.ServerStart

/-!
# The start of the server

Whatever the system answers, as long as it answers as documented, the code before the event loop touches
no descriptor that it does not hold, except that it may free a list that it never got. When it comes to
the event loop it holds the two descriptors of the loop and nothing else, both are non-blocking, and the
server is in the state from which its runs start.
-/

namespace TunnelServer

open Calls

variable {stray : Bool} {held : Finset SysResource} {log log' : List SysEvent} {fd : Int}

/-! ### What has been done with a descriptor -/

def Nonblocking (log : List SysEvent) (fd : Int) : Prop :=
  ∃ flags ret : Int, ⟨.fcntlGetfl fd, flags⟩ ∈ log ∧ 0 ≤ flags ∧
    ⟨.fcntlSetfl fd (flags.toNat ||| O_NONBLOCK), ret⟩ ∈ log ∧ 0 ≤ ret

def Attached (log : List SysEvent) (fd : Int) : Prop :=
  ⟨.openTun, fd⟩ ∈ log ∧ ∃ ifr answer, ⟨.ioctl fd .TUNSETIFF ifr, answer⟩ ∈ log ∧ 0 ≤ answer.1

/-- The descriptor is that of a socket, reusable and bound to the address, of the kind it belongs to. -/
def BoundTo (log : List SysEvent) (fd : Int) (rp : AddrInfo) : Prop :=
  ⟨.socket rp.aiFamily rp.aiSocktype rp.aiProtocol, fd⟩ ∈ log ∧
    (∃ ret : Int, ⟨.setsockoptReuseport fd, ret⟩ ∈ log ∧ 0 ≤ ret) ∧ ⟨.bind fd rp.aiAddr, (0 : Int)⟩ ∈ log

theorem Nonblocking.mono (h : Nonblocking log fd) (hsub : log ⊆ log') : Nonblocking log' fd := by
  obtain ⟨flags, ret, hget, hflags, hset, hret⟩ := h
  exact ⟨flags, ret, hsub hget, hflags, hsub hset, hret⟩

theorem Attached.mono (h : Attached log fd) (hsub : log ⊆ log') : Attached log' fd := by
  obtain ⟨hopen, ifr, answer, hioctl, hanswer⟩ := h
  exact ⟨hsub hopen, ifr, answer, hsub hioctl, hanswer⟩

theorem BoundTo.mono {rp : AddrInfo} (h : BoundTo log fd rp) (hsub : log ⊆ log') :
    BoundTo log' fd rp := by
  obtain ⟨hsocket, ⟨ret, hreuse, hret⟩, hbind⟩ := h
  exact ⟨hsub hsocket, ⟨ret, hsub hreuse, hret⟩, hsub hbind⟩

/-! ### The functions -/

theorem exec_use_of_nonneg (hfd : 0 ≤ fd → .fd fd ∈ held) :
    Run.exec Resource.step held (if 0 ≤ fd then [.use (.fd fd)] else []) = some held := by
  split_ifs with hnonneg
  · exact Resource.exec_use (hfd hnonneg)
  · rfl

theorem socketSetnonblock_triple (hfd : 0 ≤ fd → .fd fd ∈ held) :
    Triple (sysContract stray) held (socketSetnonblock fd) fun log s held' =>
      held' = held ∧ (s ≠ -1 → 0 ≤ fd ∧ Nonblocking log fd) := by
  have hfailed : ∀ log : List SysEvent, held = held ∧ ((-1 : Int) ≠ -1 → 0 ≤ fd ∧ Nonblocking log fd) :=
    fun _ => ⟨rfl, fun h => absurd rfl h⟩
  refine triple_call fun flags hallowed _ => ⟨held, exec_use_of_nonneg hfd, ?_⟩
  refine triple_ite (fun _ => triple_pure (hfailed _)) fun hflags => ?_
  refine triple_call fun ret _ _ => ⟨held, exec_use_of_nonneg hfd, ?_⟩
  refine triple_ite (fun _ => triple_pure (hfailed _)) fun hret => ?_
  refine triple_pure ⟨rfl, fun _ => ⟨?_, flags, ret, List.mem_cons_self, Int.not_lt.1 hflags,
    List.mem_cons_of_mem _ List.mem_cons_self, Int.not_lt.1 hret⟩⟩
  by_contra hnegative
  exact hflags (hallowed.1 (Int.not_le.1 hnegative))

theorem socketSetReusePort_triple (hfd : .fd fd ∈ held) :
    Triple (sysContract stray) held (socketSetReusePort fd) fun log s held' =>
      held' = held ∧ (s ≠ -1 → ∃ ret : Int, ⟨.setsockoptReuseport fd, ret⟩ ∈ log ∧ 0 ≤ ret) := by
  refine triple_call fun ret _ _ => ⟨held, Resource.exec_use hfd, ?_⟩
  refine triple_ite (fun _ => triple_pure ⟨rfl, fun h => absurd rfl h⟩) fun hret => ?_
  exact triple_pure ⟨rfl, fun _ => ⟨ret, List.mem_cons_self, Int.not_lt.1 hret⟩⟩

theorem ne_neg_one_of_nonneg {r : Int} (hr : 0 ≤ r) : r ≠ -1 := by
  omega

theorem exec_open {r : Int} (hr : 0 ≤ r) :
    Run.exec Resource.step held (if 0 ≤ r then [.acquire (.fd r)] else []) =
      some (insert (.fd r) held) := by
  rw [if_pos hr]
  rfl

theorem notMem_of_fresh_open {r : Int} (hr : 0 ≤ r)
    (hfresh : Resource.Fresh held (if 0 ≤ r then [.acquire (.fd r)] else [])) : .fd r ∉ held := by
  rw [if_pos hr] at hfresh
  exact Resource.notMem_of_fresh hfresh

/-- How the loop leaves things when it ends: with no more sockets than before, or with one that is bound.
A socket that cannot be made reusable stays open. -/
def Bound.Leaves (result : List AddrInfo) (held : Finset SysResource) (log : List SysEvent) :
    Bound → Finset SysResource → Prop
  | .returned, _ => True
  | .exhausted, held' => held' = held
  | .broke sfd, held' => 0 ≤ sfd ∧ .fd sfd ∉ held ∧ held' = insert (.fd sfd) held ∧
      ∃ rp ∈ result, BoundTo log sfd rp

theorem Bound.Leaves.mono {result result' : List AddrInfo} {b : Bound} {held' : Finset SysResource}
    (h : b.Leaves result held log held') (hresult : result ⊆ result') (hsub : log ⊆ log') :
    b.Leaves result' held log' held' := by
  cases b with
  | returned => trivial
  | exhausted => exact h
  | broke sfd =>
      obtain ⟨hsfd, hfree, hheld, rp, hrp, hbound⟩ := h
      exact ⟨hsfd, hfree, hheld, rp, hresult hrp, hbound.mono hsub⟩

theorem bindLoop_triple (result : List AddrInfo) :
    Triple (sysContract stray) held (bindLoop result) fun log b held' => b.Leaves result held log held' := by
  induction result with
  | nil => exact triple_pure rfl
  | cons rp rest ih =>
      -- the rest of the loop, after more calls
      have hrest : ∀ after : List SysEvent → List SysEvent, (∀ log, log ⊆ after log) →
          Triple (sysContract stray) held (bindLoop rest) fun log b held' =>
            b.Leaves (rp :: rest) held (after log) held' := fun after hafter =>
        ih.mono fun log b held' hleaves => hleaves.mono (List.subset_cons_self _ _) (hafter log)
      refine triple_call fun sfd hallowed hfresh => ?_
      rcases hallowed.1 with rfl | hsfd
      · exact ⟨held, rfl, hrest (_ :: ·) fun log => List.subset_cons_self _ log⟩
      have hfree := notMem_of_fresh_open hsfd hfresh
      refine ⟨insert (.fd sfd) held, exec_open hsfd, ?_⟩
      refine triple_ite (fun h => absurd h (ne_neg_one_of_nonneg hsfd)) fun _ => ?_
      refine triple_bind (socketSetReusePort_triple (Finset.mem_insert_self _ _)) fun log₁ s held' hs => ?_
      obtain ⟨rfl, hreuse⟩ := hs
      refine triple_ite (fun _ => triple_pure trivial) fun hset => ?_
      refine triple_call fun s _ _ => ⟨_, Resource.exec_use (Finset.mem_insert_self _ _), ?_⟩
      refine triple_ite (fun hbind => ?_) fun _ => ?_
      · obtain ⟨ret, hreuse, hret⟩ := hreuse hset
        refine triple_pure ⟨hsfd, hfree, rfl, rp, List.mem_cons_self, List.mem_cons_self, ?_, ?_⟩
        · exact ⟨ret, List.mem_cons_of_mem _ (List.mem_append_left _ hreuse), hret⟩
        · exact List.mem_cons_of_mem _ (List.mem_append_right _ (hbind ▸ List.mem_cons_self))
      · refine triple_call fun _ _ _ => ⟨_, Resource.exec_release (Finset.mem_insert_self _ _), ?_⟩
        rw [Finset.erase_insert hfree]
        exact hrest _ fun log x hx => List.mem_cons_of_mem _ (List.mem_append_right _
          (List.mem_cons_of_mem _ (List.mem_cons_of_mem _ hx)))

/-- `socket_create_and_bind` leaves a bound socket and no list behind, unless it fails. -/
theorem socketCreateAndBind_triple (port : List UInt8) :
    Triple (sysContract stray) held (socketCreateAndBind stray port) fun log sfd held' =>
      sfd ≠ -1 → 0 ≤ sfd ∧ .fd sfd ∉ held ∧ held' = insert (.fd sfd) held ∧
        ∃ result, ⟨.getaddrinfo port udpHints, (0, result)⟩ ∈ log ∧
          ∃ rp ∈ result, BoundTo log sfd rp := by
  refine triple_call fun answer hallowed hfresh => ?_
  obtain ⟨s, result⟩ := answer
  by_cases hresolved : s = 0
  · subst hresolved
    have hstored : .addrinfo .stored ∉ held := Resource.notMem_of_fresh hfresh
    refine ⟨insert (.addrinfo .stored) held, rfl, ?_⟩
    refine triple_ite (fun h => absurd rfl h) fun _ => ?_
    refine triple_bind (bindLoop_triple result) fun log₁ b held' hleaves => ?_
    cases b with
    | returned | exhausted => exact triple_pure fun h => absurd rfl h
    | broke sfd =>
        obtain ⟨hsfd, hfree, rfl, rp, hrp, hbound⟩ := hleaves
        rw [Finset.mem_insert, not_or] at hfree
        refine triple_call fun _ _ _ => ⟨_, Resource.exec_release (Finset.mem_insert_of_mem
          (Finset.mem_insert_self _ _)), triple_pure fun _ => ⟨hsfd, hfree.2, ?_, result,
          List.mem_cons_self, rp, hrp, hbound.mono fun x hx => ?_⟩⟩
        · rw [Finset.insert_comm, Finset.erase_insert]
          rw [Finset.mem_insert, not_or]
          exact ⟨nofun, hstored⟩
        · exact List.mem_cons_of_mem _ (List.mem_append_left _ hx)
  · have hnothing : SysEvent.ops ⟨.getaddrinfo port udpHints, (s, result)⟩ = [] := if_neg hresolved
    refine ⟨held, congrArg (Run.exec Resource.step held) hnothing, ?_⟩
    refine triple_ite (fun _ => ?_) fun h => absurd hresolved h
    cases stray with
    | true => exact absurd (hallowed.2 rfl) hresolved
    | false => exact triple_pure fun h => absurd rfl h

/-- `tun_alloc` leaves the device open, unless it fails. -/
theorem tunAlloc_triple (dev : List UInt8) :
    Triple (sysContract stray) held (tunAlloc dev) fun log r held' =>
      (r.1 < 0 ∧ held' = held) ∨
        (0 ≤ r.1 ∧ .fd r.1 ∉ held ∧ held' = insert (.fd r.1) held ∧ Attached log r.1) := by
  refine triple_call fun fd _ hfresh => ?_
  by_cases hfd : (0 : Int) ≤ fd
  · have hfree := notMem_of_fresh_open hfd hfresh
    refine ⟨insert (.fd fd) held, exec_open hfd, ?_⟩
    refine triple_ite (fun h => absurd hfd (Int.not_le.2 h)) fun _ => ?_
    refine triple_call fun answer _ _ => ⟨_, Resource.exec_use (Finset.mem_insert_self _ _), ?_⟩
    refine triple_ite (fun herr => ?_) fun herr => ?_
    · refine triple_call fun _ _ _ => ⟨_, Resource.exec_release (Finset.mem_insert_self _ _), ?_⟩
      exact triple_pure (Or.inl ⟨herr, Finset.erase_insert hfree⟩)
    · exact triple_pure (Or.inr ⟨hfd, hfree, rfl, List.mem_cons_self, _, answer,
        List.mem_cons_of_mem _ List.mem_cons_self, Int.not_lt.1 herr⟩)
  · refine ⟨held, by rw [show (sysContract stray).ops ⟨.openTun, fd⟩ = [] from if_neg hfd]; rfl, ?_⟩
    refine triple_ite (fun h => triple_pure (Or.inl ⟨h, rfl⟩)) fun h => absurd (Int.not_lt.1 h) hfd

theorem tunConfigure_triple (hfd : .fd fd ∈ held) (ifr : Ifreq) (netmask : UInt32) :
    Triple (sysContract stray) held (tunConfigure fd ifr netmask) fun _ _ held' => held' = held := by
  have hioctl : ∀ request ifr answer, Run.exec Resource.step held
      ((sysContract stray).ops ⟨.ioctl fd request ifr, answer⟩) = some held :=
    fun _ _ _ => Resource.exec_use hfd
  refine triple_call fun answer _ _ => ⟨held, hioctl _ _ _, ?_⟩
  refine triple_ite (fun _ => triple_pure rfl) fun _ => ?_
  refine triple_call fun answer _ _ => ⟨held, hioctl _ _ _, ?_⟩
  refine triple_ite (fun _ => triple_pure rfl) fun _ => ?_
  refine triple_call fun answer _ _ => ⟨held, hioctl _ _ _, ?_⟩
  refine triple_ite (fun _ => triple_pure rfl) fun _ => ?_
  exact triple_call fun answer _ _ => ⟨held, hioctl _ _ _, triple_pure rfl⟩

theorem tunSetup_triple (dev : List UInt8) (tunip netmask : UInt32) :
    Triple (sysContract stray) held (tunSetup dev tunip netmask) fun _ _ held' => held' = held := by
  refine triple_call fun sockfd hallowed hfresh => ?_
  rcases hallowed.1 with rfl | hsockfd
  · exact ⟨held, rfl, triple_ite (fun _ => triple_pure rfl) fun h => absurd (by decide) h⟩
  have hfree := notMem_of_fresh_open hsockfd hfresh
  refine ⟨insert (.fd sockfd) held, exec_open hsockfd, ?_⟩
  refine triple_ite (fun h => absurd hsockfd (Int.not_le.2 h)) fun _ => ?_
  refine triple_bind (tunConfigure_triple (Finset.mem_insert_self _ _) _ _) fun log₁ err held' hheld => ?_
  subst hheld
  refine triple_call fun _ _ _ => ⟨_, Resource.exec_release (Finset.mem_insert_self _ _), ?_⟩
  exact triple_pure (Finset.erase_insert hfree)

/-- What is there when the event loop is entered. -/
structure MainLoop.Ready (port : List UInt8) (log : List SysEvent) (loop : MainLoop) : Prop where
  attached : Attached log loop.tunfd
  tunNonblocking : Nonblocking log loop.tunfd
  sockNonblocking : Nonblocking log loop.sockfd
  distinct : loop.tunfd ≠ loop.sockfd
  bound : ∃ result, ⟨.getaddrinfo port udpHints, (0, result)⟩ ∈ log ∧
    ∃ rp ∈ result, BoundTo log loop.sockfd rp
  server : loop.server = serverInit serverIpInit

theorem tunnelServerStart_triple (port : List UInt8) :
    Triple (sysContract stray) ∅ (tunnelServerStart stray port) fun log r held' =>
      ∀ loop, r = some loop → held' = {.fd loop.sockfd, .fd loop.tunfd} ∧ loop.Ready port log := by
  refine triple_bind (tunAlloc_triple _) fun log₁ answer held₁ halloc => ?_
  obtain ⟨tunfd, tunDev⟩ := answer
  refine triple_bind (tunSetup_triple tunDev tunIp tunNetmask) fun log₂ _ held₂ hheld => ?_
  subst hheld
  have htun : 0 ≤ tunfd → .fd tunfd ∈ held₂ := fun hnonneg => by
    rcases halloc with ⟨hnegative, -⟩ | ⟨-, -, rfl, -⟩
    · exact absurd hnonneg (Int.not_le.2 hnegative)
    · exact Finset.mem_insert_self _ _
  refine triple_bind (socketSetnonblock_triple htun) fun log₃ s held₃ hset => ?_
  obtain ⟨rfl, hset⟩ := hset
  refine triple_ite (fun _ => triple_pure nofun) fun hs => ?_
  obtain ⟨hnonneg, htunNonblocking⟩ := hset hs
  obtain ⟨-, -, rfl, hattached⟩ := halloc.resolve_left fun h => absurd hnonneg (Int.not_le.2 h.1)
  refine triple_bind (socketCreateAndBind_triple port) fun log₄ sfd held₄ hbound => ?_
  refine triple_ite (fun _ => triple_pure nofun) fun hsfd => ?_
  obtain ⟨hsfd, hfree, rfl, result, hresult, rp, hrp, hbound⟩ := hbound hsfd
  refine triple_bind (socketSetnonblock_triple fun _ => Finset.mem_insert_self _ _)
    fun log₅ s held₅ hset => ?_
  obtain ⟨rfl, hset⟩ := hset
  refine triple_ite (fun _ => triple_pure nofun) fun hs => triple_pure ?_
  rintro _ ⟨⟩
  have hdistinct : tunfd ≠ sfd := fun h => hfree (h ▸ Finset.mem_insert_self _ _)
  refine ⟨rfl, hattached.mono ?_, htunNonblocking.mono ?_, (hset hs).2.mono ?_, hdistinct,
    ⟨result, ?_, rp, hrp, hbound.mono ?_⟩, rfl⟩
  · exact List.subset_append_left _ _
  · intro x hx
    simp only [List.mem_append, hx, true_or, or_true]
  · intro x hx
    simp only [List.mem_append, hx, true_or, or_true]
  · simp only [List.mem_append, hresult, true_or, or_true]
  · intro x hx
    simp only [List.mem_append, hx, true_or, or_true]

/-! ### The lookup that fails -/

def SysCall.Plain (k : SysCall) : Prop := ∀ port hints, k ≠ .getaddrinfo port hints

theorem resolved_of_plain {x : SysEvent} (hx : x.1.Plain) : SysEvent.Resolved x := by
  obtain ⟨k, r⟩ := x
  cases k with
  | getaddrinfo port hints => exact absurd rfl (hx port hints)
  | _ => trivial

theorem socketSetnonblock_only (fd : Int) : (socketSetnonblock fd).Only SysCall.Plain :=
  ⟨nofun, fun _ => only_ite trivial ⟨nofun, fun _ => only_ite trivial trivial⟩⟩

theorem socketSetReusePort_only (fd : Int) : (socketSetReusePort fd).Only SysCall.Plain :=
  ⟨nofun, fun _ => only_ite trivial trivial⟩

theorem bindLoop_only (result : List AddrInfo) : (bindLoop result).Only SysCall.Plain := by
  induction result with
  | nil => trivial
  | cons rp rest ih =>
      exact ⟨nofun, fun sfd => only_ite ih ((socketSetReusePort_only sfd).bind fun _ =>
        only_ite trivial ⟨nofun, fun _ => only_ite trivial ⟨nofun, fun _ => ih⟩⟩)⟩

theorem tunAlloc_only (dev : List UInt8) : (tunAlloc dev).Only SysCall.Plain :=
  ⟨nofun, fun _ => only_ite trivial ⟨nofun, fun _ => only_ite ⟨nofun, fun _ => trivial⟩ trivial⟩⟩

theorem tunConfigure_only (fd : Int) (ifr : Ifreq) (netmask : UInt32) :
    (tunConfigure fd ifr netmask).Only SysCall.Plain :=
  ⟨nofun, fun _ => only_ite trivial ⟨nofun, fun _ => only_ite trivial ⟨nofun, fun _ =>
    only_ite trivial ⟨nofun, fun _ => trivial⟩⟩⟩⟩

theorem tunSetup_only (dev : List UInt8) (tunip netmask : UInt32) :
    (tunSetup dev tunip netmask).Only SysCall.Plain :=
  ⟨nofun, fun _ => only_ite trivial ((tunConfigure_only _ _ _).bind fun _ => ⟨nofun, fun _ => trivial⟩)⟩

/-- When the lookup fails, `socket_create_and_bind` fails, and frees `result` if it points anywhere. -/
theorem socketCreateAndBind_cases {port : List UInt8} {sfd : Int}
    (hlog : (socketCreateAndBind stray port).Yields log sfd) :
    (∀ x ∈ log, SysEvent.Resolved x) ∨
      (sfd = -1 ∧ (stray = true → ∃ r, ⟨.freeaddrinfo .stray, r⟩ ∈ log)) := by
  obtain ⟨⟨s, result⟩, rest, rfl, hrest⟩ := hlog
  rcases Yields.of_ite hrest with ⟨-, hfailed⟩ | ⟨hresolved, hrest⟩
  · right
    rcases Yields.of_ite hfailed with ⟨-, r, _, rfl, rfl, rfl⟩ | ⟨hnull, rfl, rfl⟩
    · exact ⟨rfl, fun _ => ⟨r, List.mem_cons_of_mem _ List.mem_cons_self⟩⟩
    · exact ⟨rfl, fun h => absurd h hnull⟩
  · left
    obtain ⟨log₁, b, log₂, rfl, hloop, hlast⟩ := yields_bind.1 hrest
    refine List.forall_mem_cons.2 ⟨not_not.1 hresolved, List.forall_mem_append.2 ⟨fun x hx =>
      resolved_of_plain ((bindLoop_only result).of_yields hloop x hx), ?_⟩⟩
    cases b with
    | returned | exhausted =>
        obtain ⟨rfl, -⟩ := hlast
        exact fun _ hx => nomatch hx
    | broke fd =>
        obtain ⟨r, _, rfl, rfl, -⟩ := hlast
        exact List.forall_mem_singleton.2 trivial

theorem tunnelServerStart_cases {port : List UInt8} {r : Option MainLoop}
    (hlog : (tunnelServerStart stray port).Yields log r) :
    (∀ x ∈ log, SysEvent.Resolved x) ∨
      (r = none ∧ (stray = true → ∃ r, ⟨.freeaddrinfo .stray, r⟩ ∈ log)) := by
  obtain ⟨log₁, ⟨tunfd, tunDev⟩, _, rfl, halloc, hrest⟩ := yields_bind.1 hlog
  obtain ⟨log₂, _, _, rfl, hsetup, hrest⟩ := yields_bind.1 hrest
  obtain ⟨log₃, s, rest, rfl, hset, hrest⟩ := yields_bind.1 hrest
  have halloc := fun x hx => resolved_of_plain ((tunAlloc_only _).of_yields halloc x hx)
  have hsetup := fun x hx => resolved_of_plain ((tunSetup_only _ _ _).of_yields hsetup x hx)
  have hset := fun x hx => resolved_of_plain ((socketSetnonblock_only _).of_yields hset x hx)
  have hlast : (∀ x ∈ rest, SysEvent.Resolved x) ∨
      (r = none ∧ (stray = true → ∃ r, ⟨.freeaddrinfo .stray, r⟩ ∈ rest)) := by
    rcases Yields.of_ite hrest with ⟨-, rfl, rfl⟩ | ⟨-, hrest⟩
    · exact Or.inl fun _ hx => nomatch hx
    obtain ⟨log₄, sfd, log₅, rfl, hbind, hrest⟩ := yields_bind.1 hrest
    rcases socketCreateAndBind_cases hbind with hresolved | ⟨rfl, hfreed⟩
    · left
      refine List.forall_mem_append.2 ⟨hresolved, ?_⟩
      rcases Yields.of_ite hrest with ⟨-, rfl, -⟩ | ⟨-, hrest⟩
      · exact fun _ hx => nomatch hx
      obtain ⟨log₆, _, log₇, rfl, hset, hrest⟩ := yields_bind.1 hrest
      refine List.forall_mem_append.2 ⟨fun x hx =>
        resolved_of_plain ((socketSetnonblock_only _).of_yields hset x hx), ?_⟩
      rcases Yields.of_ite hrest with ⟨-, rfl, -⟩ | ⟨-, rfl, -⟩
      · exact fun _ hx => nomatch hx
      · exact fun _ hx => nomatch hx
    · right
      rcases Yields.of_ite hrest with ⟨-, rfl, rfl⟩ | ⟨hne, -⟩
      · exact ⟨rfl, fun h => (hfreed h).imp fun _ => List.mem_append_left _⟩
      · exact absurd rfl hne
  refine hlast.imp (fun hresolved => ?_) fun hfailed => ⟨hfailed.1, fun h => ?_⟩
  · exact List.forall_mem_append.2 ⟨halloc, List.forall_mem_append.2 ⟨hsetup,
      List.forall_mem_append.2 ⟨hset, hresolved⟩⟩⟩
  · obtain ⟨r, hr⟩ := hfailed.2 h
    exact ⟨r, List.mem_append_right _ (List.mem_append_right _ (List.mem_append_right _ hr))⟩

theorem stray_not_acquired (log : List SysEvent) :
    .acquire (.addrinfo .stray) ∉ log.flatMap SysEvent.ops := by
  intro hmem
  obtain ⟨⟨k, r⟩, -, hx⟩ := List.mem_flatMap.1 hmem
  cases k with
  | openTun | socket | fcntlGetfl | fcntlSetfl | getaddrinfo =>
      simp only [SysEvent.ops] at hx
      split_ifs at hx <;> simp at hx
  | ioctl | setsockoptReuseport | bind | close | freeaddrinfo => simp [SysEvent.ops] at hx

theorem tunnelServerStart_exec {port : List UInt8} {r : Option MainLoop}
    (hlog : (tunnelServerStart stray port).Yields log r) (hdocumented : ∀ x ∈ log, SysEvent.Documented x)
    (hfresh : Resource.Fresh ∅ (log.flatMap SysEvent.ops))
    (hresolved : stray = true → ∀ x ∈ log, SysEvent.Resolved x) :
    ∃ held, Run.exec Resource.step ∅ (log.flatMap SysEvent.ops) = some held ∧
      ∀ loop, r = some loop → held = {.fd loop.sockfd, .fd loop.tunfd} ∧ loop.Ready port log :=
  tunnelServerStart_triple port log r hlog
    ⟨fun x hx => ⟨hdocumented x hx, fun h => hresolved h x hx⟩, hfresh⟩

/-- Whatever the system answers, the start touches no descriptor and no list that it does not hold, and
gives none back twice, exactly if the lookup of the port does not fail while the local `result` happens to
point anywhere. -/
theorem start_disciplined_iff (port : List UInt8) (r : Option MainLoop)
    (hlog : (tunnelServerStart stray port).Yields log r) (hdocumented : ∀ x ∈ log, SysEvent.Documented x)
    (hfresh : Resource.Fresh ∅ (log.flatMap SysEvent.ops)) :
    (Run.exec Resource.step ∅ (log.flatMap SysEvent.ops)).isSome ↔
      (stray = true → ∀ x ∈ log, SysEvent.Resolved x) := by
  constructor
  · intro hsome hstray
    obtain ⟨held, hrun⟩ := Option.isSome_iff_exists.1 hsome
    refine (tunnelServerStart_cases hlog).resolve_right fun hfailed => ?_
    obtain ⟨r, hfreed⟩ := hfailed.2 hstray
    have hrelease : .release (.addrinfo .stray) ∈ log.flatMap SysEvent.ops :=
      List.mem_flatMap.2 ⟨_, hfreed, List.mem_singleton_self _⟩
    rcases Resource.held_of_release hrun hrelease with hheld | hacquired
    · exact absurd hheld (Finset.notMem_empty _)
    · exact stray_not_acquired log hacquired
  · intro hresolved
    obtain ⟨held, hrun, -⟩ := tunnelServerStart_exec hlog hdocumented hfresh hresolved
    rw [hrun]
    rfl

theorem start_disciplined_iff_failedLookup :
    ¬ (Run.exec Resource.step ∅
        (((tunnelServerStart true [0x34]).runWith failedLookup).1.flatMap SysEvent.ops)).isSome := by
  have hdocumented : ∀ x ∈ ((tunnelServerStart true [0x34]).runWith failedLookup).1,
      SysEvent.Documented x := by decide +kernel
  have hfresh : Resource.Fresh ∅
      (((tunnelServerStart true [0x34]).runWith failedLookup).1.flatMap SysEvent.ops) := by
    decide +kernel
  rw [start_disciplined_iff [0x34] _ (yields_runWith failedLookup _) hdocumented hfresh]
  decide +kernel

/-! ### The addresses of the clients -/

theorem toNat_leWord (a b c d : UInt8) :
    (leWord [a, b, c, d]).toNat =
      a.toNat + 256 * b.toNat + 65536 * c.toNat + 16777216 * d.toNat := by
  have ha := a.toNat_lt
  have hb := b.toNat_lt
  have hc := c.toNat_lt
  have hd := d.toNat_lt
  rw [leWord, UInt32.toNat_ofNat']
  simp only [List.getD_cons_zero, List.getD_cons_succ]
  omega

/-- 10.0.0.2 to 10.0.255.254. -/
theorem toNat_minIp : minIp.toNat = 167772162 := by decide

theorem toNat_maxIp : maxIp.toNat = 167837694 := by decide

theorem onTunNetwork_of_range {x : UInt32} (hlow : minIp ≤ x) (hhigh : x ≤ maxIp) :
    OnTunNetwork (htonl x) := by
  rw [UInt32.le_iff_toNat_le, toNat_minIp] at hlow
  rw [UInt32.le_iff_toNat_le, toNat_maxIp] at hhigh
  have hip : (htonl x).toNat = 10 + 65536 * (x.toNat / 256 % 256) + 16777216 * (x.toNat % 256) := by
    show (leWord [UInt8.ofNat (x.toNat / 16777216), UInt8.ofNat (x.toNat / 65536),
      UInt8.ofNat (x.toNat / 256), UInt8.ofNat x.toNat]).toNat = _
    rw [toNat_leWord]
    simp only [UInt8.toNat_ofNat']
    omega
  have hne : ∀ y : UInt32, (htonl x).toNat ≠ y.toNat → htonl x ≠ y := fun y h heq => h (heq ▸ rfl)
  have hmask : tunNetmask.toNat = 2 ^ 16 - 1 := by decide
  have hnetwork : (tunIp &&& tunNetmask).toNat = 10 := by decide
  have hdevice : tunIp.toNat = 16777226 := by decide
  have hbroadcast : (tunIp ||| ~~~tunNetmask).toNat = 4294901770 := by decide
  refine ⟨UInt32.toNat_inj.mp ?_, hne _ ?_, hne _ ?_, hne _ ?_⟩
  · rw [hnetwork, UInt32.toNat_and, hmask, Nat.and_two_pow_sub_one_eq_mod, hip]
    omega
  · rw [hnetwork, hip]
    omega
  · rw [hdevice, hip]
    omega
  · rw [hbroadcast, hip]
    omega

theorem Server.Sound.onTunNetwork {s : Server} (hs : s.Sound 65533) {h : Handle} {c : Client}
    (hr : s.clients.Registered h c) : OnTunNetwork c.ip := by
  have hip : (ntohl c.ip - s.pool.ipStart.toUInt32).toNat < s.pool.ipCount := hs.owned h c hr.1
  have hstart : minIp.toInt32.toUInt32.toNat = 167772162 := by decide
  rw [hs.count, hs.start, UInt32.toNat_sub, hstart] at hip
  have hlt := (ntohl c.ip).toNat_lt
  rw [← htonl_ntohl c.ip]
  refine onTunNetwork_of_range ?_ ?_
  · rw [UInt32.le_iff_toNat_le, toNat_minIp]
    omega
  · rw [UInt32.le_iff_toNat_le, toNat_maxIp]
    omega

/-- When the start comes to the event loop, it holds the descriptors of the loop and nothing else, they
are ready, and the server is in the state from which its runs start. In each of these the clients have
addresses of the network that the tun device is configured for. -/
theorem start_ready (port : List UInt8) (loop : MainLoop)
    (hlog : (tunnelServerStart stray port).Yields log (some loop))
    (hdocumented : ∀ x ∈ log, SysEvent.Documented x)
    (hfresh : Resource.Fresh ∅ (log.flatMap SysEvent.ops)) :
    Run.exec Resource.step ∅ (log.flatMap SysEvent.ops) = some {.fd loop.sockfd, .fd loop.tunfd} ∧
      loop.Ready port log ∧
      ∀ es t h c, Run.exec step loop.server es = some t → t.clients.Registered h c →
        OnTunNetwork c.ip := by
  have hresolved := (tunnelServerStart_cases hlog).resolve_right fun h => nomatch h.1
  obtain ⟨held, hrun, hready⟩ := tunnelServerStart_exec hlog hdocumented hfresh fun _ => hresolved
  obtain ⟨hheld, hready⟩ := hready loop rfl
  refine ⟨hheld ▸ hrun, hready, fun es t h c hrun hr => ?_⟩
  rw [hready.server, IpPool.serverIpInit_eq] at hrun
  exact (Server.sound_of_exec (by decide) le_rfl hrun).onTunNetwork hr

theorem start_ready_twoAddresses :
    ∃ log loop, (tunnelServerStart true [0x34]).Yields log (some loop) ∧
      loop.sockfd = 4 ∧ loop.tunfd = 3 ∧ loop.Ready [0x34] log := by
  have hdocumented : ∀ x ∈ ((tunnelServerStart true [0x34]).runWith twoAddresses).1,
      SysEvent.Documented x := by decide +kernel
  have hfresh : Resource.Fresh ∅
      (((tunnelServerStart true [0x34]).runWith twoAddresses).1.flatMap SysEvent.ops) := by
    decide +kernel
  have hlog := yields_runWith twoAddresses (tunnelServerStart true [0x34])
  exact ⟨_, _, hlog, rfl, rfl, (start_ready [0x34] _ hlog hdocumented hfresh).2.1⟩

end TunnelServer
