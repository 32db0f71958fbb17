import TunnelServer.Proof.Datagram
import TunnelServer.Proof.Sound

/-!
# Whose acknowledgement it is

`server_on_connect_done` finds the client by the address in the datagram and does not look at the
session id behind it. So the handshake of a client ends on anybody's CONNECT_DONE for its address.
-/

namespace TunnelServer

namespace Server

open ClientTable

variable {n : Nat} {s t : Server} {e : Event} {h : Handle} {c : Client}

/-- A client whose handshake ends in the step was sent a complete CONNECT_DONE with its own address and
session id. -/
def AcknowledgedItself (m : Server × Event × Server) : Prop :=
  ∀ h c c', m.1.clients.Registered h c → c.state = .connect →
    m.2.2.clients.heap h = some c' → c'.state = .connectDone →
      ∃ bytes src env packet, m.2.1 = .socketRead false (some (bytes, src)) env ∧
        TunnelConnectOkDone.ofBytes bytes = some packet ∧
        packet.cmd = TUNNEL_CMD_CONNECT_DONE ∧ packet.ip = c.ip ∧ packet.sid = c.sid

/-- A CONNECT_DONE datagram that names the address of a client in the handshake is complete and carries
the client's session id. -/
def SidFits (m : Server × Event) : Prop :=
  ∀ bytes src env, m.2 = .socketRead false (some (bytes, src)) env →
    (datagramCtx bytes src).cmd = TUNNEL_CMD_CONNECT_DONE →
      ∀ h c, m.1.clients.Registered h c → c.ip = leWord (bytes.drop 2) → c.state = .connect →
        7 ≤ bytes.length ∧ bytes.getD 6 0 = c.sid

/-- Only a CONNECT_DONE that names its address ends the handshake of a client. -/
theorem Sound.connected_cases (hs : s.Sound n) (hstep : step s e = some t) {c' : Client}
    (hr : s.clients.Registered h c) (hstate : c.state = .connect) (hc' : t.clients.heap h = some c')
    (hstate' : c'.state = .connectDone) :
    ∃ ctx env, e.command TUNNEL_CMD_CONNECT_DONE = some (ctx, env) ∧ c.ip = ctx.doneIp := by
  have hleft : c'.state ≠ c.state := by
    rw [hstate, hstate']
    exact nofun
  rcases (hs.step_cases hstep).heap_cases hs.agree hc' with
    ⟨hbrk, -⟩ | ⟨d, timer, xs, hr', htouch⟩ | hsame
  · exact absurd hbrk (hs.agree.heap_ne_brk hr.1)
  · cases Agree.registered_unique hr hr'
    cases htouch with
    | reconnect => cases hstate'
    | connectDone hcmd hfind =>
        obtain ⟨d, hd, hip⟩ := hs.agree.registered_of_findClient hfind
        exact ⟨_, _, hcmd, by rw [← hip, Agree.registered_unique hr hd]⟩
    | traffic | refresh | resend | settle => exact absurd rfl hleft
  · cases Option.some.inj (hr.1.symm.trans hsame)
    exact absurd rfl hleft

theorem Sound.acknowledgedItself_iff (hs : s.Sound n) (hstep : step s e = some t) :
    AcknowledgedItself (s, e, t) ↔ SidFits (s, e) := by
  constructor
  · intro hself bytes src env hevent hcmd h c hr hip hstate
    subst hevent
    have hdone : (Event.socketRead false (some (bytes, src)) env).command TUNNEL_CMD_CONNECT_DONE =
        some (datagramCtx bytes src, env) := if_pos hcmd
    have hfind : s.clients.findClient (datagramCtx bytes src).doneIp = some h := by
      rw [doneIp_datagramCtx, ← hip]
      exact hr.2
    obtain ⟨ctx, heq⟩ := step_connectDone hdone hfind hr
    rw [heq, Option.some.injEq] at hstep
    subst hstep
    obtain ⟨bytes', src', env', packet, hevent, hpacket, -, -, hsid⟩ :=
      hself h c _ hr hstate (set_heap_self _ _ _) rfl
    cases hevent
    unfold TunnelConnectOkDone.ofBytes at hpacket
    split_ifs at hpacket with hlen
    cases hpacket
    exact ⟨hlen, hsid⟩
  · intro hfits h c c' hr hstate hc' hstate'
    obtain ⟨ctx, env, hdone, hip⟩ := hs.connected_cases hstep hr hstate hc' hstate'
    obtain ⟨bytes, src, rfl, rfl, hcmd⟩ := command_eq_some.1 hdone
    rw [doneIp_datagramCtx] at hip
    obtain ⟨hlen, hsid⟩ := hfits bytes src env rfl hcmd h c hr hip hstate
    refine ⟨bytes, src, env, _, rfl, if_pos hlen, ?_, hip.symm, hsid⟩
    rw [← hcmd]
    exact (sockByte_datagramCtx bytes src (by decide)).symm

end Server

open Server

/-- In a run every handshake ends on the client's own acknowledgement, exactly as long as every
CONNECT_DONE that names the address of a client in the handshake carries its session id. -/
theorem acknowledged_itself_iff {n : Nat} (hmin : 2 ≤ n) (hmax : n ≤ 65533) (es : List Event) :
    (∀ m ∈ Run.taken step (serverInit (ipPoolOf n)) es, AcknowledgedItself m) ↔
      ∀ m ∈ Run.taken step (serverInit (ipPoolOf n)) es, SidFits (m.1, m.2.1) := by
  refine forall₂_congr fun m hm => ?_
  obtain ⟨hfrom, hstep, -⟩ := Run.of_mem_taken hm
  exact (sound_of_mem_visited hmin hmax hfrom).acknowledgedItself_iff hstep

theorem acknowledged_itself_iff_comingAndGoing :
    (∀ m ∈ Run.taken step (serverInit (ipPoolOf 65533)) comingAndGoing, AcknowledgedItself m) ↔
      ∀ m ∈ Run.taken step (serverInit (ipPoolOf 65533)) comingAndGoing, SidFits (m.1, m.2.1) :=
  acknowledged_itself_iff (by decide) le_rfl comingAndGoing

/-- The server's first client is given the first address, with session id 0. -/
def firstConnect : Event := .arrives (connectDatagram [0x61]) (.inet 192 0 2 1) 0

def foreignDone : Event :=
  .arrives (connectDoneDatagram (htonl minIp) 7) (.inet 192 0 2 2) (1 / 4)

/-- It ends the handshake of the client. -/
theorem foreign_sid_acknowledges :
    ¬ ∀ m ∈ Run.taken step (serverInit serverIpInit) [firstConnect, foreignDone], AcknowledgedItself m := by
  have hrun : (step (serverInit serverIpInit) firstConnect).any (fun s =>
      (step s foreignDone).any fun t =>
        (s.clients.heap 0).any (fun c => decide (s.clients.findClient c.ip = some 0 ∧
          c.state = .connect ∧ c.sid = 0)) &&
        (t.clients.heap 0).any fun c' => decide (c'.state = .connectDone)) = true := by
    decide +kernel
  simp only [Option.any_eq_true, Bool.and_eq_true, decide_eq_true_eq] at hrun
  obtain ⟨s, hconnect, t, hdone, ⟨c, hc, hfind, hstate, hsid⟩, c', hc', hstate'⟩ := hrun
  intro hall
  rw [Run.taken_cons_some hconnect, Run.taken_cons_some hdone] at hall
  obtain ⟨bytes, src, env, packet, hevent, hpacket, -, -, hfits⟩ :=
    hall (s, foreignDone, t) (List.mem_cons_of_mem _ List.mem_cons_self) 0 c c' ⟨hc, hfind⟩ hstate
      hc' hstate'
  cases hevent
  rw [connectDoneDatagram, TunnelConnectOkDone.ofBytes_bytes, Option.some.injEq] at hpacket
  subst hpacket
  rw [hsid] at hfits
  exact absurd hfits (by decide)

end TunnelServer
