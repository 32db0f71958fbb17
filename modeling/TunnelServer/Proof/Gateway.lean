import TunnelServer.Gateway
import TunnelServer.Proof.Resending
import TunnelServer.Proof.Traffic

/-!
# The server is a gateway

Every step of a sound server is an answer of a gateway with the leases that its records make up, and sends
what the gateway sends. The proof goes by the kind of event; what a handler does to the registry and to the
timers is one of three changes to the leases.
-/

namespace TunnelServer

def Client.lease (c : Client) (alarm : Option Timer) : Lease where
  ip := c.ip
  sid := c.sid
  endpoint := c.srcAddr
  state := c.state
  resends := c.resendCounter.toNat
  seen := c.ts
  alarm := alarm

theorem ClientTable.set_self {t : ClientTable} {h : Handle} {c : Client} (hc : t.heap h = some c) :
    t.set h c = t := by
  rw [ClientTable.set, ← hc, Function.update_eq_self]

namespace Server

def guidOf (s : Server) (h : Handle) : Option (List UInt8) :=
  (s.clients.heap h).map fun c => cString c.guid

def leaseOf (s : Server) (g : List UInt8) : Option Lease := do
  let h ← s.clients.gClientsGuid.find g
  let c ← s.clients.heap h
  some (c.lease (s.timers h))

def request (s : Server) : Event → Request
  | .socketRead false (some (bytes, src)) env =>
    let ctx := datagramCtx bytes src
    if ctx.cmd = TUNNEL_CMD_CONNECT then .connect (cString ctx.connectGuid) src env.now
    else if ctx.cmd = TUNNEL_CMD_CONNECT_DONE then .confirm ctx.doneIp
    else if ctx.cmd = TUNNEL_CMD_TRANS_OUT then
      .packetOut (ctx.transoutIp env.cliIp) ctx.transoutSid ctx.ippackSize
        (ctx.ippack.take ctx.ippackSize.toNat) src env.now
    else .other
  | .tunRead false received cliIp =>
    let buf := s.ctx.tunBuffer.readTun received
    .packetIn (buf.transinIp cliIp) buf.transinPacket
  | .timer w error env => (s.guidOf w).elim .other fun g => .alarm g error env.now
  | _ => .other

def output (t : Server) : Effect → Option Output
  | .sendto cli dst packet => some (.datagram (cli.bind t.guidOf) dst packet)
  | .write count packet => some (.packet count packet)
  | _ => none

def sent (s t : Server) : List Output := (logged s t).filterMap t.output

def exchange (m : Server × Event × Server) : Request × List Output :=
  (m.1.request m.2.1, sent m.1 m.2.2)

def Models (s : Server) (L : Leases) : Prop := ∀ g, L.lease g = s.leaseOf g

open ClientTable

variable {n : Nat} {s t : Server} {e : Event} {h : Handle} {c c' : Client} {g : List UInt8} {l : Lease}
  {L : Leases} {env : Env}

/-! ### The leases of a server -/

theorem leaseOf_eq_some (ha : s.clients.Agree) :
    s.leaseOf g = some l ↔
      ∃ h c, s.clients.Registered h c ∧ cString c.guid = g ∧ l = c.lease (s.timers h) := by
  simp only [leaseOf, Option.bind_eq_bind, Option.bind_eq_some_iff, Option.some.injEq]
  constructor
  · intro hl
    obtain ⟨h, hfind, c, hc, rfl⟩ := hl
    obtain ⟨d, hr, hg⟩ := ha.registered_of_findGuid hfind
    cases Option.some.inj (hr.1.symm.trans hc)
    exact ⟨h, _, hr, hg, rfl⟩
  · intro hl
    obtain ⟨h, c, hr, rfl, rfl⟩ := hl
    exact ⟨h, ha.findGuid_of_registered hr, c, hr.1, rfl⟩

theorem Models.lease_eq_some (hm : s.Models L) (ha : s.clients.Agree) :
    L.lease g = some l ↔
      ∃ h c, s.clients.Registered h c ∧ cString c.guid = g ∧ l = c.lease (s.timers h) := by
  rw [hm g, leaseOf_eq_some ha]

theorem Models.lease_of_registered (hm : s.Models L) (ha : s.clients.Agree)
    (hr : s.clients.Registered h c) : L.lease (cString c.guid) = some (c.lease (s.timers h)) :=
  (hm.lease_eq_some ha).2 ⟨h, c, hr, rfl, rfl⟩

theorem Models.congr (hm : s.Models L) (hclients : t.clients = s.clients) (htimers : t.timers = s.timers) :
    t.Models L := by
  intro g
  rw [hm g, leaseOf, leaseOf, hclients, htimers]

theorem models_of_registered (ha : t.clients.Agree)
    (hl : ∀ g l, L.lease g = some l ↔
      ∃ h c, t.clients.Registered h c ∧ cString c.guid = g ∧ l = c.lease (t.timers h)) :
    t.Models L := by
  intro g
  apply Option.ext
  intro l
  rw [hl, leaseOf_eq_some ha]

theorem Models.touch (hm : s.Models L) (hs : s.Sound n) (hr : s.clients.Registered h c)
    {timer : Option Timer} (hclients : t.clients = s.clients.set h c')
    (htimers : t.timers = Function.update s.timers h timer) (hguid : c'.guid = c.guid)
    (hip : c'.ip = c.ip) :
    t.Models (L.grant (cString c.guid) (c'.lease timer)) := by
  have ha : t.clients.Agree := by
    rw [hclients]
    exact hs.agree.set hr.1 hip (by rw [hguid])
  refine models_of_registered ha fun g l => ?_
  rw [hclients, htimers]
  simp only [registered_set hr hip]
  show (if g = cString c.guid then some (c'.lease timer)
    else (L.lease g).filter fun m => m.ip ≠ c'.ip) = some l ↔ _
  by_cases hg : g = cString c.guid
  · rw [if_pos hg, Option.some.injEq]
    constructor
    · intro hl
      exact ⟨h, c', Or.inl ⟨rfl, rfl⟩, by rw [hguid, hg], by rw [Function.update_self, hl]⟩
    · intro hl
      obtain ⟨k, d, ⟨rfl, rfl⟩ | ⟨hne, hk⟩, hd, rfl⟩ := hl
      · rw [Function.update_self]
      · exact absurd (hs.agree.registered_inj hk hr (Or.inr (hd.trans hg))) hne
  · rw [if_neg hg, Option.filter_eq_some_iff, hm.lease_eq_some hs.agree]
    constructor
    · intro hl
      obtain ⟨⟨k, d, hk, hd, rfl⟩, -⟩ := hl
      have hne : k ≠ h := by
        intro heq
        subst heq
        exact hg (by rw [← hd, Agree.registered_unique hk hr])
      exact ⟨k, d, Or.inr ⟨hne, hk⟩, hd, by rw [Function.update_of_ne hne]⟩
    · intro hl
      obtain ⟨k, d, ⟨rfl, rfl⟩ | ⟨hne, hk⟩, hd, rfl⟩ := hl
      · exact absurd (by rw [← hd, hguid]) hg
      · rw [Function.update_of_ne hne]
        refine ⟨⟨k, d, hk, hd, rfl⟩, ?_⟩
        rw [decide_eq_true_eq]
        intro hsame
        exact hne (hs.agree.registered_inj hk hr (Or.inl (hsame.trans hip)))

/-- A new client takes its address, from whoever holds it. -/
theorem Models.enroll (hm : s.Models L) (hs : s.Sound n)
    (hnew : s.clients.gClientsGuid.find (cString c.guid) = none) {timer : Option Timer}
    (hclients : t.clients = s.clients.enroll c)
    (htimers : t.timers = Function.update s.timers s.clients.brk timer) :
    t.Models (L.grant (cString c.guid) (c.lease timer)) := by
  have ha : t.clients.Agree := by
    rw [hclients]
    exact hs.agree.enroll hnew
  refine models_of_registered ha fun g l => ?_
  rw [hclients, htimers]
  simp only [registered_enroll hs.agree]
  show (if g = cString c.guid then some (c.lease timer)
    else (L.lease g).filter fun m => m.ip ≠ c.ip) = some l ↔ _
  by_cases hg : g = cString c.guid
  · rw [if_pos hg, Option.some.injEq]
    constructor
    · intro hl
      exact ⟨s.clients.brk, c, Or.inl ⟨rfl, rfl⟩, hg.symm, by rw [Function.update_self, hl]⟩
    · intro hl
      obtain ⟨k, d, ⟨rfl, rfl⟩ | ⟨hk, -⟩, hd, rfl⟩ := hl
      · rw [Function.update_self]
      · have hfind := hs.agree.findGuid_of_registered hk
        rw [hd, hg, hnew] at hfind
        cases hfind
  · rw [if_neg hg, Option.filter_eq_some_iff, hm.lease_eq_some hs.agree]
    constructor
    · intro hl
      obtain ⟨⟨k, d, hk, hd, rfl⟩, hip⟩ := hl
      have hne : k ≠ s.clients.brk := hs.agree.heap_ne_brk hk.1
      exact ⟨k, d, Or.inr ⟨hk, of_decide_eq_true hip⟩, hd, by rw [Function.update_of_ne hne]⟩
    · intro hl
      obtain ⟨k, d, ⟨rfl, rfl⟩ | ⟨hk, hip⟩, hd, rfl⟩ := hl
      · exact absurd hd.symm hg
      · rw [Function.update_of_ne (hs.agree.heap_ne_brk hk.1)]
        exact ⟨⟨k, d, hk, hd, rfl⟩, decide_eq_true hip⟩

theorem Models.drop (hm : s.Models L) (hs : s.Sound n) (hr : s.clients.Registered h c)
    {timer : Option Timer} (hclients : t.clients = s.clients.drop h)
    (htimers : t.timers = Function.update s.timers h timer) :
    t.Models (L.release (cString c.guid)) := by
  have ha : t.clients.Agree := by
    rw [hclients]
    exact hs.agree.drop h
  refine models_of_registered ha fun g l => ?_
  rw [hclients, htimers]
  simp only [registered_drop hs.agree]
  show (if g = cString c.guid then none else L.lease g) = some l ↔ _
  by_cases hg : g = cString c.guid
  · rw [if_pos hg]
    refine ⟨fun hl => absurd hl (by simp), fun hl => ?_⟩
    obtain ⟨k, d, ⟨hk, hne⟩, hd, -⟩ := hl
    exact absurd (hs.agree.registered_inj hk hr (Or.inr (hd.trans hg))) hne
  · rw [if_neg hg, hm.lease_eq_some hs.agree]
    refine exists₂_congr fun k d => ?_
    constructor
    · intro hl
      obtain ⟨hk, hd, rfl⟩ := hl
      have hne : k ≠ h := by
        intro heq
        subst heq
        exact hg (by rw [← hd, Agree.registered_unique hk hr])
      exact ⟨⟨hk, hne⟩, hd, by rw [Function.update_of_ne hne]⟩
    · intro hl
      obtain ⟨⟨hk, hne⟩, hd, rfl⟩ := hl
      exact ⟨hk, hd, by rw [Function.update_of_ne hne]⟩

theorem Models.not_leased (hm : s.Models L) (hs : s.Sound n) {ip : UInt32}
    (hfind : s.clients.findClient ip = none) : ∀ g l, L.lease g = some l → l.ip ≠ ip := by
  intro g l hl hip
  obtain ⟨k, d, hk, -, rfl⟩ := (hm.lease_eq_some hs.agree).1 hl
  have hholder := hk.2
  rw [show d.ip = ip from hip, hfind] at hholder
  cases hholder

theorem Touch.lease_transOut {timer : Option Timer} {xs : List Effect} {ctx : ServerCtx}
    (htouch : s.Touch h c e c' timer xs) (hcmd : e.command TUNNEL_CMD_TRANS_OUT = some (ctx, env)) :
    c'.lease timer = (c.lease (s.timers h)).heard ctx.srcAddr env.now := by
  cases htouch with
  | traffic hcmd' hfind hsid hts =>
      obtain ⟨-, rfl, rfl⟩ := command_inj hcmd hcmd'
      exact (if_neg hts).symm
  | refresh hcmd' hfind hsid hts =>
      obtain ⟨-, rfl, rfl⟩ := command_inj hcmd hcmd'
      exact (if_pos hts).symm
  | reconnect hcmd' | connectDone hcmd' => exact absurd (command_inj hcmd hcmd').1 (by decide)
  | resend hevent | settle hevent =>
      subst hevent
      cases hcmd

/-- What the firing of a timer does: nothing more than take it off, rewrite the record, or delete it. -/
theorem Sound.firing_cases (hs : s.Sound n) {w : Handle} {error : Bool}
    (hstep : step s (.timer w error env) = some t) :
    ∃ timer c, s.timers w = some timer ∧ s.clients.Registered w c ∧
      (((error = true ∨ (timer.cb = .timeoutCbDeleteClient ∧ c.state = .connect)) ∧
          t = { s with timers := Function.update s.timers w none }) ∨
        (error = false ∧ timer.cb = .timeoutCb ∧ c.state = .connect ∧
          c.resendCounter < SERVER_MAX_RESEND_COUNT ∧
          t =
            { s with
              clients := s.clients.set w
                { c with
                  resendCounter := c.resendCounter + 1
                  timeoutWatcher := { data := some w, init := some (.timeoutCb, 1 / 2) } }
              timers := Function.update s.timers w
                (some { cb := .timeoutCb, due := env.now + 1 / 2 })
              trace := s.trace ++ [Effect.sendto (some w) c.srcAddr c.connectOk,
                .evTimerInit w .timeoutCb, .evTimerStart w] }) ∨
        (error = false ∧ timer.cb = .timeoutCb ∧ c.state = .connectDone ∧
          t =
            { s with
              clients := s.clients.set w (c.watched .timeoutCbDeleteClient CLIENT_TIMEOUT_TO_DELETE)
              timers := Function.update s.timers w
                (some { cb := .timeoutCbDeleteClient, due := env.now + CLIENT_TIMEOUT_TO_DELETE })
              trace := s.trace ++
                [Effect.evTimerStop w, .evTimerInit w .timeoutCbDeleteClient, .evTimerStart w] }) ∨
        (error = false ∧
          ((timer.cb = .timeoutCb ∧ c.state = .connect ∧
              ¬ c.resendCounter < SERVER_MAX_RESEND_COUNT) ∨
            (timer.cb = .timeoutCbDeleteClient ∧ c.state = .connectDone)) ∧
          ∃ pool,
            t =
              { s with
                pool
                clients := s.clients.drop w
                timers := Function.update s.timers w none })) := by
  have hfire : s.fire w error env = some t := hstep
  cases htimer : s.timers w with
  | none => simp [fire, htimer] at hfire
  | some timer =>
  cases hc : s.clients.heap w with
  | none => simp [fire, htimer, hc] at hfire
  | some c =>
  refine ⟨timer, c, rfl, hs.registered w c hc, ?_⟩
  cases error with
  | true =>
      refine Or.inl ⟨Or.inl rfl, ?_⟩
      cases hcb : timer.cb <;>
        simp [fire, htimer, hc, hcb, timeoutCb, timeoutCbDeleteClient] at hfire <;> exact hfire.symm
  | false =>
  have hexpires : ((timer.cb = .timeoutCb ∧ c.state = .connect ∧
        ¬ c.resendCounter < SERVER_MAX_RESEND_COUNT) ∨
      (timer.cb = .timeoutCbDeleteClient ∧ c.state = .connectDone)) →
      ∃ pool, t =
        { s with pool, clients := s.clients.drop w, timers := Function.update s.timers w none } := by
    intro hcause
    have hmap := (hs.step_of_expiring
      (expiring_eq_some.2 ⟨env, timer, rfl, htimer, hc, hcause⟩)).symm.trans hstep
    obtain ⟨pool, -, rfl⟩ := Option.map_eq_some_iff.1 hmap
    exact ⟨pool, rfl⟩
  have hstates : c.state = .connect ∨ c.state = .connectDone := by cases c.state <;> simp
  have hcbs : timer.cb = .timeoutCb ∨ timer.cb = .timeoutCbDeleteClient := by cases timer.cb <;> simp
  rcases hcbs with hcb | hcb <;> rcases hstates with hstate | hstate
  · by_cases hcount : c.resendCounter < SERVER_MAX_RESEND_COUNT
    · exact Or.inr (Or.inl ⟨rfl, hcb, hstate, hcount,
        Option.some.inj (hstep.symm.trans (hs.step_resend htimer hcb hc hstate hcount))⟩)
    · exact Or.inr (Or.inr (Or.inr ⟨rfl, Or.inl ⟨hcb, hstate, hcount⟩,
        hexpires (Or.inl ⟨hcb, hstate, hcount⟩)⟩))
  · exact Or.inr (Or.inr (Or.inl ⟨rfl, hcb, hstate,
      Option.some.inj (hstep.symm.trans (hs.step_settle htimer hcb hc hstate))⟩))
  · refine Or.inl ⟨Or.inr ⟨hcb, hstate⟩, ?_⟩
    have hlapse := timeoutCbDeleteClient_eq
      (s := { s with timers := Function.update s.timers w none }) hc (hs.data w c hc)
    simp only [fire, htimer, hc, hcb, Option.bind_eq_bind, Option.bind_some] at hfire
    rw [hlapse, if_neg (by rw [hstate]; decide)] at hfire
    exact (Option.some.inj hfire).symm
  · exact Or.inr (Or.inr (Or.inr ⟨rfl, Or.inr ⟨hcb, hstate⟩, hexpires (Or.inr ⟨hcb, hstate⟩)⟩))

theorem transinPacket_cmd (buf : ServerBuf) : buf.transinPacket[1]? ≠ some TUNNEL_CMD_CONNECT_OK := by
  rw [ServerBuf.transinPacket]
  rcases buf.transinSize.toNat with _ | _ | n <;>
    simp [memcpy, TUNNEL_CMD_TRANS_IN, TUNNEL_CMD_CONNECT_OK]

/-! ### What is asked and what is sent -/

theorem guidOf_eq (hc : s.clients.heap h = some c) : s.guidOf h = some (cString c.guid) := by
  rw [guidOf, hc]
  rfl

theorem request_connect {ctx : ServerCtx} (hcmd : e.command TUNNEL_CMD_CONNECT = some (ctx, env)) :
    s.request e = .connect (cString ctx.connectGuid) ctx.srcAddr env.now := by
  obtain ⟨bytes, src, rfl, rfl, hconnect⟩ := command_eq_some.1 hcmd
  exact if_pos hconnect

theorem request_connectDone {ctx : ServerCtx}
    (hcmd : e.command TUNNEL_CMD_CONNECT_DONE = some (ctx, env)) :
    s.request e = .confirm ctx.doneIp := by
  obtain ⟨bytes, src, rfl, rfl, hdone⟩ := command_eq_some.1 hcmd
  exact (if_neg (by rw [hdone]; decide)).trans (if_pos hdone)

theorem request_transOut {ctx : ServerCtx} (hcmd : e.command TUNNEL_CMD_TRANS_OUT = some (ctx, env)) :
    s.request e = .packetOut (ctx.transoutIp env.cliIp) ctx.transoutSid ctx.ippackSize
      (ctx.ippack.take ctx.ippackSize.toNat) ctx.srcAddr env.now := by
  obtain ⟨bytes, src, rfl, rfl, htrans⟩ := command_eq_some.1 hcmd
  exact ((if_neg (by rw [htrans]; decide)).trans (if_neg (by rw [htrans]; decide))).trans
    (if_pos htrans)

theorem request_timer {w : Handle} {error : Bool} (hc : s.clients.heap w = some c) :
    s.request (.timer w error env) = .alarm (cString c.guid) error env.now := by
  rw [request, guidOf_eq hc]
  rfl

theorem sent_of_trace_eq (htrace : t.trace = s.trace) : sent s t = [] := by
  rw [sent, logged, htrace, List.drop_length]
  rfl

/-- The calls to libev and the allocations of addresses are not seen from outside. -/
theorem sent_append {xs : List Effect} (htrace : t.trace = s.trace ++ xs) :
    sent s t = xs.filterMap t.output := by
  rw [sent, logged_append htrace]

theorem output_tunEffects (ctx : ServerCtx) :
    (tunEffects ctx).filterMap t.output =
      [.packet ctx.ippackSize (ctx.ippack.take ctx.ippackSize.toNat)] := by
  unfold tunEffects
  split <;> rfl

/-! ### A step is an answer -/

section Serves

variable (hm : s.Models L) (hs : s.Sound n)
include hm hs

/-- A CONNECT offers a registered client its address again, or a new one the next address. -/
theorem Models.connect_cases {ctx : ServerCtx} (hcmd : e.command TUNNEL_CMD_CONNECT = some (ctx, env))
    (hstep : step s e = some t) :
    ∃ l : Lease,
      t.Models (L.grant (cString ctx.connectGuid) (l.offered ctx.srcAddr env.now)) ∧
        sent s t = [.datagram (some (cString ctx.connectGuid)) ctx.srcAddr l.connectOk] ∧
        ((L.lease (cString ctx.connectGuid) = some l ∧ issuedIn (logged s t) = []) ∨
          (L.lease (cString ctx.connectGuid) = none ∧ issuedIn (logged s t) = [(l.ip, l.sid)])) := by
  obtain ⟨-, ⟨h, c, ctx', hfind, hr, heq⟩ | ⟨m, ctx', hfind, -, heq⟩⟩ := hs.connect_cases hcmd hstep
  · have hclients : t.clients = s.clients.set h (c.handshake h ctx env.now) := by rw [heq]
    have htimers : t.timers =
        Function.update s.timers h (some { cb := .timeoutCb, due := env.now + 1 / 2 }) := by rw [heq]
    have htrace : t.trace = s.trace ++ [Effect.evTimerStop h, .sendto (some h) ctx.srcAddr c.connectOk,
        .evTimerInit h .timeoutCb, .evTimerStart h] := by rw [heq]
    have hc : t.clients.heap h = some (c.handshake h ctx env.now) := by rw [hclients, set_heap_self]
    obtain ⟨d, hd, hguid⟩ := hs.agree.registered_of_findGuid hfind
    cases Agree.registered_unique hr hd
    rw [← hguid]
    refine ⟨c.lease (s.timers h), hm.touch hs hr hclients htimers rfl rfl, ?_,
      Or.inl ⟨hm.lease_of_registered hs.agree hr, ?_⟩⟩
    · rw [sent_append htrace]
      simp only [List.filterMap_cons, List.filterMap_nil, output, Option.bind_some, guidOf_eq hc]
      rfl
    · rw [logged_append htrace]
      rfl
  · obtain ⟨d, hd⟩ : ∃ d, d = (s.freshClient ctx m).handshake s.clients.brk ctx env.now := ⟨_, rfl⟩
    rw [← hd] at heq
    have hguid : cString d.guid = cString ctx.connectGuid := by
      rw [hd]
      exact cString_freshClient s ctx m
    have hnew : s.clients.gClientsGuid.find (cString d.guid) = none := by
      rw [hguid]
      exact hfind
    have hclients : t.clients = s.clients.enroll d := by rw [heq]
    have htimers : t.timers = Function.update s.timers s.clients.brk
        (some { cb := .timeoutCb, due := env.now + 1 / 2 }) := by rw [heq]
    have htrace : t.trace = s.trace ++
        [Effect.allocate s.pool.nextIp s.pool.nextSid, .evTimerStop s.clients.brk,
          .sendto (some s.clients.brk) ctx.srcAddr (s.freshClient ctx m).connectOk,
          .evTimerInit s.clients.brk .timeoutCb, .evTimerStart s.clients.brk] := by rw [heq]
    have hc : t.clients.heap s.clients.brk = some d := by
      rw [hclients, enroll_heap hs.agree, if_pos rfl]
    have hlease : d.lease (some { cb := .timeoutCb, due := env.now + 1 / 2 }) =
        ((s.freshClient ctx m).lease none).offered ctx.srcAddr env.now := by
      rw [hd]
      rfl
    have hafter := hm.enroll hs hnew hclients htimers
    rw [hguid, hlease] at hafter
    refine ⟨_, hafter, ?_, Or.inr ⟨?_, ?_⟩⟩
    · rw [sent_append htrace]
      simp only [List.filterMap_cons, List.filterMap_nil, output, Option.bind_some, guidOf_eq hc, hguid]
      rfl
    · rw [hm, leaseOf, show s.clients.gClientsGuid.find (cString ctx.connectGuid) = none from hfind]
      rfl
    · rw [logged_append htrace]
      rfl

theorem serves_connect {ctx : ServerCtx} (hcmd : e.command TUNNEL_CMD_CONNECT = some (ctx, env))
    (hstep : step s e = some t) : ∃ M, t.Models M ∧ Serves L (s.request e) M (sent s t) := by
  rw [request_connect hcmd]
  obtain ⟨l, hafter, hsent, ⟨hl, -⟩ | ⟨hnew, -⟩⟩ := hm.connect_cases hs hcmd hstep
  · exact ⟨_, hafter, hsent ▸ Serves.renew hl⟩
  · exact ⟨_, hafter, hsent ▸ Serves.accept hnew⟩

theorem serves_connectDone {ctx : ServerCtx}
    (hcmd : e.command TUNNEL_CMD_CONNECT_DONE = some (ctx, env)) (hstep : step s e = some t) :
    ∃ M, t.Models M ∧ Serves L (s.request e) M (sent s t) := by
  rw [request_connectDone hcmd]
  cases hfind : s.clients.findClient ctx.doneIp with
  | some h =>
      obtain ⟨c, hr, hip⟩ := hs.agree.registered_of_findClient hfind
      obtain ⟨ctx', hdone⟩ := step_connectDone hcmd hfind hr
      have heq := Option.some.inj (hstep.symm.trans hdone)
      have hclients : t.clients = s.clients.set h { c with state := .connectDone } := by rw [heq]
      have htimers : t.timers = Function.update s.timers h (s.timers h) := by
        rw [heq, Function.update_eq_self]
      refine ⟨_, hm.touch hs hr hclients htimers rfl rfl, ?_⟩
      rw [sent_of_trace_eq (by rw [heq]), ← hip]
      exact Serves.confirm (hm.lease_of_registered hs.agree hr)
  | none =>
      obtain ⟨bytes, src, rfl, rfl, hdone⟩ := command_eq_some.1 hcmd
      rw [step_of_connectDone hdone, serverOnConnectDone,
        show (s.receive bytes src).clients.findClient (s.receive bytes src).ctx.doneIp = none from hfind,
        Option.some.injEq] at hstep
      refine ⟨L, hm.congr (by rw [← hstep]; rfl) (by rw [← hstep]; rfl), ?_⟩
      rw [sent_of_trace_eq (by rw [← hstep]; rfl)]
      exact Serves.unconfirmed (hm.not_leased hs hfind)

theorem serves_transOut {bytes : List UInt8} {src : SockAddr}
    (htrans : (datagramCtx bytes src).cmd = TUNNEL_CMD_TRANS_OUT)
    (hstep : step s (.socketRead false (some (bytes, src)) env) = some t) :
    ∃ M, t.Models M ∧
      Serves L (s.request (.socketRead false (some (bytes, src)) env)) M (sent s t) := by
  have hcmd : (Event.socketRead false (some (bytes, src)) env).command TUNNEL_CMD_TRANS_OUT =
      some (datagramCtx bytes src, env) := if_pos htrans
  rw [request_transOut hcmd]
  cases hacc : s.accepts (.socketRead false (some (bytes, src)) env) with
  | some accepted =>
      obtain ⟨h, ctx, env'⟩ := accepted
      obtain ⟨c, hcmd', hfind, hc, hsid⟩ := accepts_eq_some.1 hacc
      obtain ⟨-, rfl, rfl⟩ := command_inj hcmd hcmd'
      obtain ⟨d, c', timer, ys, hr, htouch, hys, haccepted⟩ := hs.step_accepted hacc
      cases Option.some.inj (hc.symm.trans hr.1)
      have heq := Option.some.inj (hstep.symm.trans haccepted)
      have hclients : t.clients = s.clients.set h c' := by rw [heq]
      have htimers : t.timers = Function.update s.timers h timer := by rw [heq]
      have hnone : ys.filterMap t.output = [] := by rcases hys with rfl | rfl <;> rfl
      obtain ⟨hguid, hip, -⟩ := htouch.keys
      refine ⟨_, hm.touch hs hr hclients htimers hguid hip, ?_⟩
      rw [sent_append (by rw [heq]), List.filterMap_append, output_tunEffects, hnone]
      have hholder : c.ip = (datagramCtx bytes src).transoutIp env.cliIp := by
        obtain ⟨k, hk, hkip⟩ := hs.agree.registered_of_findClient hfind
        rw [← hkip, Agree.registered_unique hr hk]
      have hlease : c'.lease timer =
          (c.lease (s.timers h)).heard (datagramCtx bytes src).srcAddr env.now :=
        htouch.lease_transOut hcmd
      rw [hlease, ← hholder, ← hsid]
      exact Serves.relay (hm.lease_of_registered hs.agree hr)
  | none =>
      have heq := Option.some.inj (hstep.symm.trans (hs.step_refused htrans hacc))
      refine ⟨L, hm.congr (by rw [heq]; rfl) (by rw [heq]; rfl), ?_⟩
      have htrace : t.trace = s.trace ++ [Effect.sendto none src tunnelDisconnect] := by
        rw [heq]
        rfl
      rw [sent_append htrace]
      refine Serves.refuse fun g l hl hip hsid => ?_
      obtain ⟨k, d, hk, -, rfl⟩ := (hm.lease_eq_some hs.agree).1 hl
      have hfind : s.clients.findClient ((datagramCtx bytes src).transoutIp env.cliIp) = some k := by
        rw [← hip]
        exact hk.2
      rw [accepts_eq_some.2 ⟨d, hcmd, hfind, hk.1, hsid⟩] at hacc
      cases hacc

theorem serves_tunRead {received : Option (List UInt8)} {junk : UInt32}
    (hstep : step s (.tunRead false received junk) = some t) :
    ∃ M, t.Models M ∧ Serves L (s.request (.tunRead false received junk)) M (sent s t) := by
  show ∃ M, t.Models M ∧ Serves L (.packetIn ((s.ctx.tunBuffer.readTun received).transinIp junk)
    (s.ctx.tunBuffer.readTun received).transinPacket) M (sent s t)
  cases hfind : s.clients.findClient ((s.ctx.tunBuffer.readTun received).transinIp junk) with
  | none =>
      have heq := Option.some.inj (hstep.symm.trans (step_tunRead_unknown hfind))
      refine ⟨L, hm.congr (by rw [heq]) (by rw [heq]), ?_⟩
      rw [sent_of_trace_eq (by rw [heq])]
      exact Serves.drop (hm.not_leased hs hfind)
  | some h =>
      obtain ⟨c, hr, hip⟩ := hs.agree.registered_of_findClient hfind
      have heq := Option.some.inj (hstep.symm.trans (step_tunRead_known hfind hr.1))
      have hc : t.clients.heap h = some c := by rw [heq, hr.1]
      have htrace : t.trace = s.trace ++
          [Effect.sendto (some h) c.srcAddr (s.ctx.tunBuffer.readTun received).transinPacket] := by rw [heq]
      refine ⟨L, hm.congr (by rw [heq]) (by rw [heq]), ?_⟩
      rw [sent_append htrace, ← hip]
      simp only [List.filterMap_cons, List.filterMap_nil, output, Option.bind_some, guidOf_eq hc]
      exact Serves.deliver (hm.lease_of_registered hs.agree hr) (transinPacket_cmd _)

theorem serves_timer {w : Handle} {error : Bool} (hstep : step s (.timer w error env) = some t) :
    ∃ M, t.Models M ∧ Serves L (s.request (.timer w error env)) M (sent s t) := by
  obtain ⟨timer, c, htimer, hr, hcases⟩ := hs.firing_cases hstep
  have hlease := hm.lease_of_registered hs.agree hr
  have halarm : (c.lease (s.timers w)).alarm = some timer := htimer
  rw [request_timer hr.1]
  rcases hcases with ⟨hcause, heq⟩ | ⟨rfl, hcb, hstate, hcount, heq⟩ | ⟨rfl, hcb, hstate, heq⟩ |
    ⟨rfl, hcause, pool, heq⟩
  · have hclients : t.clients = s.clients.set w c := by
      rw [heq, set_self hr.1]
    have htimers : t.timers = Function.update s.timers w none := by rw [heq]
    refine ⟨_, hm.touch hs hr hclients htimers rfl rfl, ?_⟩
    rw [sent_of_trace_eq (by rw [heq])]
    exact Serves.lapse hlease halarm hcause
  · obtain ⟨d, hd⟩ : ∃ d, d = { c with
        resendCounter := c.resendCounter + 1
        timeoutWatcher := { data := some w, init := some (.timeoutCb, 1 / 2) } } := ⟨_, rfl⟩
    rw [← hd] at heq
    have hclients : t.clients = s.clients.set w d := by rw [heq]
    have htimers : t.timers = Function.update s.timers w
        (some { cb := .timeoutCb, due := env.now + 1 / 2 }) := by rw [heq]
    have htrace : t.trace = s.trace ++ [Effect.sendto (some w) c.srcAddr c.connectOk,
        .evTimerInit w .timeoutCb, .evTimerStart w] := by rw [heq]
    have hc : t.clients.heap w = some d := by rw [hclients, set_heap_self]
    have hguid : d.guid = c.guid := by rw [hd]
    refine ⟨_, hm.touch hs hr hclients htimers hguid (by rw [hd]), ?_⟩
    rw [sent_append htrace]
    simp only [List.filterMap_cons, List.filterMap_nil, output, Option.bind_some, guidOf_eq hc, hguid]
    have hresent : d.lease (some { cb := .timeoutCb, due := env.now + 1 / 2 }) =
        (c.lease (s.timers w)).resent env.now := by
      rw [hd]
      simp [Client.lease, Lease.resent, toNat_resendCounter_succ (UInt8.lt_iff_toNat_lt.1 hcount).le]
    rw [hresent]
    exact Serves.resend hlease halarm hcb hstate (UInt8.lt_iff_toNat_lt.1 hcount)
  · have hclients : t.clients =
        s.clients.set w (c.watched .timeoutCbDeleteClient CLIENT_TIMEOUT_TO_DELETE) := by rw [heq]
    have htimers : t.timers = Function.update s.timers w
        (some { cb := .timeoutCbDeleteClient, due := env.now + CLIENT_TIMEOUT_TO_DELETE }) := by
      rw [heq]
    refine ⟨_, hm.touch hs hr hclients htimers rfl rfl, ?_⟩
    rw [sent_append (by rw [heq])]
    exact Serves.settle hlease halarm hcb hstate
  · have hclients : t.clients = s.clients.drop w := by rw [heq]
    have htimers : t.timers = Function.update s.timers w none := by rw [heq]
    refine ⟨_, hm.drop hs hr hclients htimers, ?_⟩
    rw [sent_of_trace_eq (by rw [heq])]
    rcases hcause with ⟨hcb, hstate, hcount⟩ | ⟨hcb, hstate⟩
    · exact Serves.giveUp hlease halarm hcb hstate
        (Nat.not_lt.1 fun hlt => hcount (UInt8.lt_iff_toNat_lt.2 hlt))
    · exact Serves.expire hlease halarm hcb hstate

/-- Every completed step is an answer of a gateway with the leases of the server. -/
theorem serves (hstep : step s e = some t) :
    ∃ M, t.Models M ∧ Serves L (s.request e) M (sent s t) := by
  have hquiet : ∀ {ctx : ServerCtx}, t = { s with ctx } → s.request e = .other →
      ∃ M, t.Models M ∧ Serves L (s.request e) M (sent s t) := by
    intro ctx heq hother
    refine ⟨L, hm.congr (by rw [heq]) (by rw [heq]), ?_⟩
    rw [hother, sent_of_trace_eq (by rw [heq])]
    exact Serves.ignore
  cases e with
  | socketRead error received env =>
      cases error with
      | true => exact hquiet (Option.some.inj hstep).symm rfl
      | false =>
          cases received with
          | none => exact hquiet (Option.some.inj hstep).symm rfl
          | some datagram =>
              obtain ⟨bytes, src⟩ := datagram
              by_cases hconnect : (datagramCtx bytes src).cmd = TUNNEL_CMD_CONNECT
              · exact serves_connect hm hs (if_pos hconnect) hstep
              by_cases hdone : (datagramCtx bytes src).cmd = TUNNEL_CMD_CONNECT_DONE
              · exact serves_connectDone hm hs (if_pos hdone) hstep
              by_cases htrans : (datagramCtx bytes src).cmd = TUNNEL_CMD_TRANS_OUT
              · exact serves_transOut hm hs htrans hstep
              rw [step_of_other hconnect hdone htrans] at hstep
              exact hquiet (Option.some.inj hstep).symm
                (((if_neg hconnect).trans (if_neg hdone)).trans (if_neg htrans))
  | tunRead error received junk =>
      cases error with
      | true => exact hquiet (Option.some.inj hstep).symm rfl
      | false => exact serves_tunRead hm hs hstep
  | timer w error env => exact serves_timer hm hs hstep

end Serves

/-! ### Every run is a dialogue -/

theorem models_serverInit (n : Nat) : (serverInit (ipPoolOf n)).Models .empty := fun _ => rfl

/-- What the completed steps of a run are, seen from outside. -/
def dialogue (n : Nat) (es : List Event) : List (Request × List Output) :=
  (Run.taken step (serverInit (ipPoolOf n)) es).map exchange

theorem served_of_exec (hmin : 2 ≤ n) (hmax : n ≤ 65533) {es : List Event}
    (hrun : Run.exec step (serverInit (ipPoolOf n)) es = some t) :
    t.Sound n ∧ ∃ L, Served .empty (dialogue n es) L ∧ t.Models L := by
  let Inv := fun (past : List (Server × Event × Server)) (s : Server) =>
    s.Sound n ∧ ∃ L, Served .empty (past.map exchange) L ∧ s.Models L
  have hinit : Inv [] (serverInit (ipPoolOf n)) :=
    ⟨serverInit_sound hmin hmax, .empty, .nil, models_serverInit n⟩
  have hkept : ∀ past s e t, Inv past s → True → step s e = some t → Inv (past ++ [(s, e, t)]) t := by
    intro past s e t hs _ hstep
    obtain ⟨hsound, L, hserved, hm⟩ := hs
    obtain ⟨M, htm, hserves⟩ := serves hm hsound hstep
    refine ⟨hsound.of_step hstep, M, ?_, htm⟩
    rw [List.map_append]
    exact hserved.snoc hserves
  exact Run.inv_history (C := fun _ _ _ => True) hkept hinit hrun fun _ _ _ _ => trivial

end Server

/-- Every run of the server is a dialogue of a gateway that starts without leases. It sends what the
gateway sends, and its records and timers make up the gateway's leases. -/
theorem server_refines_gateway {n : Nat} (hmin : 2 ≤ n) (hmax : n ≤ 65533) (es : List Event)
    (t : Server) (hrun : Run.exec step (serverInit (ipPoolOf n)) es = some t) :
    ∃ L, Served .empty (Server.dialogue n es) L ∧ t.Models L :=
  (Server.served_of_exec hmin hmax hrun).2

theorem server_refines_gateway_comingAndGoing :
    ∃ t L, Run.exec step (serverInit (ipPoolOf 65533)) comingAndGoing = some t ∧
      Served .empty (Server.dialogue 65533 comingAndGoing) L ∧ t.Models L := by
  obtain ⟨t, hrun⟩ := Option.isSome_iff_exists.1 comingAndGoing_runs
  obtain ⟨L, hserved, hm⟩ := server_refines_gateway (by decide) le_rfl comingAndGoing t hrun
  exact ⟨t, L, hrun, hserved, hm⟩

end TunnelServer
