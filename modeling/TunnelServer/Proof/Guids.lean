import TunnelServer.Proof.Reconnect

/-!
# Which client a GUID leads to

On the wire a GUID is a length and that many bytes, and all of them are copied. The tables compare what
`strlen` sees of the copy. So two GUIDs that agree up to a NUL byte are one client.
-/

namespace TunnelServer

/-- The GUID field of a CONNECT datagram that contains all of it, when it fits `char guid[60]`. -/
def Event.guidField : Event → Option (List UInt8)
  | .socketRead false (some (bytes, _)) _ =>
    let guidLen := (bytes.getD TUNNEL_PAK_GUID_LEN_IDX 0).toNat
    if bytes.getD TUNNEL_PAK_CMD_IDX 0 = TUNNEL_CMD_CONNECT ∧ guidLen < 60 ∧
        sizeofTunnelConnectHeader + guidLen ≤ bytes.length then
      some ((bytes.drop sizeofTunnelConnectHeader).take guidLen)
    else none
  | _ => none

/-- Such a datagram is a CONNECT, and `server_on_connect` looks up exactly its GUID field. -/
theorem command_of_guidField {e : Event} {guid : List UInt8} (hguid : e.guidField = some guid) :
    ∃ ctx env, e.command TUNNEL_CMD_CONNECT = some (ctx, env) ∧
      (0 ≤ ctx.guidLen ∧ ctx.guidLen < 60) ∧ ctx.connectGuid = guid ++ [0] := by
  cases e with
  | tunRead | timer => cases hguid
  | socketRead error received env =>
      rcases error with _ | _ <;> rcases received with _ | ⟨bytes, src⟩
      · cases hguid
      · simp only [Event.guidField] at hguid
        split_ifs at hguid with hfits
        obtain ⟨hcmd, hlen, hin⟩ := hfits
        have hconnect : (datagramCtx bytes src).cmd = TUNNEL_CMD_CONNECT :=
          (sockByte_datagramCtx bytes src (by decide)).trans hcmd
        refine ⟨_, env, if_pos hconnect, (guidLen_fits_iff bytes src).2 hlen, ?_⟩
        rw [ServerCtx.connectGuid, ServerCtx.guidBytes, guidLen_of_lt src hlen, Int.toNat_natCast,
          take_drop_sockBuffer bytes src hin
            (by simp only [sizeofTunnelConnectHeader, TUNNEL_BUF_SIZE]; omega),
          Option.some.inj hguid]
      · cases hguid
      · cases hguid

namespace Server

open ClientTable

variable {n : Nat} {s t u : Server} {e : Event}

theorem cString_terminated (guid : List UInt8) : cString (guid ++ [0]) = cString guid :=
  cString_append_nul guid []

theorem Sound.registered_of_create (hs : s.Sound n) {guid : List UInt8}
    (hguid : e.guidField = some guid) (hnew : s.clients.findClientByGuid (guid ++ [0]) = none)
    (hstep : step s e = some t) :
    ∃ c, t.clients.Registered s.clients.brk c ∧ cString c.guid = cString guid := by
  obtain ⟨ctx, env, hcmd, -, hconnect⟩ := command_of_guidField hguid
  rw [← hconnect] at hnew
  obtain ⟨-, ⟨h, c, ctx', hfind, -⟩ | ⟨m, ctx', -, -, rfl⟩⟩ := hs.connect_cases hcmd hstep
  · rw [hnew] at hfind
    cases hfind
  · refine ⟨_, (registered_enroll hs.agree).2 (Or.inl ⟨rfl, rfl⟩), ?_⟩
    calc cString (s.freshClient ctx m).guid
      _ = cString ctx.connectGuid := cString_freshClient s ctx m
      _ = cString guid := by rw [hconnect, cString_terminated]

/-- As long as a client is registered, a GUID leads to it when it agrees with the GUID the client was
created with up to the first NUL. -/
theorem Sound.findGuid_iff_of_exec (ht : t.Sound n) {fs : List Event} {h : Handle} {c : Client}
    (hr : t.clients.Registered h c) (hrun : Run.exec step t fs = some u) (guid : List UInt8) :
    u.clients.findClientByGuid (guid ++ [0]) = some h ↔
      (∃ c', u.clients.Registered h c') ∧ cString guid = cString c.guid := by
  have hu : u.Sound n := Run.inv_of_exec (fun _ _ _ hs hstep => hs.of_step hstep) ht hrun
  rw [findClientByGuid, cString_terminated, hu.agree.findGuid_iff]
  constructor
  · intro hfound
    obtain ⟨c', hr', hkey⟩ := hfound
    obtain ⟨hsame, -⟩ := ht.keys_of_exec hrun hr hr'
    exact ⟨⟨c', hr'⟩, by rw [← hkey, hsame]⟩
  · intro hfound
    obtain ⟨⟨c', hr'⟩, hkey⟩ := hfound
    obtain ⟨hsame, -⟩ := ht.keys_of_exec hrun hr hr'
    exact ⟨c', hr', by rw [hkey, hsame]⟩

end Server

open Server

/-- Let a CONNECT create a client, and let another one come at any later time, with any GUID. It is not
resolved to that client exactly when the client is no longer registered or the two GUIDs differ before
the first NUL byte. -/
theorem distinct_guids_iff {n : Nat} (hmin : 2 ≤ n) (hmax : n ≤ 65533) {es fs : List Event}
    {s t u : Server} {e₁ e₂ : Event} {guid₁ guid₂ : List UInt8}
    (hrun : Run.exec step (serverInit (ipPoolOf n)) es = some s)
    (hfirst : e₁.guidField = some guid₁)
    (hcreated : s.clients.findClientByGuid (guid₁ ++ [0]) = none) (hstep : step s e₁ = some t)
    (hbetween : Run.exec step t fs = some u) (hsecond : e₂.guidField = some guid₂) :
    (∀ ctx env, e₂.command TUNNEL_CMD_CONNECT = some (ctx, env) →
        u.clients.findClientByGuid ctx.connectGuid ≠ some s.clients.brk) ↔
      ((∃ c, u.clients.Registered s.clients.brk c) → cString guid₁ ≠ cString guid₂) := by
  have hs : s.Sound n := sound_of_exec hmin hmax hrun
  obtain ⟨c, hr, hkey⟩ := hs.registered_of_create hfirst hcreated hstep
  obtain ⟨ctx, env, hcmd, -, hconnect⟩ := command_of_guidField hsecond
  have hresolved : (∀ ctx env, e₂.command TUNNEL_CMD_CONNECT = some (ctx, env) →
      u.clients.findClientByGuid ctx.connectGuid ≠ some s.clients.brk) ↔
        u.clients.findClientByGuid (guid₂ ++ [0]) ≠ some s.clients.brk := by
    constructor
    · intro hall
      exact hconnect ▸ hall ctx env hcmd
    · intro hnot ctx' env' hcmd'
      cases hcmd.symm.trans hcmd'
      exact hconnect ▸ hnot
  rw [hresolved, Ne, (hs.of_step hstep).findGuid_iff_of_exec hr hbetween, hkey, not_and, Ne,
    eq_comm (a := cString guid₁)]

theorem distinct_guids_iff_letters :
    ∃ t, step (serverInit (ipPoolOf 65533))
        (.arrives (connectDatagram [0x61]) (.inet 192 0 2 1) 0) = some t ∧
      ((∀ ctx env, (Event.arrives (connectDatagram [0x62]) (.inet 192 0 2 2) 1).command
            TUNNEL_CMD_CONNECT = some (ctx, env) →
          t.clients.findClientByGuid ctx.connectGuid ≠ some 0) ↔
        ((∃ c, t.clients.Registered 0 c) → cString [0x61] ≠ cString [0x62])) := by
  have hconnect : (step (serverInit (ipPoolOf 65533))
      (.arrives (connectDatagram [0x61]) (.inet 192 0 2 1) 0)).isSome = true := by decide +kernel
  obtain ⟨t, hstep⟩ := Option.isSome_iff_exists.1 hconnect
  exact ⟨t, hstep, distinct_guids_iff (by decide) le_rfl (Run.exec_nil _) rfl rfl hstep
    (Run.exec_nil t) rfl⟩

/-- A CONNECT whose GUID has three bytes, the second of them NUL. -/
def nulConnect (last : UInt8) : Event := .arrives (connectDatagram [0x61, 0, last]) (.inet 192 0 2 last) 0

/-- A second client, whose GUID differs behind the NUL, is taken for the first one. -/
theorem nul_guids_share_client :
    (nulConnect 1).guidField = some [0x61, 0, 1] ∧ (nulConnect 2).guidField = some [0x61, 0, 2] ∧
      ∃ t ctx env, step (serverInit serverIpInit) (nulConnect 1) = some t ∧
        (nulConnect 2).command TUNNEL_CMD_CONNECT = some (ctx, env) ∧
        t.clients.findClientByGuid ctx.connectGuid = some (serverInit serverIpInit).clients.brk := by
  have hshared : (step (serverInit serverIpInit) (nulConnect 1)).any (fun t =>
      ((nulConnect 2).command TUNNEL_CMD_CONNECT).any fun d =>
        decide (t.clients.findClientByGuid d.1.connectGuid = some 0)) = true := by
    decide +kernel
  simp only [Option.any_eq_true, decide_eq_true_eq, Prod.exists] at hshared
  obtain ⟨t, hstep, ctx, env, hcmd, hfind⟩ := hshared
  exact ⟨rfl, rfl, t, ctx, env, hstep, hcmd, hfind⟩

end TunnelServer
