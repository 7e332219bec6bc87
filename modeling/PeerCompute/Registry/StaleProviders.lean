import PeerCompute.Registry.CreateSession
import PeerCompute.Registry.Listing

/-! Whether a session can be created, before and after a listing. -/

namespace PeerCompute.Registry

open PeerCompute.Data PeerCompute.Interleaving PeerCompute.Plugin PeerCompute.Computev1 Prog

variable {σ : Type} {E E' : Env} {S : Store σ} {s s' : Server σ} {ctx : Metadata}
  {req : CreateSessionRequest} {p : String} {r r' : ProviderRecord}

/-- The ID `p`, or a prefix of it, names the stored provider `r`. -/
def NamesProvider (S : Store σ) (s : Server σ) (p : String) (r : ProviderRecord) : Prop :=
  S.getProviderByPrefix s.clock s.store p = .ok (S.providerHandle r) ∧
    S.provider s.store r.id = some r

theorem NamesProvider.unique (h : NamesProvider S s p r) (h' : NamesProvider S s p r') : r' = r := by
  have hhandle : S.providerHandle r' = S.providerHandle r := Except.ok.inj (h'.1.symm.trans h.1)
  rw [← loadProvider_handle h'.2, hhandle, loadProvider_handle h.2]

/-- The environment answers a call that begins at `t` as `E'` answers one that begins at `t'`. -/
structure SameAnswers (E : Env) (t : Nat) (E' : Env) (t' : Nat) : Prop where
  now : ∀ i, E.now (t + i) = E'.now (t' + i)
  uuid : ∀ i, E.uuid (t + i) = E'.uuid (t' + i)
  meetsMinimum : ∀ i, E.meetsMinimum (t + i) = E'.meetsMinimum (t' + i)

theorem SameAnswers.symm {t t' : Nat} (h : SameAnswers E t E' t') : SameAnswers E' t' E t :=
  ⟨fun i => (h.now i).symm, fun i => (h.uuid i).symm, fun i => (h.meetsMinimum i).symm⟩

theorem SameAnswers.newSession {t t' : Nat} (h : SameAnswers E t E' t') (providerID : String)
    (ips : String × String) :
    newSession E t req providerID ips = newSession E' t' req providerID ips := by
  simp only [Registry.newSession, h.now, h.uuid]

theorem admitted_iff (hP : S.ProviderLaws) {providerID : String} :
    Admitted E S s ctx req providerID ↔
      ¬((sessionPolicyFromMetadata ctx).2 = "wireguard_required" ∧ req.wgPublicKey = "") ∧
      ∃ r, NamesProvider S s req.providerID r ∧ r.id = providerID ∧ r.status = "online" ∧
        E.meetsMinimum (s.clock + 2) providerID 50 = .ok true := by
  refine and_congr_right (fun _ => ⟨?_, ?_⟩)
  · rintro ⟨ref, hget, hid, honline, hmeets⟩
    obtain ⟨r, hr, rfl⟩ := hP.get_provider_by hget
    rw [loadProvider_handle hr] at hid honline
    exact ⟨r, ⟨hget, hr⟩, hid, honline, hmeets⟩
  · rintro ⟨r, ⟨hget, hr⟩, hid, honline, hmeets⟩
    refine ⟨S.providerHandle r, hget, ?_, ?_, hmeets⟩
    · rw [loadProvider_handle hr, hid]
    · rw [loadProvider_handle hr, honline]

/-- The slots are not used up, and `idx` is the first free one from the hint on. -/
def NextSlot (T : Tunnels) (idx : TunnelIndex) : Prop :=
  T.usedTunnelSet.keys.length < maxTunnelSlots ∧ ∃ n < 2 ^ 16, T.FirstFree n idx

theorem allocateTunnelIPs_ok_iff {T : Tunnels} {id : String} {ips : String × String} :
    (∃ T', T.allocateTunnelIPs id = some (.ok ips, T')) ↔
      ∃ idx, NextSlot T idx ∧ ips = (providerIP idx, renterIP idx) := by
  unfold Tunnels.allocateTunnelIPs
  split
  next hfull =>
    constructor
    · rintro ⟨T', h⟩
      cases h
    · rintro ⟨idx, ⟨hlen, -⟩, -⟩
      omega
  next hfree =>
    constructor
    · rintro ⟨T', h⟩
      split at h
      next => cases h
      next idx hscan =>
        obtain ⟨n, hn, hplace, hfirst, hskipped⟩ := firstFree_eq_some_iff.mp hscan
        cases h
        exact ⟨idx, ⟨by omega, n, hn, hplace.symm, by simpa using hfirst,
          fun m hm => Option.isSome_iff_exists.mp (hskipped m hm)⟩, rfl⟩
    · rintro ⟨idx, ⟨-, n, hn, hfirst⟩, rfl⟩
      have hscan : scanTunnel T.usedTunnelSet T.nextTunnelHint = some idx :=
        firstFree_eq_some_iff.mpr ⟨n, hn, hfirst.place.symm, by simp [hfirst.free],
          fun m hm => Option.isSome_iff_exists.mpr (hfirst.skipped m hm)⟩
      rw [hscan]
      exact ⟨_, rfl⟩

/-- What `CreateSession` asks of a request and of the provider `r`: nothing of it is about the
provider's heartbeat. -/
structure Acceptable (E : Env) (S : Store σ) (s : Server σ) (ctx : Metadata)
    (req : CreateSessionRequest) (r : ProviderRecord) : Prop where
  policy : ¬((sessionPolicyFromMetadata ctx).2 = "wireguard_required" ∧ req.wgPublicKey = "")
  names : NamesProvider S s req.providerID r
  online : r.status = "online"
  reputation : E.meetsMinimum (s.clock + 2) r.id 50 = .ok true
  stored : ∃ idx, NextSlot s.tunnels idx ∧ ∃ x, S.putSession (s.clock + 7) s.store
    (.own (newSession E s.clock req r.id (providerIP idx, renterIP idx))) = .ok x

theorem succeeds_iff_acceptable (hP : S.ProviderLaws) :
    Succeeds E S ctx req s ↔ ∃ r, Acceptable E S s ctx req r := by
  rw [succeeds_iff]
  constructor
  · rintro ⟨providerID, ips, T, hadm, halloc, hput⟩
    obtain ⟨hpolicy, r, hn, rfl, honline, hmeets⟩ := (admitted_iff hP).mp hadm
    obtain ⟨idx, hnext, rfl⟩ := allocateTunnelIPs_ok_iff.mp ⟨T, halloc⟩
    exact ⟨r, hpolicy, hn, honline, hmeets, idx, hnext, hput⟩
  · rintro ⟨r, h⟩
    obtain ⟨idx, hnext, hput⟩ := h.stored
    obtain ⟨T, halloc⟩ := allocateTunnelIPs_ok_iff.mpr ⟨idx, hnext, rfl⟩
    exact ⟨r.id, _, T, (admitted_iff hP).mpr ⟨h.policy, r, h.names, rfl, h.online, h.reputation⟩,
      halloc, hput⟩

/-- Between two servers that differ in what is stored about providers, success depends on the
status of the provider that the request names. -/
theorem Succeeds.transfer (hP : S.ProviderLaws) (hsteady : S.Steady)
    (hproviders : S.SameProviders s.store s'.store) (hsession : S.session s.store = S.session s'.store)
    (htunnels : s.tunnels = s'.tunnels) (hans : SameAnswers E s.clock E' s'.clock)
    (h : Succeeds E S ctx req s) :
    ∃ r r', NamesProvider S s req.providerID r ∧ r.status = "online" ∧
      NamesProvider S s' req.providerID r' ∧ r'.id = r.id ∧
      (r'.status = "online" → Succeeds E' S ctx req s') := by
  obtain ⟨providerID, ips, T, hadm, halloc, hput⟩ := succeeds_iff.mp h
  obtain ⟨hpolicy, r, hn, rfl, honline, hmeets⟩ := (admitted_iff hP).mp hadm
  obtain ⟨r', hid, hr', hget'⟩ : ∃ r' : ProviderRecord, r'.id = r.id ∧
      S.provider s'.store r.id = some r' ∧ S.getProviderByPrefix s'.clock s'.store req.providerID =
        .ok (S.providerHandle r') := hsteady.get_provider_by hproviders hn.2 hn.1
  have hn' : NamesProvider S s' req.providerID r' := ⟨hget', by rw [hid, hr']⟩
  refine ⟨r, r', hn, honline, hn', hid, fun honline' => ?_⟩
  refine succeeds_iff.mpr ⟨r.id, ips, T, (admitted_iff hP).mpr ⟨hpolicy, r', hn', hid, honline', ?_⟩,
    ?_, ?_⟩
  · rw [← hans.meetsMinimum, hmeets]
  · rw [← hans.uuid, ← htunnels, halloc]
  · rw [← hans.newSession]
    exact hsteady.put_session hproviders hsession hput

/-- The named provider's record after a listing. -/
theorem Lists.names {lreq : ListProvidersRequest} {now : Int} {out : List Provider}
    (h : Lists S lreq now out s s') (hr : S.provider s.store r.id = some r)
    (hr' : S.provider s'.store r'.id = some r') (hid : r'.id = r.id) : r' = expire lreq now r := by
  rw [h.provider, hid, hr, Option.map_some] at hr'
  exact (Option.some.inj hr').symm

theorem not_stale_of_online {lreq : ListProvidersRequest} {now : Int}
    (h : (expire lreq now r).status = "online") : ¬(Meets lreq r ∧ r.lastHeartbeat < now - 30) := by
  intro hstale
  rw [expire, if_pos hstale] at h
  have hne : "offline" ≠ "online" := by decide
  exact hne h

/-- A session can be created after a listing exactly if it can be created without, unless everything
that `CreateSession` looks at is in order but the listing has come to the named provider and put it
offline for its stale heartbeat. -/
theorem succeeds_after_listing_iff (hS : S.Lawful) (hP : S.ProviderLaws) (hsteady : S.Steady)
    (hlist : S.Listable s.store) {lreq : ListProvidersRequest} {resp : Except Status Response}
    (hrun : (listProviders lreq).run (exec E S) s = some (resp, s'))
    (hans : SameAnswers E s'.clock E' s.clock) :
    (Succeeds E S ctx req s' ↔ Succeeds E' S ctx req s) ↔
      ¬∃ r, Acceptable E' S s ctx req r ∧ Meets lreq r ∧
        r.lastHeartbeat < E.now (s.clock + 1) - 30 := by
  obtain ⟨out, -, h⟩ := leads_iff.mp (listProviders_leads hS hP hlist lreq) _ _ hrun
  have hproviders : S.SameProviders s'.store s.store := by
    intro id
    rw [h.provider, Option.isSome_map]
  -- what success after the listing says about success without
  have hback : Succeeds E S ctx req s' → ∃ r, NamesProvider S s req.providerID r ∧
      ¬(Meets lreq r ∧ r.lastHeartbeat < E.now (s.clock + 1) - 30) ∧ Succeeds E' S ctx req s := by
    intro hafter
    obtain ⟨r', r, hn', honline, hn, hid, hsucc⟩ := hafter.transfer hP hsteady hproviders
      h.untouched.session h.untouched.tunnels hans
    obtain rfl := h.names hn.2 hn'.2 hid.symm
    have hfresh := not_stale_of_online honline
    rw [expire, if_neg hfresh] at honline
    exact ⟨r, hn, hfresh, hsucc honline⟩
  constructor
  · rintro hiff ⟨r, hacceptable, hstale⟩
    obtain ⟨r', hn', hfresh, -⟩ :=
      hback (hiff.mpr ((succeeds_iff_acceptable hP).mpr ⟨r, hacceptable⟩))
    obtain rfl := hacceptable.names.unique hn'
    exact hfresh hstale
  · intro hnot
    refine ⟨fun hafter => ?_, fun hbefore => ?_⟩
    · obtain ⟨_, _, _, hbefore⟩ := hback hafter
      exact hbefore
    · obtain ⟨accepted, hacceptable⟩ := (succeeds_iff_acceptable hP).mp hbefore
      obtain ⟨r, r', hn, honline, hn', hid, hsucc⟩ := hbefore.transfer hP hsteady
        (fun id => (hproviders id).symm) h.untouched.session.symm h.untouched.tunnels.symm hans.symm
      obtain rfl := hn.unique hacceptable.names
      have hfresh : ¬(Meets lreq accepted ∧ accepted.lastHeartbeat < E.now (s.clock + 1) - 30) :=
        fun hstale => hnot ⟨accepted, hacceptable, hstale⟩
      obtain rfl := h.names hn.2 hn'.2 hid
      exact hsucc (by rw [expire, if_neg hfresh, honline])

/-- The environment from the moment `t` on. -/
def Env.after (E : Env) (t : Nat) : Env :=
  { E with
    now := fun i => E.now (t + i)
    uuid := fun i => E.uuid (t + i)
    meetsMinimum := fun i => E.meetsMinimum (t + i) }

theorem sameAnswers_after (E : Env) (t : Nat) : SameAnswers E t (E.after t) 0 :=
  ⟨fun i => by simp [Env.after], fun i => by simp [Env.after], fun i => by simp [Env.after]⟩

/-- A request for a session on the provider `p`. -/
def sessionOn (p : String) : CreateSessionRequest :=
  { providerID := p, renterID := "r", requested := none, image := "alpine", wgPublicKey := "key" }

/-- `"p"` has been heard of, so listing the providers changes nothing for it. -/
theorem succeeds_after_listing_fresh :
    (∃ resp s', (listProviders ⟨0, 0, 0⟩).run (exec (envAt 100) (memoryStore (fun _ => Order.id)))
        silentServer = some (resp, s') ∧
      (Succeeds (envAt 100) (memoryStore (fun _ => Order.id)) none (sessionOn "p") s' ↔
        Succeeds ((envAt 100).after s'.clock) (memoryStore (fun _ => Order.id)) none (sessionOn "p")
          silentServer)) ∧
    ∃ resp s', (listProviders ⟨0, 0, 0⟩).run (exec (envAt 100) (PostgresStore.tableStore
        (PostgresStore.postgres (fun _ => Order.id) (fun _ _ => none) (fun _ => none))))
        silentServer = some (resp, s') ∧
      (Succeeds (envAt 100) (PostgresStore.tableStore
          (PostgresStore.postgres (fun _ => Order.id) (fun _ _ => none) (fun _ => none))) none
          (sessionOn "p") s' ↔
        Succeeds ((envAt 100).after s'.clock) (PostgresStore.tableStore
          (PostgresStore.postgres (fun _ => Order.id) (fun _ _ => none) (fun _ => none))) none
          (sessionOn "p") silentServer) := by
  constructor
  · obtain ⟨⟨resp, s'⟩, hrun⟩ := listProviders_returns (E := envAt 100)
      (S := memoryStore (fun _ => Order.id)) ⟨0, 0, 0⟩ silentServer
    refine ⟨resp, s', hrun, (succeeds_after_listing_iff (memoryStore_lawful _)
      (memoryStore_providerLaws _) (memoryStore_steady _) (memoryStore_listable _ _) hrun
      (sameAnswers_after _ _)).mpr ?_⟩
    rintro ⟨r, hacceptable, -, hstale⟩
    have hp : NamesProvider (memoryStore (fun _ => Order.id)) silentServer "p"
        { id := "p", status := "online", lastHeartbeat := 95 } := ⟨by decide, by decide⟩
    obtain rfl := hp.unique hacceptable.names
    exact absurd hstale (by decide)
  · have hlist : (PostgresStore.tableStore (PostgresStore.postgres (fun _ => Order.id)
        (fun _ _ => none) (fun _ => none))).Listable silentServer.store := by
      refine PostgresStore.tableStore_listable (fun _ _ => rfl) (fun _ => rfl) rfl (fun r hr => ?_)
      simp only [silentServer, Tables.insertProvider, Map.lookup_insert] at hr
      split at hr
      · cases hr
        decide
      · split at hr
        · cases hr
          decide
        · cases hr
    obtain ⟨⟨resp, s'⟩, hrun⟩ := listProviders_returns (E := envAt 100)
      (S := PostgresStore.tableStore (PostgresStore.postgres (fun _ => Order.id) (fun _ _ => none)
        (fun _ => none))) ⟨0, 0, 0⟩ silentServer
    refine ⟨resp, s', hrun, (succeeds_after_listing_iff (PostgresStore.tableStore_lawful _)
      (PostgresStore.tableStore_providerLaws _) (PostgresStore.postgres_steady _) hlist hrun
      (sameAnswers_after _ _)).mpr ?_⟩
    rintro ⟨r, hacceptable, -, hstale⟩
    have hp : NamesProvider (PostgresStore.tableStore (PostgresStore.postgres (fun _ => Order.id)
        (fun _ _ => none) (fun _ => none))) silentServer "p"
        { id := "p", status := "online", lastHeartbeat := 95 } := ⟨by decide, by decide⟩
    obtain rfl := hp.unique hacceptable.names
    exact absurd hstale (by decide)

/-- The same request for `"q"` succeeds as long as nobody lists the providers. -/
theorem listing_prevents_session :
    let machine := exec (envAt 100) (memoryStore (fun _ => Order.id))
    ((createSession none (sessionOn "q")).run machine silentServer).map (fun x => x.1.toOption.isSome) =
        some true ∧
      (((listProviders ⟨0, 0, 0⟩).run machine silentServer).bind (fun x =>
        (createSession none (sessionOn "q")).run machine x.2)).map Prod.fst =
        some (.error ⟨.unavailable, "provider is not online"⟩) := by
  decide +kernel

end PeerCompute.Registry
