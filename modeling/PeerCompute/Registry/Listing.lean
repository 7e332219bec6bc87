import PeerCompute.Plugin.MemoryStore
import PeerCompute.Registry.Actions
import PeerCompute.Store.PrefixLookup

/-! `ListProviders`: the providers it returns, and those it puts offline. -/

namespace PeerCompute.Registry

open PeerCompute.Data PeerCompute.Interleaving PeerCompute.Plugin PeerCompute.Computev1 Prog

section

variable {σ : Type} {E : Env} {S : Store σ} {s : Server σ} {r : ProviderRecord}

theorem loadProvider_handle {st : σ} (h : S.provider st r.id = some r) :
    S.loadProvider st (S.providerHandle r) = r := by
  unfold Store.providerHandle
  split
  next => simp [Store.loadProvider, h]
  next => rfl

/-- The record `r` is put offline, and no other record changes. -/
def PutOffline (S : Store σ) (r : ProviderRecord) (st st' : σ) : Prop :=
  ∀ id, S.provider st' id =
    if id = r.id then some { r with status := "offline" } else S.provider st id

/-- Every write of `r` as offline is accepted. -/
def Accepts (S : Store σ) (r : ProviderRecord) : Prop :=
  ∀ t st, ∃ x, S.putProvider t st (S.providerHandle { r with status := "offline" }) = .ok x

/-- The two actions of the loop for a provider without a recent heartbeat. -/
theorem leads_putOffline {α : Type} (hP : S.ProviderLaws) (hput : Accepts S r)
    (hr : S.provider s.store r.id = some r) {f : Prog signature α} {Q : α → Server σ → Prop}
    (h : ∀ s' : Server σ, PutOffline S r s.store s'.store → Leads (exec E S) f s' Q) :
    Leads (exec E S) (do
      let ref ← Call.setProvider (S.providerHandle r) (.status "offline")
      let _ ← Call.putProvider ref
      f) s Q := by
  rw [leads_setProvider, leads_putProvider]
  cases hs : S.shared with
  | true =>
    have hhandle (r : ProviderRecord) : S.providerHandle r = .stored r.id := if_pos hs
    simp only [hhandle, Store.setProvider]
    obtain ⟨⟨ref, st⟩, hst⟩ := hput s.tick.clock (S.assignProvider s.store r.id (.status "offline"))
    rw [hhandle] at hst
    simp only [Server.tick] at hst ⊢
    rw [hst]
    refine h _ (fun id => ?_)
    change S.provider st id = _
    rw [(hP.put_stored hst).2, hP.assign_provider, hr]
    rfl
  | false =>
    have hhandle (r : ProviderRecord) : S.providerHandle r = .own r := if_neg (by simp [hs])
    simp only [hhandle, Store.setProvider]
    obtain ⟨⟨ref, st⟩, hst⟩ := hput s.tick.clock s.store
    rw [hhandle] at hst
    simp only [Server.tick, ProviderAssign.apply] at hst ⊢
    rw [hst]
    refine h _ (fun id => ?_)
    change S.provider st id = _
    rw [(hP.put_own hst).2, hr]
    simp [Store.mergeProvider, hs]

/-- What becomes of a provider the loop comes to. -/
def expireAt (stale : Int) (r : ProviderRecord) : ProviderRecord :=
  if r.lastHeartbeat < stale then { r with status := "offline" } else r

/-- The providers `rs` have been expired, and no other one has changed. -/
def Expires (S : Store σ) (stale : Int) (rs : List ProviderRecord) (st st' : σ) : Prop :=
  ∀ id, S.provider st' id = if id ∈ rs.map ProviderRecord.id then
    (S.provider st id).map (expireAt stale) else S.provider st id

theorem Expires.cons {stale : Int} {rs : List ProviderRecord} {st st₁ st' : σ}
    (hr : S.provider st r.id = some r) (hnotin : r.id ∉ rs.map ProviderRecord.id)
    (hfirst : ∀ id, S.provider st₁ id =
      if id = r.id then some (expireAt stale r) else S.provider st id)
    (hrest : Expires S stale rs st₁ st') : Expires S stale (r :: rs) st st' := by
  intro id
  simp only [hrest id, hfirst id, List.map_cons, List.mem_cons]
  by_cases hid : id = r.id
  · rw [hid, if_neg hnotin, if_pos rfl, if_pos (.inl rfl), hr, Option.map_some]
  · simp only [hid, if_false, false_or]

/-- The loop, over stored records with different IDs. -/
theorem onlineProviders_leads (hP : S.ProviderLaws) (stale : Int) {rs : List ProviderRecord}
    (hput : ∀ r ∈ rs, Accepts S r) (hnodup : (rs.map ProviderRecord.id).Nodup)
    (hstored : ∀ r ∈ rs, S.provider s.store r.id = some r) :
    Leads (exec E S) (onlineProviders stale (rs.map S.providerHandle)) s (fun out s' =>
      out = (rs.filter (fun r => stale ≤ r.lastHeartbeat ∧ r.status = "online")).map
        providerToProto ∧ Expires S stale rs s.store s'.store) := by
  induction rs generalizing s with
  | nil => exact leads_ret.mpr ⟨rfl, fun id => rfl⟩
  | cons r rs ih =>
    obtain ⟨hnotin, hnodup⟩ := List.nodup_cons.mp hnodup
    have hr := hstored r (.head _)
    rw [List.map_cons, onlineProviders, leads_loadProvider, loadProvider_handle hr]
    split
    next hstale =>
      refine leads_putOffline (s := s.tick) hP (hput r (.head _)) hr (fun s₁ hs₁ => ?_)
      have hfirst : ∀ id, S.provider s₁.store id =
          if id = r.id then some (expireAt stale r) else S.provider s.store id := by
        intro id
        rw [hs₁ id, expireAt, if_pos hstale]
        rfl
      have hstored₁ : ∀ r' ∈ rs, S.provider s₁.store r'.id = some r' := by
        intro r' hr'
        rw [hfirst, if_neg (fun h : r'.id = r.id => hnotin (h ▸ List.mem_map_of_mem hr'))]
        exact hstored r' (.tail _ hr')
      refine (ih (fun r hr => hput r (.tail _ hr)) hnodup hstored₁).mono (fun out s' h => ?_)
      refine ⟨?_, .cons hr hnotin hfirst h.2⟩
      rw [h.1, List.filter_cons_of_neg (by simp [hstale])]
    next hfresh =>
      have hfirst : ∀ id, S.provider s.store id =
          if id = r.id then some (expireAt stale r) else S.provider s.store id := by
        intro id
        rw [expireAt, if_neg hfresh]
        split
        next h => rw [h, hr]
        next => rfl
      have hrest := ih (s := s.tick) (fun r hr => hput r (.tail _ hr)) hnodup
        (fun r hr => hstored r (.tail _ hr))
      split
      next hoffline =>
        refine hrest.mono (fun out s' h => ⟨?_, .cons hr hnotin hfirst h.2⟩)
        rw [h.1, List.filter_cons_of_neg (by simp [hoffline])]
      next honline =>
        refine Leads.bind (hrest.mono (fun out s' h => leads_ret.mpr ⟨?_, .cons hr hnotin hfirst h.2⟩))
        rw [h.1, List.filter_cons_of_pos, List.map_cons]
        simpa using ⟨Int.not_lt.mp hfresh, not_not.mp honline⟩

/-- The provider has what the request asks for; a minimum of zero asks for nothing. -/
structure Meets (req : ListProvidersRequest) (r : ProviderRecord) : Prop where
  cpu : req.minCPU ≠ 0 → req.minCPU ≤ r.availCPU
  memory : req.minMemoryMB ≠ 0 → req.minMemoryMB ≤ r.availMemoryMB
  gpu : req.minGPU ≠ 0 → req.minGPU ≤ r.availGPU

theorem admits_iff {req : ListProvidersRequest} :
    ProviderFilter.admits
      { minCPU := req.minCPU, minMemory := req.minMemoryMB, minGPU := req.minGPU } r = true ↔
      Meets req r := by
  simp only [ProviderFilter.admits, decide_true, Bool.true_or, Bool.true_and, Bool.and_eq_true,
    Bool.or_eq_true, decide_eq_true_eq]
  constructor
  · rintro ⟨⟨hcpu, hmem⟩, hgpu⟩
    exact ⟨hcpu.resolve_left, hmem.resolve_left, hgpu.resolve_left⟩
  · rintro ⟨hcpu, hmem, hgpu⟩
    exact ⟨⟨or_iff_not_imp_left.mpr hcpu, or_iff_not_imp_left.mpr hmem⟩,
      or_iff_not_imp_left.mpr hgpu⟩

instance decidableMeets (req : ListProvidersRequest) (r : ProviderRecord) :
    Decidable (Meets req r) := decidable_of_iff _ admits_iff

/-- The stored record of a provider after a listing at `now`. -/
def expire (req : ListProvidersRequest) (now : Int) (r : ProviderRecord) : ProviderRecord :=
  if Meets req r ∧ r.lastHeartbeat < now - 30 then { r with status := "offline" } else r

/-- What `ListProviders` returns at `now`, and what it leaves. -/
structure Lists (S : Store σ) (req : ListProvidersRequest) (now : Int) (out : List Provider)
    (s s' : Server σ) : Prop where
  listed : ∃ rs : List ProviderRecord, out = rs.map providerToProto ∧
    (rs.map ProviderRecord.id).Nodup ∧ ∀ r, r ∈ rs ↔ S.provider s.store r.id = some r ∧
      r.status = "online" ∧ now - 30 ≤ r.lastHeartbeat ∧ Meets req r
  provider : ∀ id, S.provider s'.store id = (S.provider s.store id).map (expire req now)
  untouched : Untouched S s s'

theorem Expires.provider (hP : S.ProviderLaws) {req : ListProvidersRequest} {now : Int}
    {rs : List ProviderRecord} {st st' : σ} (h : Expires S (now - 30) rs st st')
    (hmem : ∀ r, r ∈ rs ↔ S.provider st r.id = some r ∧ Meets req r) (id : String) :
    S.provider st' id = (S.provider st id).map (expire req now) := by
  rw [h id]
  cases hr : S.provider st id with
  | none => simp only [Option.map_none, ite_self]
  | some r =>
    obtain rfl := hP.provider_id hr
    simp only [Option.map_some, expire]
    by_cases hmeets : Meets req r
    · have hin : r.id ∈ rs.map ProviderRecord.id := List.mem_map_of_mem ((hmem r).mpr ⟨hr, hmeets⟩)
      simp only [if_pos hin, hmeets, true_and]
      rfl
    · have hnotin : r.id ∉ rs.map ProviderRecord.id := by
        intro hin
        obtain ⟨r', hr', hid⟩ := List.mem_map.mp hin
        obtain ⟨hstored, hmeets'⟩ := (hmem r').mp hr'
        rw [hid, hr] at hstored
        cases hstored
        exact hmeets hmeets'
      rw [if_neg hnotin, if_neg (fun h => hmeets h.1)]

theorem listProviders_leads (hS : S.Lawful) (hP : S.ProviderLaws) (hlist : S.Listable s.store)
    (req : ListProvidersRequest) :
    Leads (exec E S) (listProviders req) s (fun resp s' =>
      ∃ out, resp = .ok (.listProviders out) ∧ Lists S req (E.now (s.clock + 1)) out s s') := by
  have hframe : Leads (exec E S) (listProviders req) s (fun _ s' => Untouched S s s') :=
    harmless_leads hS ((uses_listProviders req).mono (fun _ => Silent.harmless))
  have hlists : Leads (exec E S) (listProviders req) s (fun resp s' =>
      ∃ out, resp = .ok (.listProviders out) ∧
        (Untouched S s s' → Lists S req (E.now (s.clock + 1)) out s s')) := by
    unfold listProviders
    rw [leads_listProviders]
    obtain ⟨refs, hrefs⟩ := hlist.list_providers s.clock s.store
      { minCPU := req.minCPU, minMemory := req.minMemoryMB, minGPU := req.minGPU } rfl
    obtain ⟨rs, rfl, hnodup, hmem⟩ := hP.list_providers hrefs
    simp only [admits_iff] at hmem
    rw [hrefs]
    dsimp only
    rw [leads_now]
    have hloop := onlineProviders_leads (E := E) (s := s.tick.tick) hP
      (E.now (s.clock + 1) - 30) (fun r hr t st => hlist.put_provider t st r ((hmem r).mp hr).1)
      hnodup (fun r hr => ((hmem r).mp hr).1)
    refine Leads.bind (hloop.mono (fun out s' h => leads_ret.mpr ⟨out, rfl, fun hu => ?_⟩))
    obtain ⟨rfl, hview⟩ := h
    refine ⟨⟨_, rfl, hnodup.sublist (List.filter_sublist.map _), fun r => ?_⟩,
      hview.provider hP hmem, hu⟩
    simp only [List.mem_filter, hmem r, decide_eq_true_eq]
    tauto
  refine leads_iff.mpr (fun resp s' hrun => ?_)
  obtain ⟨out, hresp, h⟩ := leads_iff.mp hlists resp s' hrun
  exact ⟨out, hresp, h (leads_iff.mp hframe resp s' hrun)⟩

theorem listProviders_returns (req : ListProvidersRequest) (s : Server σ) :
    ∃ x, (listProviders req).run (exec E S) s = some x := by
  have htotal : ∀ a, Silent a → total a = true := by
    intro a ha
    cases a with
    | allocateTunnelIPs | registerRelay => exact ha.elim
    | _ => rfl
  exact ((uses_listProviders req).mono htotal).returns (fun a ha s => exec_total ha s) s

theorem expire_expire (req : ListProvidersRequest) (now : Int) (r : ProviderRecord) :
    expire req now (expire req now r) = expire req now r := by
  by_cases h : Meets req r ∧ r.lastHeartbeat < now - 30
  · simp only [expire, if_pos h, ite_self]
  · simp only [expire, if_neg h]

theorem expire_of_fresh {req : ListProvidersRequest} {now : Int}
    (h : now - 30 ≤ r.lastHeartbeat) : expire req now r = r :=
  if_neg (fun h' => absurd h'.2 (Int.not_lt.mpr h))

@[simp] theorem lastHeartbeat_expire (req : ListProvidersRequest) (now : Int) (r : ProviderRecord) :
    (expire req now r).lastHeartbeat = r.lastHeartbeat := by
  unfold expire
  split <;> rfl

section

variable {req : ListProvidersRequest} {now : Int} {out : List Provider} {s' : Server σ}

theorem Lists.listable (h : Lists S req now out s s') (hP : S.ProviderLaws)
    (hlist : S.Listable s.store) : S.Listable s'.store := by
  refine ⟨hlist.list_providers, fun t st r hr => ?_⟩
  rw [h.provider] at hr
  obtain ⟨r₀, hr₀, rfl⟩ := Option.map_eq_some_iff.mp hr
  have hid := hP.provider_id hr₀
  have hback : { expire req now r₀ with status := "offline" } = { r₀ with status := "offline" } := by
    unfold expire
    split <;> rfl
  rw [hback]
  exact hlist.put_provider t st r₀ (by rw [hid]; exact hr₀)

/-- A second listing at the same time. -/
theorem Lists.again {out' : List Provider} {s'' : Server σ} (h : Lists S req now out s s')
    (h' : Lists S req now out' s' s'') :
    out'.Perm out ∧ S.provider s''.store = S.provider s'.store := by
  constructor
  · obtain ⟨rs, rfl, hnodup, hmem⟩ := h.listed
    obtain ⟨rs', rfl, hnodup', hmem'⟩ := h'.listed
    refine List.Perm.map _ ((List.perm_ext_iff_of_nodup hnodup'.of_map hnodup.of_map).mpr ?_)
    intro r
    rw [hmem, hmem', h.provider]
    refine and_congr_left (fun hr => ⟨fun hmap => ?_, fun hstored => ?_⟩)
    · obtain ⟨r₀, hr₀, rfl⟩ := Option.map_eq_some_iff.mp hmap
      have hfresh : now - 30 ≤ r₀.lastHeartbeat := by simpa using hr.2.1
      rwa [expire_of_fresh hfresh] at hr₀ ⊢
    · rw [hstored, Option.map_some, expire_of_fresh hr.2.1]
  · funext id
    rw [h'.provider, h.provider, Option.map_map]
    congr 1
    funext r
    exact expire_expire req now r

end

/-- `ListProviders` returns the providers that are online, have been heard of in the last thirty
seconds and have what is asked for, each once; those that have not been heard of are put offline,
and a second call at the same time finds nothing left to do. -/
theorem listProviders_exact (hS : S.Lawful) (hP : S.ProviderLaws) (hlist : S.Listable s.store)
    (E : Env) (req : ListProvidersRequest) :
    ∃ out s', (listProviders req).run (exec E S) s = some (.ok (.listProviders out), s') ∧
      Lists S req (E.now (s.clock + 1)) out s s' ∧
      ∀ E' : Env, E'.now (s'.clock + 1) = E.now (s.clock + 1) →
        ∃ out' s'', (listProviders req).run (exec E' S) s' =
            some (.ok (.listProviders out'), s'') ∧
          out'.Perm out ∧ S.provider s''.store = S.provider s'.store ∧ Untouched S s' s'' := by
  obtain ⟨⟨resp, s'⟩, hrun⟩ := listProviders_returns (E := E) (S := S) req s
  obtain ⟨out, rfl, h⟩ := leads_iff.mp (listProviders_leads hS hP hlist req) _ _ hrun
  refine ⟨out, s', hrun, h, fun E' hnow => ?_⟩
  obtain ⟨⟨resp, s''⟩, hrun'⟩ := listProviders_returns (E := E') (S := S) req s'
  obtain ⟨out', rfl, h'⟩ :=
    leads_iff.mp (listProviders_leads hS hP (h.listable hP hlist) req) _ _ hrun'
  rw [hnow] at h'
  obtain ⟨hperm, hsame⟩ := h.again h'
  exact ⟨out', s'', hrun', hperm, hsame, h'.untouched⟩

end

/-- Of two providers that are online one has fallen silent. -/
def silentServer : Server Tables where
  relay := none
  store := (Tables.empty.insertProvider { id := "p", status := "online", lastHeartbeat := 95 }
    ).insertProvider { id := "q", status := "online", lastHeartbeat := 60 }

theorem listProviders_exact_silent :
    (∃ out s', (listProviders ⟨0, 0, 0⟩).run (exec (envAt 100) (memoryStore (fun _ => Order.id)))
        silentServer = some (.ok (.listProviders out), s') ∧
      Lists (memoryStore (fun _ => Order.id)) ⟨0, 0, 0⟩ 100 out silentServer s') ∧
    ∃ out s', (listProviders ⟨0, 0, 0⟩).run (exec (envAt 100) (PostgresStore.tableStore
        (PostgresStore.faultless (fun _ => Order.id)))) silentServer =
          some (.ok (.listProviders out), s') ∧
      Lists (PostgresStore.tableStore (PostgresStore.faultless (fun _ => Order.id))) ⟨0, 0, 0⟩ 100
        out silentServer s' := by
  constructor
  · obtain ⟨out, s', hrun, h, -⟩ := listProviders_exact (memoryStore_lawful _)
      (memoryStore_providerLaws _) (memoryStore_listable (fun _ => Order.id) silentServer.store)
      (envAt 100) ⟨0, 0, 0⟩
    exact ⟨out, s', hrun, h⟩
  · have hlist : (PostgresStore.tableStore (PostgresStore.faultless (fun _ => Order.id))).Listable
        silentServer.store :=
      PostgresStore.tableStore_listable (fun _ _ => rfl) (fun _ => rfl) rfl (fun _ _ => rfl)
    obtain ⟨out, s', hrun, h, -⟩ := listProviders_exact (PostgresStore.tableStore_lawful _)
      (PostgresStore.tableStore_providerLaws _) hlist (envAt 100) ⟨0, 0, 0⟩
    exact ⟨out, s', hrun, h⟩

end PeerCompute.Registry
