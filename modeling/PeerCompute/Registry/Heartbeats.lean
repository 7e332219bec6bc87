import PeerCompute.Interleaving.Guard
import PeerCompute.Plugin.Providers
import PeerCompute.Registry.HeartbeatContract
import PeerCompute.Store.Postgres

/-! Heartbeats, registrations and listings of providers at the same time, over a store that hands
out copies. -/

namespace PeerCompute.Registry

open PeerCompute.Data PeerCompute.Interleaving PeerCompute.Plugin PeerCompute.Computev1
  Prog Contract

variable {σ : Type} {E : Env} {S : Store σ}

/-- The clock never goes back. -/
def Env.Forward (E : Env) : Prop := ∀ t t' : Nat, t ≤ t' → E.now t ≤ E.now t'

/-- A write of the provider `id` does not take its heartbeat back. -/
def InOrder (S : Store σ) (id : String) : (a : Action) → Server σ → a.Res → Prop
  | .updateHeartbeat id' n, s, _ =>
    id' = id → (S.provider s.store id).all (fun r => r.lastHeartbeat ≤ n) = true
  | .putProvider (.own r'), s, _ =>
    r'.id = id → (S.provider s.store id).all (fun r => r.lastHeartbeat ≤ r'.lastHeartbeat) = true
  | _, _, _ => True

instance decidableInOrder (S : Store σ) (id : String) (a : Action) (s : Server σ) (res : a.Res) :
    Decidable (InOrder S id a s res) := by
  cases a with
  | updateHeartbeat id' n => exact inferInstanceAs (Decidable (_ → _ = true))
  | putProvider ref =>
    cases ref with
    | own r => exact inferInstanceAs (Decidable (_ → _ = true))
    | stored id' => exact .isTrue trivial
  | _ => exact .isTrue trivial

/-- The turn is not one that takes back the heartbeat of the provider `id`. -/
def KeepsOrder (E : Env) (S : Store σ) (id : String) :
    Calls σ → Pool.Event signature (Except Status Response) → Prop :=
  Pool.Keeps (exec E S) (InOrder S id)

instance decidableKeepsOrder (E : Env) (S : Store σ) (id : String) (P : Calls σ)
    (e : Pool.Event signature (Except Status Response)) : Decidable (KeepsOrder E S id P e) :=
  @Pool.decidableKeeps signature _ _ (exec E S) (InOrder S id) (decidableInOrder S id) P e

namespace Heartbeats

variable {w : World}

/-- What an action of these calls does to the stored providers. -/
inductive Writes (S : Store σ) (s s' : Server σ) : (a : Action) → a.Res → Prop
  | none {a : Action} {res : a.Res} (hview : S.provider s'.store = S.provider s.store) :
      Writes S s s' a res
  | put {r : ProviderRecord} {res : Except StoreError (Ref ProviderRecord)}
      (hview : ∀ id, S.provider s'.store id = if id = r.id then
        some (S.mergeProvider (S.provider s.store r.id) r) else S.provider s.store id) :
      Writes S s s' (.putProvider (.own r)) res
  | beat {id : String} {n : Int} {res : Except StoreError Unit}
      (hview : ∀ id', S.provider s'.store id' = if id' = id then (S.provider s.store id).map
        (fun r => { r with lastHeartbeat := n, status := "online" }) else S.provider s.store id') :
      Writes S s s' (.updateHeartbeat id n) res

section

variable {s s' : Server σ} {a : Action} {res : a.Res}

theorem exec_writes (hP : S.ProviderLaws) (ha : Allowed w a)
    (h : exec E S a s = some (res, s')) : Writes S s s' a res := by
  cases a with
  | putProvider ref =>
    cases ref with
    | stored id => exact ha.elim
    | own r =>
      cases hput : S.putProvider s.clock s.store (.own r) with
      | error e =>
        simp only [exec, Server.act, hput] at h
        cases h
        exact .none rfl
      | ok x =>
        simp only [exec, Server.act, hput] at h
        cases h
        exact .put (hP.put_own hput).2
  | updateHeartbeat id n =>
    cases hput : S.updateHeartbeat s.clock s.store id n with
    | error e =>
      simp only [exec, Server.act, hput] at h
      cases h
      exact .none rfl
    | ok st =>
      simp only [exec, Server.act, hput] at h
      cases h
      exact .beat (fun id' => hP.update_heartbeat hput)
  | setProvider ref b =>
    cases ref with
    | stored id => exact ha.elim
    | own r =>
      cases h
      exact .none rfl
  | putSession | setSession => exact ha.elim
  | allocateTunnelIPs id =>
    simp only [exec, Server.act, Option.map_map] at h
    obtain ⟨x, -, heq⟩ := Option.map_eq_some_iff.mp h
    cases heq
    exact .none rfl
  | registerRelay token id =>
    simp only [exec, Server.act] at h
    split at h
    · cases h
      exact .none rfl
    · obtain ⟨x, hx, heq⟩ := Option.map_eq_some_iff.mp h
      obtain ⟨rs', -, hx⟩ := Option.map_eq_some_iff.mp hx
      cases heq
      cases hx
      exact .none rfl
  | _ =>
    cases h
    exact .none rfl

/-- No write makes a provider disappear. -/
theorem Writes.isSome (h : Writes S s s' a res) {id : String}
    (hid : (S.provider s.store id).isSome = true) : (S.provider s'.store id).isSome = true := by
  cases h with
  | none hview => rwa [hview]
  | put hview =>
    rw [hview]
    split
    · rfl
    · exact hid
  | beat hview =>
    rw [hview]
    split
    next heq => rwa [Option.isSome_map, ← heq]
    next => exact hid

/-- The time has been reached, and the providers are stored. -/
structure Known (E : Env) (S : Store σ) (w : World) (s : Server σ) : Prop where
  time : w.time ≤ E.now s.clock
  stored : ∀ id ∈ w.stored, (S.provider s.store id).isSome = true

theorem le_told (hK : Known E S w s) (h : exec E S a s = some (res, s')) : w ≤ told w a res := by
  cases a with
  | now =>
    cases h
    exact ⟨hK.time, fun _ hid => hid⟩
  | getProviderByPrefix p =>
    match res with
    | .ok (.own r) => exact ⟨le_rfl, fun _ hid => .inr hid⟩
    | .ok (.stored id) => exact le_refl w
    | .error e => exact le_refl w
  | _ => exact le_refl w

theorem Known.told (hP : S.ProviderLaws) (hK : Known E S w s)
    (h : exec E S a s = some (res, s')) : Known E S (told w a res) s := by
  cases a with
  | now =>
    cases h
    exact ⟨le_rfl, hK.stored⟩
  | getProviderByPrefix p =>
    cases h
    simp only [Heartbeats.told]
    split
    next r hget =>
      refine ⟨hK.time, fun id hid => ?_⟩
      obtain rfl | hid := hid
      · obtain ⟨r', hr', hhandle⟩ := hP.get_provider_by hget
        unfold Store.providerHandle at hhandle
        split at hhandle
        · cases hhandle
        · cases hhandle
          exact Option.isSome_iff_exists.mpr ⟨r, hr'⟩
      · exact hK.stored id hid
    next => exact hK
  | _ => exact hK

theorem known_exec (hP : S.ProviderLaws) (hclock : E.Forward) (hK : Known E S w s)
    (ha : Allowed w a) (h : exec E S a s = some (res, s')) : Known E S (told w a res) s' := by
  have htold := hK.told hP h
  refine ⟨le_trans htold.time (hclock _ _ ?_), fun id hid => ?_⟩
  · rw [exec_clock h]
    exact Nat.le_succ _
  · exact (exec_writes hP ha h).isSome (htold.stored id hid)

/-- The provider has a heartbeat of `n` or later, and is online for thirty seconds from then on. -/
def Alive (E : Env) (S : Store σ) (id : String) (n : Int) (s : Server σ) : Prop :=
  ∃ r, S.provider s.store id = some r ∧ n ≤ r.lastHeartbeat ∧
    (E.now s.clock ≤ n + 30 → r.status = "online")

/-- A listing may put the provider offline only when its thirty seconds are over. -/
theorem alive_exec (hP : S.ProviderLaws) (hclock : E.Forward) {id : String} {n : Int}
    (hK : Known E S w s) (ha : Allowed w a) (hord : InOrder S id a s res)
    (h : exec E S a s = some (res, s')) (hA : Alive E S id n s) : Alive E S id n s' := by
  obtain ⟨r, hr, hn, honline⟩ := hA
  have hlater : E.now s.clock ≤ E.now s'.clock := by
    rw [exec_clock h]
    exact hclock _ _ (Nat.le_succ _)
  have hsame (hview : S.provider s'.store id = S.provider s.store id) : Alive E S id n s' :=
    ⟨r, hview.trans hr, hn, fun ht => honline (le_trans hlater ht)⟩
  cases exec_writes hP ha h with
  | none hview => exact hsame (congrFun hview id)
  | @put r' res hview =>
    by_cases hid : r'.id = id
    · have hle : r.lastHeartbeat ≤ r'.lastHeartbeat := by simpa [hr] using hord hid
      have hview' := hview id
      rw [if_pos hid.symm] at hview'
      refine ⟨_, hview', by simpa using le_trans hn hle, fun ht => ?_⟩
      rw [Store.mergeProvider_status]
      refine ha.resolve_right (fun hold => ?_)
      have htime := hK.time
      omega
    · exact hsame ((hview id).trans (if_neg (Ne.symm hid)))
  | @beat id' n' res hview =>
    by_cases hid : id' = id
    · have hle : r.lastHeartbeat ≤ n' := by simpa [hr] using hord hid
      have hview' := hview id
      rw [if_pos hid.symm, hid, hr] at hview'
      exact ⟨_, hview', le_trans hn hle, fun _ => rfl⟩
    · exact hsame ((hview id).trans (if_neg (Ne.symm hid)))

theorem alive_of_stamps (hP : S.ProviderLaws) {id : String} {n : Int} (hK : Known E S w s)
    (ha : Allowed w a) (hstamp : Stamps id n a res) (h : exec E S a s = some (res, s')) :
    Alive E S id n s' := by
  cases a with
  | updateHeartbeat id' n' =>
    obtain ⟨rfl, rfl, rfl⟩ := hstamp
    obtain ⟨r, hr⟩ := Option.isSome_iff_exists.mp (hK.stored _ ha)
    cases hput : S.updateHeartbeat s.clock s.store id' n' with
    | error e =>
      simp only [exec, Server.act, hput] at h
      cases h
    | ok st =>
      simp only [exec, Server.act, hput] at h
      cases h
      have hview : S.provider st id' = _ := hP.update_heartbeat hput
      rw [if_pos rfl, hr] at hview
      exact ⟨_, hview, le_rfl, fun _ => rfl⟩
  | putProvider ref =>
    cases ref with
    | stored id' => exact hstamp.elim
    | own r =>
      obtain ⟨⟨ref, rfl⟩, rfl, rfl, honline⟩ := hstamp
      cases hput : S.putProvider s.clock s.store (.own r) with
      | error e =>
        simp only [exec, Server.act, hput] at h
        cases h
      | ok x =>
        simp only [exec, Server.act, hput] at h
        cases h
        have hview := (hP.put_own hput).2 r.id
        rw [if_pos rfl] at hview
        exact ⟨_, hview, by simp, fun _ => by simpa using honline⟩
  | _ => exact hstamp.elim

theorem contract_sound (hS : S.Lawful) (hP : S.ProviderLaws) (hcopy : S.shared = false)
    (hclock : E.Forward) : contract.Sound (exec E S) (fun w _ => Known E S w) where
  act hK _ hx := by
    refine ⟨⟨copied_exec hS (hP.copies hcopy) (fun _ _ _ => trivial) (fun _ _ _ => trivial) hx,
      le_told hK hx⟩, ?_⟩
    rintro w' g' ⟨ha, rfl⟩
    exact ⟨le_told hK hx, known_exec hP hclock hK ha hx⟩

theorem contract_sound_alive (hS : S.Lawful) (hP : S.ProviderLaws) (hcopy : S.shared = false)
    (hclock : E.Forward) (id : String) (n : Int) :
    contract.Sound (guarded (exec E S) (InOrder S id))
      (fun w _ s => Known E S w s ∧ Alive E S id n s) where
  act hs hg hx := by
    obtain ⟨hx, hord⟩ := guarded_eq_some.mp hx
    obtain ⟨hans, hmove⟩ := (contract_sound hS hP hcopy hclock).act hs.1 hg hx
    refine ⟨hans, fun w' g' hm => ⟨(hmove w' g' hm).1, (hmove w' g' hm).2, ?_⟩⟩
    exact alive_exec hP hclock hs.1 hm.1 hord hx hs.2

end

theorem admits_turns {Inv : World → Server σ → Prop} {turns : List Turn}
    (hcalls : ∀ c, .call c ∈ turns → c.WritesProviders) :
    ∀ e ∈ turns.map Turn.event, ∀ p, e = .start p → contract.Admits (fun w _ => Inv w) p := by
  rintro e he p rfl
  obtain ⟨turn, hturn, heq⟩ := List.mem_map.mp he
  cases turn with
  | call c =>
    cases heq
    exact ⟨.still, fun _ => follows_handler (hcalls c hturn), fun _ _ _ h => h⟩
  | step i => cases heq

end Heartbeats

open Heartbeats

/-- In the course of the turns the call `i` stores the heartbeat `n` of the provider `id`: then the
calls stand at `Q`, and `rest` is left of the turns. -/
def Stamped (E : Env) (S : Store σ) (s : Server σ) (turns : List Turn) (i : Nat) (id : String)
    (n : Int) (rest : List (Pool.Event signature (Except Status Response))) (Q : Calls σ) : Prop :=
  Pool.Earns (exec E S) i (Stamps id n) (turns.map Turn.event) ⟨s, []⟩ rest Q

section

variable {s : Server σ} {before during : List Turn} {c : Rpc} {P₀ P₁ : Calls σ} {resp : Response}

/-- A heartbeat or registration that has returned successfully has stored a heartbeat. -/
theorem stamped_of_returned (hS : S.Lawful) (hP : S.ProviderLaws) (hcopy : S.shared = false)
    (hc : c.Beats) (h₀ : interleave E S before s = some P₀)
    (h₁ : interleave E S (before ++ .call c :: during) s = some P₁)
    (hret : P₁.threads[P₀.threads.length]? = some (.ret (.ok resp))) :
    ∃ id n rest Q, Stamped E S s (before ++ .call c :: during) P₀.threads.length id n rest Q := by
  rw [interleave, List.map_append, List.map_cons] at h₁
  obtain ⟨P, hP', hplay⟩ := Pool.play_append.mp h₁
  obtain rfl : P₀ = P := Option.some.inj (h₀.symm.trans hP')
  have hduring : Pool.play (exec E S) (during.map Turn.event)
      ⟨P₀.state, P₀.threads ++ [c.handler]⟩ = some P₁ := hplay
  have hstart : (P₀.threads ++ [c.handler])[P₀.threads.length]? = some c.handler := by simp
  have hans : ∀ {a : Action} {s : Server σ} {res : a.Res} {s' : Server σ},
      exec E S a s = some (res, s') → Copied (fun _ => True) (fun _ => True) a res :=
    fun h => copied_exec hS (hP.copies hcopy) (fun _ _ _ => trivial) (fun _ _ _ => trivial) h
  obtain ⟨p, hp, howes⟩ | ⟨rest, Q, hearns⟩ :=
    Pool.owes_or_earns hans hstart (owes_handler hc) hduring
  · rw [hret] at hp
    cases hp
    exact absurd ⟨resp, rfl⟩ howes
  · obtain ⟨before', R, a, k, res, heq, hR, hi, hact, hQ, id, n, hstamp⟩ := hearns
    refine ⟨id, n, rest, Q, ?_⟩
    rw [Stamped, List.map_append, List.map_cons]
    exact .append hP' (.cons rfl ⟨before', R, a, k, res, heq, hR, hi, hact, hQ, hstamp⟩)

/-- Once the heartbeat is stored, no listing puts the provider offline for thirty seconds, if no
write takes the heartbeat back. -/
theorem online_of_stamped (hS : S.Lawful) (hP : S.ProviderLaws) (hcopy : S.shared = false)
    (hclock : E.Forward) {turns after : List Turn} {i : Nat} {id : String} {n : Int}
    {rest : List (Pool.Event signature (Except Status Response))} {Q P₂ : Calls σ}
    (hcalls : ∀ c, .call c ∈ turns ++ after → c.WritesProviders)
    (hstamped : Stamped E S s turns i id n rest Q)
    (h₂ : interleave E S (turns ++ after) s = some P₂)
    (hord : Step.Along (Pool.next (exec E S)) (KeepsOrder E S id)
      (rest ++ after.map Turn.event) Q) : Alive E S id n P₂.state := by
  rw [interleave, List.map_append] at h₂
  obtain ⟨before, R, a, k, res, hevents, hR, hi, hact, hstamp, hnext, hplay⟩ :=
    (Pool.Earns.extend hstamped (after.map Turn.event)).play h₂
  have hadmits {Inv : World → Server σ → Prop} : ∀ e ∈ before ++ .step i :: (rest ++
      after.map Turn.event), ∀ p, e = .start p → contract.Admits (fun w _ => Inv w) p := by
    rw [← hevents, ← List.map_append]
    exact admits_turns hcalls
  -- up to the stamp: every call keeps to the contract
  have hstart : contract.Governed (fun w _ => Known E S w) (⟨s, []⟩ : Calls σ) :=
    ⟨⟨E.now s.clock, ∅⟩, [], ⟨le_rfl, fun _ h => h.elim⟩, .nil⟩
  obtain ⟨w, hgoverned⟩ := hstart.play (contract_sound hS hP hcopy hclock)
    (fun e he => hadmits e (List.mem_append_left _ he)) hR
  obtain ⟨gs, g, a', k', res', w', g', hK, -, hi', hmove, -, gs', hK', hall⟩ :=
    (governedIn_iff.mp hgoverned).step (contract_sound hS hP hcopy hclock) hnext
  rw [hi] at hi'
  cases hi'
  have halive := alive_of_stamps hP hK hmove.1 hstamp hact
  -- from the stamp on: the provider stays alive
  have hQ' : contract.Governed (fun w _ s => Known E S w s ∧ Alive E S id n s) Q :=
    ⟨w', governedIn_iff.mpr ⟨gs', ⟨hK', halive⟩, hall⟩⟩
  obtain ⟨_, _, ⟨-, halive₂⟩, -⟩ := hQ'.play (contract_sound_alive hS hP hcopy hclock id n)
    (fun e he => hadmits e (List.mem_append_right _ (.tail _ he))) (Pool.play_guarded hord hplay)
  exact halive₂

/-- A heartbeat or registration that has returned successfully has stored a heartbeat `n` of its
provider, and the provider is online in every later state up to thirty seconds after `n`, if no
write after it takes the provider's heartbeat back. -/
theorem acknowledged_online (hS : S.Lawful) (hP : S.ProviderLaws) (hcopy : S.shared = false)
    (hclock : E.Forward) (hcalls : ∀ c', .call c' ∈ before ++ .call c :: during →
      c'.WritesProviders) (hc : c.Beats) (h₀ : interleave E S before s = some P₀)
    (h₁ : interleave E S (before ++ .call c :: during) s = some P₁)
    (hret : P₁.threads[P₀.threads.length]? = some (.ret (.ok resp))) :
    (∃ id n rest Q,
      Stamped E S s (before ++ .call c :: during) P₀.threads.length id n rest Q) ∧
    ∀ id n rest Q, Stamped E S s (before ++ .call c :: during) P₀.threads.length id n rest Q →
      ∀ (after : List Turn) (P₂ : Calls σ), (∀ c', .call c' ∈ after → c'.WritesProviders) →
        interleave E S (before ++ .call c :: during ++ after) s = some P₂ →
        Step.Along (Pool.next (exec E S)) (KeepsOrder E S id)
          (rest ++ after.map Turn.event) Q →
        E.now P₂.state.clock ≤ n + 30 →
        ∃ r, S.provider P₂.state.store id = some r ∧ r.status = "online" := by
  refine ⟨stamped_of_returned hS hP hcopy hc h₀ h₁ hret, ?_⟩
  intro id n rest Q hstamped after P₂ hafter h₂ hord htime
  have hall : ∀ c', .call c' ∈ before ++ .call c :: during ++ after → c'.WritesProviders := by
    intro c' hc'
    obtain hc' | hc' := List.mem_append.mp hc'
    · exact hcalls c' hc'
    · exact hafter c' hc'
  obtain ⟨r, hr, -, honline⟩ := online_of_stamped hS hP hcopy hclock hall hstamped h₂ hord
  exact ⟨r, hr, honline htime⟩

end

/-- A database without faults. -/
abbrev database : Store Tables :=
  PostgresStore.tableStore (PostgresStore.faultless (fun _ => Order.id))

/-- A provider that was heard of at the time `n`. -/
def heardOf (n : Int) : Server Tables where
  relay := none
  store := Tables.empty.insertProvider { id := "p", status := "online", lastHeartbeat := n }

def aHeartbeat : Rpc := .heartbeat { providerID := "p", available := none, activeSessions := [] }

def aListing : Rpc := .listProviders ⟨0, 0, 0⟩

/-- A listing that begins after the heartbeat is acknowledged. -/
theorem acknowledged_online_listed :
    ∃ P₂, interleave (envAt 100) database ([] ++ .call aHeartbeat :: List.replicate 4 (.step 0) ++
        (.call aListing :: List.replicate 3 (.step 1))) (heardOf 60) = some P₂ ∧
      ∃ r, database.provider P₂.state.store "p" = some r ∧ r.status = "online" := by
  obtain ⟨P₁, resp, h₁, hret⟩ : ∃ P₁ resp, interleave (envAt 100) database
      ([] ++ .call aHeartbeat :: List.replicate 4 (.step 0)) (heardOf 60) = some P₁ ∧
      P₁.threads[0]? = some (.ret (.ok resp)) := ⟨_, _, rfl, rfl⟩
  obtain ⟨P₂, h₂, htime⟩ : ∃ P₂, interleave (envAt 100) database
      ([] ++ .call aHeartbeat :: List.replicate 4 (.step 0) ++
        (.call aListing :: List.replicate 3 (.step 1))) (heardOf 60) = some P₂ ∧
      (envAt 100).now P₂.state.clock ≤ 100 + 30 := ⟨_, rfl, by decide⟩
  obtain ⟨Q, hstamped, hord⟩ : ∃ Q, Stamped (envAt 100) database (heardOf 60)
      ([] ++ .call aHeartbeat :: List.replicate 4 (.step 0)) 0 "p" 100 [] Q ∧
      Step.Along (Pool.next (exec (envAt 100) database)) (KeepsOrder (envAt 100) database "p")
        ([] ++ (.call aListing :: List.replicate 3 (Turn.step 1)).map Turn.event) Q :=
    ⟨⟨_, _⟩, ⟨[.start aHeartbeat.handler, .step 0, .step 0, .step 0], _,
      .updateHeartbeat "p" 100, _, .ok (), rfl, rfl, rfl, rfl, rfl, rfl, rfl, rfl⟩,
      by decide +kernel⟩
  have h₀ : interleave (envAt 100) database [] (heardOf 60) = some ⟨heardOf 60, []⟩ := rfl
  obtain ⟨-, honline⟩ := acknowledged_online (PostgresStore.tableStore_lawful _)
    (PostgresStore.tableStore_providerLaws _) rfl (fun _ _ _ => le_rfl)
    (by simp [aHeartbeat, Rpc.WritesProviders]) (by trivial) h₀ h₁ hret
  exact ⟨P₂, h₂, honline "p" 100 [] Q hstamped _ P₂ (by simp [aListing, Rpc.WritesProviders]) h₂
    hord htime⟩

/-- A clock that goes on by forty seconds between the fourth action and the fifth. -/
def slowEnv : Env := { countingEnv with now := fun t => if t < 4 then 60 else 100 }

/-- A listing reads the provider before its heartbeat is stored, and puts it offline after the
heartbeat has been acknowledged, at the same time.  Without any overlap, a heartbeat that is
acknowledged at the time 100 but has looked at the clock at 60 does not keep a listing at 100 from
putting the provider offline. -/
theorem heartbeat_undone :
    ((interleave (envAt 100) database
        ([.call aListing, .call aHeartbeat, .step 0] ++ List.replicate 4 (.step 1)) (heardOf 60)).map
        (fun P => ((P.threads[1]?.bind Pool.answer).map (fun x => x.toOption.isSome),
          (P.state.store.providers.lookup "p").map (fun r => (r.status, r.lastHeartbeat)))) =
      some (some true, some ("online", 100)) ∧
    (interleave (envAt 100) database ([.call aListing, .call aHeartbeat, .step 0] ++
          List.replicate 4 (.step 1) ++ List.replicate 4 (.step 0)) (heardOf 60)).map
        (fun P => (P.state.store.providers.lookup "p").map (fun r => (r.status, r.lastHeartbeat))) =
      some (some ("offline", 60))) ∧
    (interleave slowEnv database (.call aHeartbeat :: List.replicate 4 (.step 0)) (heardOf 55)).map
        (fun P => ((P.threads[0]?.bind Pool.answer).map (fun x => x.toOption.isSome),
          slowEnv.now P.state.clock)) = some (some true, 100) ∧
    (interleave slowEnv database (.call aHeartbeat :: List.replicate 4 (.step 0) ++
          .call aListing :: List.replicate 5 (.step 1)) (heardOf 55)).map
        (fun P => ((P.state.store.providers.lookup "p").map (fun r => (r.status, r.lastHeartbeat)),
          slowEnv.now P.state.clock)) = some (some ("offline", 60), 100) := by
  decide +kernel

end PeerCompute.Registry
