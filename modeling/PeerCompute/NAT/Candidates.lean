import PeerCompute.NAT.Probe

/-! The candidates that a peer gathers, and whether the other peer can probe them. -/

namespace PeerCompute.NAT

/-- An address of an interface; only a `*net.IPNet` has an IP. -/
inductive InterfaceAddr
  | ipNet (ip : IP)
  | other

structure Interface where
  loopback : Bool
  up : Bool
  addrs : Except String (List InterfaceAddr)

/-- What the system and the STUN server answer. -/
structure GatherEnv where
  interfaces : Except String (List Interface)
  discoverEndpoint : String → Except String String

/-- The IP, unless the loop goes on without it. -/
def InterfaceAddr.hostIP : InterfaceAddr → Option IP
  | .ipNet ip =>
    if ip.isLoopback || ip.isLinkLocalUnicast || ip.isLinkLocalMulticast then none else some ip
  | .other => none

def Interface.hostIPs (iface : Interface) : List IP :=
  if iface.loopback || !iface.up then []
  else match iface.addrs with
    | .error _ => []
    | .ok addrs => addrs.filterMap InterfaceAddr.hostIP

/-- The IPs of all interfaces that are neither loopback nor link-local. -/
def hostIPs (ifaces : List Interface) : List IP := ifaces.flatMap Interface.hostIPs

def hostCandidate (localPort : Int) (ip : IP) : Candidate :=
  ⟨String.ofList (ip.string ++ ':' :: (toString localPort).toList), "host", 100⟩

/-- The server-reflexive candidate; a failed discovery is only logged. -/
def GatherEnv.reflexive (env : GatherEnv) (stunAddr : String) : List Candidate :=
  if stunAddr = "" then []
  else match env.discoverEndpoint stunAddr with
    | .error _ => []
    | .ok pubAddr => [⟨pubAddr, "srflx", 200⟩]

def gatherCandidates (env : GatherEnv) (stunAddr : String) (localPort : Int) :
    Except String (List Candidate) :=
  match env.interfaces with
  | .error e => .error ("list interfaces: " ++ e)
  | .ok ifaces =>
    .ok ((hostIPs ifaces).map (hostCandidate localPort) ++ env.reflexive stunAddr)

theorem not_host_of_reflexive {env : GatherEnv} {stunAddr : String} :
    ∀ cand ∈ env.reflexive stunAddr, cand.type ≠ "host" := by
  intro cand hcand
  unfold GatherEnv.reflexive at hcand
  split at hcand
  · cases hcand
  split at hcand
  · cases hcand
  · obtain rfl := List.mem_singleton.mp hcand
    exact fun h => absurd (show "srflx" = "host" from h) (by decide)

/-- A host candidate resolves to its own IP and port if that IP is an IPv4 address; otherwise it
does not resolve at all. -/
theorem resolve_hostCandidate_iff (R : Resolver) (ip : IP) (port : Fin 65536) :
    R.resolveUDPAddr (hostCandidate port ip).address = some ⟨some ip.to16, port, ""⟩ ↔
      ip.to4.isSome := by
  constructor
  · intro h
    cases hip : ip.to4 with
    | some p4 => rfl
    | none => exact absurd ((resolveUDPAddr_of_not_to4 R port hip).symm.trans h) (by simp)
  · exact fun h => resolveUDPAddr_of_to4 R h port.isLt

theorem mem_sendProbes {c : ProbeCall} {cand : Candidate} {raddr : UDPAddr}
    (hcand : cand ∈ c.remoteCandidates)
    (h : c.resolver.resolveUDPAddr cand.address = some raddr) :
    ⟨raddr, probeMagic ++ c.probeID.bytes⟩ ∈ c.sendProbes :=
  List.mem_filterMap.mpr ⟨cand, hcand, by rw [h]; rfl⟩

/-- Of the host candidates that one peer gathers, the other probes all, each at its own IP and port,
exactly if none of them is an IPv6 address. -/
theorem host_candidates_probed_iff (env : GatherEnv) (stunAddr : String) (port : Fin 65536)
    {ifaces : List Interface} (hifaces : env.interfaces = .ok ifaces) :
    ∃ cands, gatherCandidates env stunAddr port = .ok cands ∧
      cands.filter (·.type = "host") = (hostIPs ifaces).map (hostCandidate port) ∧
      ∀ c : ProbeCall, c.remoteCandidates = cands →
        ((∀ ip ∈ hostIPs ifaces,
          c.resolver.resolveUDPAddr (hostCandidate port ip).address =
            some ⟨some ip.to16, port, ""⟩ ∧
          ⟨⟨some ip.to16, port, ""⟩, probeMagic ++ c.probeID.bytes⟩ ∈ c.sendProbes) ↔
        ∀ ip ∈ hostIPs ifaces, ip.to4.isSome) := by
  have hgather : gatherCandidates env stunAddr port =
      .ok ((hostIPs ifaces).map (hostCandidate port) ++ env.reflexive stunAddr) := by
    simp only [gatherCandidates, hifaces]
  refine ⟨_, hgather, ?_, fun c hc => ?_⟩
  · have hhost : ∀ cand ∈ (hostIPs ifaces).map (hostCandidate port),
        decide (cand.type = "host") = true := by
      intro cand hcand
      obtain ⟨ip, -, rfl⟩ := List.mem_map.mp hcand
      rfl
    rw [List.filter_append, List.filter_eq_self.mpr hhost, List.filter_eq_nil_iff.mpr
      (fun cand hcand => by simpa using not_host_of_reflexive cand hcand), List.append_nil]
  · constructor
    · exact fun h ip hip => (resolve_hostCandidate_iff c.resolver ip port).mp (h ip hip).1
    · intro h ip hip
      have hresolve := (resolve_hostCandidate_iff c.resolver ip port).mpr (h ip hip)
      refine ⟨hresolve, mem_sendProbes ?_ hresolve⟩
      rw [hc]
      exact List.mem_append_left _ (List.mem_map_of_mem hip)

/-- A machine with one interface. -/
def oneInterface (ip : IP) : GatherEnv where
  interfaces := .ok [⟨false, true, .ok [.ipNet ip]⟩]
  discoverEndpoint _ := .error "no server"

/-- 203.0.113.7, as the interface table has it. -/
def anIPv4 : IP := ⟨v4InV6 ++ [203, 0, 113, 7], .inr rfl⟩

/-- 2001:db8::1. -/
def anIPv6 : IP := ⟨[0x20, 1, 0xd, 0xb8, 0, 0, 0, 0, 0, 0, 0, 0, 0, 0, 0, 1], .inr rfl⟩

theorem host_candidates_probed_ipv4 :
    ∃ cands, gatherCandidates (oneInterface anIPv4) "" 51820 = .ok cands ∧
      ∀ c : ProbeCall, c.remoteCandidates = cands →
        ⟨⟨some anIPv4, 51820, ""⟩, probeMagic ++ c.probeID.bytes⟩ ∈ c.sendProbes := by
  obtain ⟨cands, hgather, -, hiff⟩ :=
    host_candidates_probed_iff (oneInterface anIPv4) "" 51820 rfl
  refine ⟨cands, hgather, fun c hc => ?_⟩
  have hprobed := (hiff c hc).mpr (by decide +kernel)
  exact (hprobed anIPv4 (by decide +kernel)).2

/-- A global IPv6 address is gathered and never probed. -/
theorem ipv6_candidate_skipped :
    gatherCandidates (oneInterface anIPv6) "" 51820 = .ok [⟨"2001:db8::1:51820", "host", 100⟩] ∧
      ∀ c : ProbeCall, c.remoteCandidates = [⟨"2001:db8::1:51820", "host", 100⟩] →
        c.resolver.resolveUDPAddr "2001:db8::1:51820" = none ∧ c.sendProbes = [] := by
  refine ⟨by decide +kernel, fun c hc => ?_⟩
  have hresolve : c.resolver.resolveUDPAddr "2001:db8::1:51820" = none := by
    have hsplit : Agent.splitHostPort "2001:db8::1:51820".toList = none := by decide +kernel
    simp only [Resolver.resolveUDPAddr, hsplit]
  refine ⟨hresolve, ?_⟩
  simp only [ProbeCall.sendProbes, hc, List.filterMap_cons, hresolve, Option.map_none,
    List.filterMap_nil]

end PeerCompute.NAT
