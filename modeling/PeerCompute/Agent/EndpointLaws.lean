import PeerCompute.Agent.Endpoints
import PeerCompute.Data.Separated

/-! What `net.SplitHostPort` makes of the texts that are put together here. -/

namespace PeerCompute.Agent

open PeerCompute.Data

/-- No colon and no bracket. -/
structure Bare (cs : List Char) : Prop where
  colon : ':' ∉ cs
  opening : '[' ∉ cs
  closing : ']' ∉ cs

/-- A name, an IPv4 address or a port. -/
structure IsWord (cs : List Char) : Prop extends Bare cs where
  ne_nil : cs ≠ []
  space : ∀ c ∈ cs, isSpace c = false

theorem isWord_iff {cs : List Char} : IsWord cs ↔
    cs ≠ [] ∧ cs.all (fun c => c ≠ ':' && c ≠ '[' && c ≠ ']' && !isSpace c) = true := by
  simp only [List.all_eq_true, Bool.and_eq_true, decide_eq_true_eq, Bool.not_eq_true']
  constructor
  · intro h
    refine ⟨h.ne_nil, fun c hc => ⟨⟨⟨?_, ?_⟩, ?_⟩, h.space c hc⟩⟩
    · exact fun heq => h.colon (heq ▸ hc)
    · exact fun heq => h.opening (heq ▸ hc)
    · exact fun heq => h.closing (heq ▸ hc)
  · rintro ⟨hne, h⟩
    exact ⟨⟨fun hc => (h _ hc).1.1.1 rfl, fun hc => (h _ hc).1.1.2 rfl, fun hc => (h _ hc).1.2 rfl⟩,
      hne, fun c hc => (h c hc).2⟩

instance decidableIsWord (cs : List Char) : Decidable (IsWord cs) := decidable_of_iff _ isWord_iff.symm

section

variable {before host port : List Char}

theorem port_of_append (hport : ':' ∉ port) :
    ((before ++ ':' :: port).reverse.takeWhile (· ≠ ':')).reverse = port := by
  have hall : ∀ c ∈ port.reverse, decide (c ≠ ':') = true := by
    intro c hc
    rw [List.mem_reverse] at hc
    exact decide_eq_true (fun heq => hport (heq ▸ hc))
  rw [List.reverse_append, List.reverse_cons, List.append_assoc, List.singleton_append,
    List.takeWhile_append_of_pos hall, List.takeWhile_cons_of_neg (by decide), List.append_nil,
    List.reverse_reverse]

theorem before_of_append :
    (before ++ ':' :: port).take ((before ++ ':' :: port).length - port.length - 1) = before := by
  have hlength : (before ++ ':' :: port).length - port.length - 1 = before.length := by
    simp only [List.length_append, List.length_cons]
    omega
  rw [hlength, List.take_left]

theorem splitHostPort_of_bare (hhost : Bare host) (hport : Bare port) :
    splitHostPort (host ++ ':' :: port) = some (host, port) := by
  unfold splitHostPort
  simp only [port_of_append hport.colon, before_of_append]
  rw [if_neg (by simp)]
  split
  · exact absurd (.head _) hhost.opening
  · exact if_pos ⟨hhost.colon, hhost.opening, hhost.closing, hport.opening, hport.closing⟩

theorem splitHostPort_of_brackets (hopening : '[' ∉ host) (hclosing : ']' ∉ host)
    (hport : Bare port) :
    splitHostPort ('[' :: (host ++ ']' :: ':' :: port)) = some (host, port) := by
  have happend : '[' :: (host ++ ']' :: ':' :: port) = ('[' :: (host ++ [']'])) ++ ':' :: port := by
    simp
  rw [happend]
  unfold splitHostPort
  simp only [port_of_append hport.colon, before_of_append]
  rw [if_neg (by simp), if_pos ⟨by simp, by simpa using hclosing, by simpa using hopening,
    hport.opening, hport.closing⟩, List.dropLast_concat]

theorem splitHostPort_join (hopening : '[' ∉ host) (hclosing : ']' ∉ host) (hport : Bare port) :
    splitHostPort (joinHostPort host port) = some (host, port) := by
  rw [joinHostPort]
  split
  · exact splitHostPort_of_brackets hopening hclosing hport
  next hcolon => exact splitHostPort_of_bare ⟨hcolon, hopening, hclosing⟩ hport

/-- Too many colons. -/
theorem splitHostPort_of_colon (hhost : ':' ∈ host) (hopening : '[' ∉ host) (hport : ':' ∉ port) :
    splitHostPort (host ++ ':' :: port) = none := by
  unfold splitHostPort
  simp only [port_of_append hport, before_of_append]
  rw [if_neg (by simp)]
  split
  · exact absurd (.head _) hopening
  · exact if_neg (fun h => h.1 hhost)

/-- Something stands between the brackets and the last colon. -/
theorem splitHostPort_of_trailing (hlast : host.getLast? ≠ some ']') (hport : ':' ∉ port) :
    splitHostPort ('[' :: host ++ ':' :: port) = none := by
  unfold splitHostPort
  simp only [port_of_append hport, before_of_append]
  rw [if_neg (by simp)]
  exact if_neg (fun h => hlast h.1)

end

theorem bare_repr (n : Nat) : Bare n.repr.toList :=
  ⟨notMem_repr (by decide) n, notMem_repr (by decide) n, notMem_repr (by decide) n⟩

theorem bare_toString (n : Int) : Bare (toString n).toList := by
  cases n with
  | ofNat n => exact bare_repr n
  | negSucc n =>
    have htext : (toString (Int.negSucc n)).toList = '-' :: n.succ.repr.toList :=
      String.toList_append
    obtain ⟨hcolon, hopening, hclosing⟩ := bare_repr n.succ
    rw [htext]
    exact ⟨List.not_mem_cons_of_ne_of_not_mem (by decide) hcolon,
      List.not_mem_cons_of_ne_of_not_mem (by decide) hopening,
      List.not_mem_cons_of_ne_of_not_mem (by decide) hclosing⟩

theorem dropWhile_of_not_space {cs : List Char} (h : ∀ c ∈ cs, isSpace c = false) :
    cs.dropWhile isSpace = cs := by
  cases cs with
  | nil => rfl
  | cons c cs => exact List.dropWhile_cons_of_neg (by rw [h c (.head _)]; exact Bool.false_ne_true)

theorem trimSpace_of_surrounded {pre text post : List Char} (hpre : ∀ c ∈ pre, isSpace c = true)
    (hpost : ∀ c ∈ post, isSpace c = true) (htext : ∀ c ∈ text, isSpace c = false) :
    trimSpace (pre ++ (text ++ post)) = text := by
  have hreverse : ∀ c ∈ text.reverse, isSpace c = false := fun c hc => htext c (List.mem_reverse.mp hc)
  have hend : (text ++ post).reverse.dropWhile isSpace = text.reverse := by
    rw [List.reverse_append,
      List.dropWhile_append_of_pos (fun c hc => hpost c (List.mem_reverse.mp hc)),
      dropWhile_of_not_space hreverse]
  rw [trimSpace, List.dropWhile_append_of_pos hpre]
  cases text with
  | nil =>
    rw [List.nil_append, ← List.append_nil post, List.dropWhile_append_of_pos hpost]
    rfl
  | cons c cs =>
    have hstart : (c :: cs ++ post).dropWhile isSpace = c :: cs ++ post :=
      List.dropWhile_cons_of_neg (by rw [htext c (.head _)]; exact Bool.false_ne_true)
    rw [hstart, hend, List.reverse_reverse]

/-- The host is split off the text, or it is the whole text. -/
structure Denotes (text host : List Char) : Prop where
  space : ∀ c ∈ text, isSpace c = false
  ne_nil : host ≠ []
  split : (∃ port, splitHostPort text = some (host, port)) ∨ splitHostPort text = none ∧ text = host

theorem Denotes.sshEndpoint {pre text post host : List Char} {sshPort : String}
    (h : Denotes text host) (hpre : ∀ c ∈ pre, isSpace c = true)
    (hpost : ∀ c ∈ post, isSpace c = true) (hport : sshPort ≠ "") :
    buildSSHEndpoint (String.ofList (pre ++ (text ++ post))) sshPort =
      String.ofList (joinHostPort host sshPort.toList) := by
  unfold buildSSHEndpoint
  rw [if_neg hport, String.toList_ofList, trimSpace_of_surrounded hpre hpost h.space]
  obtain ⟨port, hsplit⟩ | ⟨hsplit, rfl⟩ := h.split
  · simp only [hsplit, if_pos h.ne_nil, if_neg h.ne_nil]
  · simp only [hsplit, if_neg h.ne_nil]

/-! ## The advertised address -/

/-- The forms in which a provider gives its address, with the host that each of them names. -/
inductive Advertises : String → List Char → Prop
  | bare {host : List Char} (hhost : IsWord host) : Advertises (String.ofList host) host
  | hostPort {host port : List Char} (hhost : IsWord host) (hport : IsWord port) :
      Advertises (String.ofList (host ++ ':' :: port)) host
  | bracketed {host port : List Char} (hcolon : ':' ∈ host) (hopening : '[' ∉ host)
      (hclosing : ']' ∉ host) (hspace : ∀ c ∈ host, isSpace c = false) (hport : IsWord port) :
      Advertises (String.ofList ('[' :: (host ++ ']' :: ':' :: port))) host

section

variable {address : String} {host : List Char}

theorem Advertises.space (h : Advertises address host) :
    ∀ c ∈ address.toList, isSpace c = false := by
  intro c hc
  cases h with
  | bare hhost => exact hhost.space c (by simpa using hc)
  | hostPort hhost hport =>
    simp only [String.toList_ofList, List.mem_append, List.mem_cons] at hc
    obtain hc | rfl | hc := hc
    · exact hhost.space c hc
    · decide
    · exact hport.space c hc
  | bracketed _ _ _ hspace hport =>
    simp only [String.toList_ofList, List.mem_append, List.mem_cons] at hc
    obtain rfl | hc | rfl | rfl | hc := hc
    · decide
    · exact hspace c hc
    · decide
    · decide
    · exact hport.space c hc

theorem Advertises.host_ne_nil (h : Advertises address host) : host ≠ [] := by
  cases h with
  | bare hhost => exact hhost.ne_nil
  | hostPort hhost _ => exact hhost.ne_nil
  | bracketed hcolon =>
    rintro rfl
    cases hcolon

/-- The host is what is split off, or the address is the host itself. -/
theorem Advertises.split (h : Advertises address host) :
    (∃ port, splitHostPort address.toList = some (host, port)) ∨
      splitHostPort address.toList = none ∧ address.toList = host := by
  cases h with
  | bare hhost =>
    refine .inr ⟨?_, String.toList_ofList⟩
    unfold splitHostPort
    simp only [String.toList_ofList]
    exact if_pos hhost.colon
  | @hostPort _ port hhost hport =>
    exact .inl ⟨port, by rw [String.toList_ofList, splitHostPort_of_bare hhost.toBare hport.toBare]⟩
  | @bracketed _ port _ hopening hclosing _ hport =>
    exact .inl ⟨port, by
      rw [String.toList_ofList, splitHostPort_of_brackets hopening hclosing hport.toBare]⟩

theorem Advertises.sshEndpoint (h : Advertises address host) {sshPort : String}
    (hport : sshPort ≠ "") :
    buildSSHEndpoint address sshPort = String.ofList (joinHostPort host sshPort.toList) := by
  have hdenotes : Denotes address.toList host := ⟨h.space, h.host_ne_nil, h.split⟩
  have hendpoint := hdenotes.sshEndpoint (List.forall_mem_nil _) (List.forall_mem_nil _) hport
  rwa [List.append_nil, List.nil_append, String.ofList_toList] at hendpoint

theorem Advertises.sshPort_inj (h : Advertises address host) {p q : String} (hp : p ≠ "")
    (heq : buildSSHEndpoint address q = buildSSHEndpoint address p) : q = p := by
  have hq : q ≠ "" := by
    rintro rfl
    have hnil : String.ofList [] = String.ofList (joinHostPort host p.toList) :=
      heq.trans (h.sshEndpoint hp)
    rw [String.ofList_inj, joinHostPort] at hnil
    split at hnil
    · cases hnil
    · exact absurd hnil.symm (by simp)
  rw [h.sshEndpoint hp, h.sshEndpoint hq, String.ofList_inj, joinHostPort, joinHostPort] at heq
  refine String.toList_inj.mp ?_
  split at heq <;> simpa using heq

theorem Advertises.host_brackets (h : Advertises address host) : '[' ∉ host ∧ ']' ∉ host := by
  cases h with
  | bare hhost => exact ⟨hhost.opening, hhost.closing⟩
  | hostPort hhost _ => exact ⟨hhost.opening, hhost.closing⟩
  | bracketed _ hopening hclosing => exact ⟨hopening, hclosing⟩

/-- The SSH endpoint has the host and its own port. -/
theorem Advertises.split_sshEndpoint (h : Advertises address host) {sshPort : String}
    (hne : sshPort ≠ "") (hport : Bare sshPort.toList) :
    splitHostPort (buildSSHEndpoint address sshPort).toList = some (host, sshPort.toList) := by
  obtain ⟨hopening, hclosing⟩ := h.host_brackets
  rw [h.sshEndpoint hne, String.toList_ofList]
  exact splitHostPort_join hopening hclosing hport

/-- A port after the whole address is the port of the host only if no other port is there. -/
theorem Advertises.split_appended_iff (h : Advertises address host) {port : List Char}
    (hport : Bare port) :
    splitHostPort (address.toList ++ ':' :: port) = some (host, port) ↔
      address = String.ofList host := by
  cases h with
  | bare hhost =>
    rw [String.toList_ofList, splitHostPort_of_bare hhost.toBare hport]
    simp
  | @hostPort _ old hhost hold =>
    have hcolon : ':' ∈ host ++ ':' :: old := by simp
    have hopening : '[' ∉ host ++ ':' :: old := by simp [hhost.opening, hold.opening]
    rw [String.toList_ofList, splitHostPort_of_colon hcolon hopening hport.colon]
    simp
  | @bracketed _ old _ hopening _ _ hold =>
    have hlast : (host ++ ']' :: ':' :: old).getLast? ≠ some ']' := by
      rw [List.getLast?_append_of_ne_nil _ (by simp), List.getLast?_cons_cons]
      intro heq
      have hmem := List.mem_of_getLast? heq
      simp [hold.closing] at hmem
    rw [String.toList_ofList, splitHostPort_of_trailing hlast hport.colon]
    simp only [reduceCtorEq, false_iff, String.ofList_inj]
    intro heq
    exact hopening (heq ▸ .head _)

end

end PeerCompute.Agent
