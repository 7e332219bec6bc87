import PeerCompute.Agent.EndpointLaws

/-! The SSH endpoint of every form in which an address can be written. -/

namespace PeerCompute.Agent

/-- At least two colons, no bracket and no white space. -/
structure IsIPv6 (cs : List Char) : Prop where
  colons : 2 ≤ cs.count ':'
  opening : '[' ∉ cs
  closing : ']' ∉ cs
  space : ∀ c ∈ cs, isSpace c = false

theorem isIPv6_iff {cs : List Char} : IsIPv6 cs ↔
    2 ≤ cs.count ':' ∧ cs.all (fun c => c ≠ '[' && c ≠ ']' && !isSpace c) = true := by
  simp only [List.all_eq_true, Bool.and_eq_true, decide_eq_true_eq, Bool.not_eq_true']
  constructor
  · intro h
    refine ⟨h.colons, fun c hc => ⟨⟨?_, ?_⟩, h.space c hc⟩⟩
    · exact fun heq => h.opening (heq ▸ hc)
    · exact fun heq => h.closing (heq ▸ hc)
  · rintro ⟨hcolons, h⟩
    exact ⟨hcolons, fun hc => (h _ hc).1.1 rfl, fun hc => (h _ hc).1.2 rfl, fun c hc => (h c hc).2⟩

instance decidableIsIPv6 (cs : List Char) : Decidable (IsIPv6 cs) := decidable_of_iff _ isIPv6_iff.symm

/-- The forms of an address, each with its host: a name or an IPv4 address, or an IPv6 address with
or without brackets.  The port may be empty. -/
inductive Writes : List Char → List Char → Prop
  | word {host : List Char} (hhost : IsWord host) : Writes host host
  | wordPort {host port : List Char} (hhost : IsWord host) (hport : Bare port)
      (hspace : ∀ c ∈ port, isSpace c = false) : Writes (host ++ ':' :: port) host
  | ipv6 {host : List Char} (hhost : IsIPv6 host) : Writes host host
  | brackets {host : List Char} (hhost : IsIPv6 host) : Writes ('[' :: (host ++ [']'])) host
  | bracketsPort {host port : List Char} (hhost : IsIPv6 host) (hport : Bare port)
      (hspace : ∀ c ∈ port, isSpace c = false) : Writes ('[' :: (host ++ ']' :: ':' :: port)) host

/-! ## Splitting -/

section

variable {host port : List Char}

/-- The last colon. -/
theorem exists_last_colon (h : ':' ∈ host) :
    ∃ before after, host = before ++ ':' :: after ∧ ':' ∉ after := by
  obtain ⟨after, before, heq, hafter⟩ := List.eq_append_cons_of_mem (List.mem_reverse.mpr h)
  refine ⟨before.reverse, after.reverse, ?_, by simpa using hafter⟩
  rw [← List.reverse_reverse host, heq]
  simp

theorem brackets_of_splitHostPort {l : List Char} (h : splitHostPort l = some (host, port)) :
    '[' ∉ port ∧ ']' ∉ port := by
  unfold splitHostPort at h
  dsimp only at h
  split at h
  · cases h
  split at h
  · split at h
    next hok =>
      cases h
      exact ⟨hok.2.2.2.1, hok.2.2.2.2⟩
    next => cases h
  · split at h
    next hok =>
      cases h
      exact ⟨hok.2.2.2.1, hok.2.2.2.2⟩
    next => cases h

/-- A second opening bracket. -/
theorem splitHostPort_of_opening (hopening : '[' ∈ host) (hport : ':' ∉ port) :
    splitHostPort ('[' :: host ++ ':' :: port) = none := by
  unfold splitHostPort
  simp only [port_of_append hport, before_of_append]
  rw [if_neg (by simp)]
  exact if_neg (fun h => h.2.2.1 hopening)

/-- Brackets of its own are put into a second pair. -/
theorem split_join_of_opening (hopening : '[' ∈ host) (hcolon : ':' ∈ host) (hport : ':' ∉ port) :
    splitHostPort (joinHostPort host port) = none := by
  have hmem : '[' ∈ host ++ [']'] := List.mem_append_left _ hopening
  have hsplit := splitHostPort_of_opening hmem hport
  rw [joinHostPort, if_pos hcolon]
  simpa using hsplit

theorem split_join_iff (hopening : '[' ∉ host) (hclosing : ']' ∉ host) (hcolon : ':' ∉ port) :
    splitHostPort (joinHostPort host port) = some (host, port) ↔ '[' ∉ port ∧ ']' ∉ port := by
  refine ⟨brackets_of_splitHostPort, fun hport => ?_⟩
  exact splitHostPort_join hopening hclosing ⟨hcolon, hport.1, hport.2⟩

theorem IsIPv6.mem_colon (h : IsIPv6 host) : ':' ∈ host :=
  List.count_pos_iff.mp (Nat.lt_of_lt_of_le Nat.two_pos h.colons)

/-- The colons before the last one are too many. -/
theorem IsIPv6.split (h : IsIPv6 host) : splitHostPort host = none := by
  obtain ⟨before, after, rfl, hafter⟩ := exists_last_colon h.mem_colon
  have hcount := h.colons
  rw [List.count_append, List.count_cons_self, List.count_eq_zero.mpr hafter] at hcount
  have hbefore : ':' ∈ before := List.count_pos_iff.mp (by omega)
  exact splitHostPort_of_colon hbefore (fun hmem => h.opening (List.mem_append_left _ hmem)) hafter

theorem IsIPv6.split_brackets (h : IsIPv6 host) : splitHostPort ('[' :: (host ++ [']'])) = none := by
  obtain ⟨before, after, rfl, hafter⟩ := exists_last_colon h.mem_colon
  have hlast : before.getLast? ≠ some ']' := fun heq =>
    h.closing (List.mem_append_left _ (List.mem_of_getLast? heq))
  have hport : ':' ∉ after ++ [']'] := by simpa using hafter
  have hsplit := splitHostPort_of_trailing hlast hport
  simpa using hsplit

end

/-! ## The endpoint -/

section

variable {text host : List Char}

theorem Writes.space (h : Writes text host) : ∀ c ∈ text, isSpace c = false := by
  intro c hc
  cases h with
  | word hhost => exact hhost.space c hc
  | wordPort hhost _ hspace =>
    simp only [List.mem_append, List.mem_cons] at hc
    obtain hc | rfl | hc := hc
    · exact hhost.space c hc
    · decide
    · exact hspace c hc
  | ipv6 hhost => exact hhost.space c hc
  | brackets hhost =>
    simp only [List.mem_append, List.mem_cons, List.not_mem_nil, or_false] at hc
    obtain rfl | hc | rfl := hc
    · decide
    · exact hhost.space c hc
    · decide
  | bracketsPort hhost _ hspace =>
    simp only [List.mem_append, List.mem_cons] at hc
    obtain rfl | hc | rfl | rfl | hc := hc
    · decide
    · exact hhost.space c hc
    · decide
    · decide
    · exact hspace c hc

theorem Writes.host_ne_nil (h : Writes text host) : host ≠ [] := by
  cases h with
  | word hhost | wordPort hhost => exact hhost.ne_nil
  | ipv6 hhost | brackets hhost | bracketsPort hhost => exact List.ne_nil_of_mem hhost.mem_colon

theorem Writes.host_brackets (h : Writes text host) : '[' ∉ host ∧ ']' ∉ host := by
  cases h with
  | word hhost | wordPort hhost => exact ⟨hhost.opening, hhost.closing⟩
  | ipv6 hhost | brackets hhost | bracketsPort hhost => exact ⟨hhost.opening, hhost.closing⟩

/-- The host is split off, or the text is kept; between brackets without a port it is kept too. -/
theorem Writes.split (h : Writes text host) :
    text ≠ '[' :: (host ++ [']']) ∧
        ((∃ port, splitHostPort text = some (host, port)) ∨ splitHostPort text = none ∧ text = host) ∨
      text = '[' :: (host ++ [']']) ∧ splitHostPort text = none ∧ ':' ∈ host := by
  cases h with
  | word hhost =>
    refine .inl ⟨fun heq => hhost.opening (heq ▸ .head _), .inr ⟨?_, rfl⟩⟩
    unfold splitHostPort
    exact if_pos hhost.colon
  | @wordPort _ port hhost hport =>
    refine .inl ⟨fun heq => ?_, .inl ⟨port, splitHostPort_of_bare hhost.toBare hport⟩⟩
    have hmem : '[' ∈ host ++ ':' :: port := heq ▸ .head _
    simp only [List.mem_append, List.mem_cons, Char.reduceEq, false_or] at hmem
    obtain hmem | hmem := hmem
    · exact hhost.opening hmem
    · exact hport.opening hmem
  | ipv6 hhost =>
    exact .inl ⟨fun heq => hhost.opening (heq ▸ .head _), .inr ⟨hhost.split, rfl⟩⟩
  | brackets hhost => exact .inr ⟨rfl, hhost.split_brackets, hhost.mem_colon⟩
  | @bracketsPort _ port hhost hport =>
    refine .inl ⟨by simp, .inl ⟨port, ?_⟩⟩
    exact splitHostPort_of_brackets hhost.opening hhost.closing hport

theorem Writes.mem_colon (h : Writes text host) (hform : text = '[' :: (host ++ [']'])) : ':' ∈ text := by
  obtain ⟨hne, -⟩ | ⟨-, -, hcolon⟩ := h.split
  · exact absurd hform hne
  · exact hform ▸ .tail _ (List.mem_append_left _ hcolon)

/-- The host that the endpoint is built from. -/
theorem Writes.denotes (h : Writes text host) :
    Denotes text (if text = '[' :: (host ++ [']']) then text else host) := by
  obtain ⟨hform, hsplit⟩ | ⟨hform, hsplit, -⟩ := h.split
  · rw [if_neg hform]
    exact ⟨h.space, h.host_ne_nil, hsplit⟩
  · rw [if_pos hform]
    exact ⟨h.space, hform ▸ List.cons_ne_nil _ _, .inr ⟨hsplit, rfl⟩⟩

/-- The endpoint is split into the host and the SSH port, for every form of the address but one: in
brackets without a port the brackets are kept, and then doubled. -/
theorem sshEndpoint_split_iff {pre post : List Char} {sshPort : String} (h : Writes text host)
    (hpre : ∀ c ∈ pre, isSpace c = true) (hpost : ∀ c ∈ post, isSpace c = true)
    (hne : sshPort ≠ "") (hcolon : ':' ∉ sshPort.toList) :
    splitHostPort (buildSSHEndpoint (String.ofList (pre ++ (text ++ post))) sshPort).toList =
        some (host, sshPort.toList) ↔
      text ≠ '[' :: (host ++ [']']) ∧ '[' ∉ sshPort.toList ∧ ']' ∉ sshPort.toList := by
  rw [h.denotes.sshEndpoint hpre hpost hne, String.toList_ofList]
  split
  next hform =>
    refine ⟨fun hsplit => ?_, fun hform' => absurd hform hform'.1⟩
    rw [split_join_of_opening (hform ▸ .head _) (h.mem_colon hform) hcolon] at hsplit
    cases hsplit
  next hform =>
    obtain ⟨hopening, hclosing⟩ := h.host_brackets
    rw [split_join_iff hopening hclosing hcolon]
    exact (and_iff_right hform).symm

end

/-- An IPv6 address between blanks. -/
theorem sshEndpoint_split_ipv6 :
    splitHostPort (buildSSHEndpoint " 2001:db8::1\t" "2222").toList =
      some ("2001:db8::1".toList, "2222".toList) := by
  have hform : Writes "2001:db8::1".toList "2001:db8::1".toList := .ipv6 (by decide +kernel)
  exact (@sshEndpoint_split_iff _ _ [' '] ['\t'] "2222" hform (List.forall_mem_singleton.mpr rfl)
    (List.forall_mem_singleton.mpr rfl) (by decide) (by decide +kernel)).mpr
    ⟨by decide +kernel, by decide +kernel, by decide +kernel⟩

/-- The same address in brackets. -/
theorem sshEndpoint_brackets_doubled :
    Writes "[2001:db8::1]".toList "2001:db8::1".toList ∧
      buildSSHEndpoint "[2001:db8::1]" "2222" = "[[2001:db8::1]]:2222" ∧
      splitHostPort "[[2001:db8::1]]:2222".toList = none := by
  have hhost : IsIPv6 "2001:db8::1".toList := by decide +kernel
  exact ⟨.brackets hhost, by decide +kernel, by decide +kernel⟩

end PeerCompute.Agent
