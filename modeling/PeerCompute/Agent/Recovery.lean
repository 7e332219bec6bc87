import PeerCompute.Agent.Daemon
import PeerCompute.Agent.HostLaws
import PeerCompute.Interleaving.Deeds
import Mathlib.Data.List.Sort

/-! The WireGuard interfaces that a daemon leaves behind when it crashes, and its next start. -/

namespace PeerCompute.Agent

open PeerCompute.Data PeerCompute.Interleaving Prog

/-! ## The config files of earlier runs -/

def configDir : List Char := "/tmp/peer-compute/wg/pc-".toList

def configExt : List Char := ".conf".toList

/-- Whether `filepath.Glob` finds the path for the pattern `pc-*.conf`, whose star stands for anything
but a separator. -/
def globbed (path : String) : Bool :=
  configDir.isPrefixOf path.toList && configExt.isSuffixOf path.toList &&
    decide (configDir.length + configExt.length ≤ path.toList.length) &&
    decide ('/' ∉ path.toList.drop configDir.length)

theorem globbed_iff {path : String} :
    globbed path = true ↔ ∃ name, '/' ∉ name ∧ path.toList = configDir ++ (name ++ configExt) := by
  have hext : '/' ∉ configExt := by decide
  simp only [globbed, Bool.and_eq_true, List.isPrefixOf_iff_prefix, List.isSuffixOf_iff_suffix,
    decide_eq_true_eq]
  constructor
  · rintro ⟨⟨⟨⟨rest, hrest⟩, hsuffix⟩, hlength⟩, hslash⟩
    rw [← hrest, List.drop_left] at hslash
    rw [← hrest, List.length_append] at hlength
    have hrestSuffix : configExt <:+ rest :=
      List.suffix_of_suffix_length_le (hrest ▸ hsuffix) (List.suffix_append _ _) (by omega)
    obtain ⟨name, rfl⟩ := hrestSuffix
    exact ⟨name, fun h => hslash (List.mem_append_left _ h), hrest.symm⟩
  · rintro ⟨name, hslash, hpath⟩
    rw [hpath, List.drop_left]
    refine ⟨⟨⟨List.prefix_append _ _, ?_⟩, ?_⟩, ?_⟩
    · exact (List.suffix_append _ _).trans (List.suffix_append _ _)
    · simp only [List.length_append]
      omega
    · exact fun h => (List.mem_append.mp h).elim hslash hext

theorem base_of_name {path : String} {name : List Char} (hslash : '/' ∉ name)
    (hpath : path.toList = configDir ++ (name ++ configExt)) :
    ((path.toList.splitOn '/').getLast?).getD [] = "pc-".toList ++ (name ++ configExt) := by
  have hdir : path.toList = [] ++ '/' :: ("tmp".toList ++ '/' :: ("peer-compute".toList ++ '/' ::
      ("wg".toList ++ '/' :: ("pc-".toList ++ (name ++ configExt))))) := hpath
  have hbase : '/' ∉ "pc-".toList ++ (name ++ configExt) := by
    refine fun h => (List.mem_append.mp h).elim (by decide) (fun h => ?_)
    exact (List.mem_append.mp h).elim hslash (by decide)
  rw [hdir, List.splitOn_append_cons_self_of_not_mem (by decide),
    List.splitOn_append_cons_self_of_not_mem (by decide),
    List.splitOn_append_cons_self_of_not_mem (by decide),
    List.splitOn_append_cons_self_of_not_mem (by decide), List.splitOn_eq_singleton hbase]
  rfl

theorem ifaceFromPath_of_name {path : String} {name : List Char} (hslash : '/' ∉ name)
    (hpath : path.toList = configDir ++ (name ++ configExt)) :
    ifaceFromPath path = String.ofList ("pc-".toList ++ name) := by
  have hsuffix : configExt.isSuffixOf ("pc-".toList ++ (name ++ configExt)) = true :=
    List.isSuffixOf_iff_suffix.mpr ((List.suffix_append _ _).trans (List.suffix_append _ _))
  refine congrArg String.ofList ?_
  rw [base_of_name hslash hpath]
  refine (if_pos hsuffix).trans ?_
  have hlength : ("pc-".toList ++ name ++ configExt).length - configExt.length =
      ("pc-".toList ++ name).length := by
    rw [List.length_append, Nat.add_sub_cancel]
  rw [← List.append_assoc]
  exact List.take_left' hlength.symm

/-- An interface has one config file. -/
theorem ifaceFromPath_inj {path path' : String} (h : globbed path = true) (h' : globbed path' = true)
    (heq : ifaceFromPath path = ifaceFromPath path') : path = path' := by
  obtain ⟨name, hslash, hpath⟩ := globbed_iff.mp h
  obtain ⟨name', hslash', hpath'⟩ := globbed_iff.mp h'
  rw [ifaceFromPath_of_name hslash hpath, ifaceFromPath_of_name hslash' hpath'] at heq
  obtain rfl := List.append_cancel_left (String.ofList_injective heq)
  exact String.toList_inj.mp (hpath.trans hpath'.symm)

/-- What the glob answers with: the names in a directory are sorted. -/
def staleConfigs (s : Host) : List String :=
  (s.configs.keys.filter globbed).insertionSort (· ≤ ·)

def cleanupStaleInterfaces : List String → Prog signature Unit
  | [] => return ()
  | confPath :: entries => do
    let _ ← Call.wgDown confPath
    let _ ← Call.removeConfig none confPath
    cleanupStaleInterfaces entries

/-! ## Crashes -/

/-- What a process leaves behind: files, interfaces, containers and networks. -/
def Host.crashed (s : Host) : Host :=
  { containers := s.containers, networks := s.networks, configs := s.configs
    interfaces := s.interfaces, pending := s.pending, clock := s.clock }

/-- A turn of the daemon, or the end of its process and the start of the next one. -/
inductive Moment
  | turn (t : Turn)
  | crash

def Moment.crashes : Moment → Bool
  | .turn _ => false
  | .crash => true

namespace Life

/-- `Run` starts its loops when `CleanupStaleInterfaces` has returned. -/
def booted (P : Daemon) : Bool :=
  match P.threads with
  | .ret _ :: _ => true
  | _ => false

def next (E : Env) (cfg : Config) : Step Daemon Moment := fun P m =>
  match m with
  | .crash => some ⟨P.state.crashed, [cleanupStaleInterfaces (staleConfigs P.state)]⟩
  | .turn (.step i) => Daemon.next E cfg P (.step i)
  | .turn (.created sess) => Daemon.next E cfg P (.created sess)
  | .turn t => if booted P then Daemon.next E cfg P t else none

/-- The first start, on a machine with nothing of an earlier run. -/
def new : Daemon := ⟨{}, [cleanupStaleInterfaces []]⟩

/-- What is done, and in which state. -/
def record (P : Daemon) : Moment → List (Host × Action)
  | .turn (.step i) => match P.threads[i]? with
    | some (.act a _) => [(P.state, a)]
    | _ => []
  | _ => []

def records (E : Env) (cfg : Config) (ms : List Moment) (P : Daemon) : List (Host × Action) :=
  Step.output (next E cfg) record ms P

end Life

deriving instance DecidableEq for Write

/-- A file is created in the directory that is there, so not if there is a separator in the ID of the
session. -/
def InDirectory (E : Env) (a : Action) (s : Host) (_ : a.Res) : Prop :=
  (match a with
    | .writeConfig _ path _ => decide (E.write s.clock = .refused) || globbed path
    | _ => true) = true

instance (E : Env) (a : Action) (s : Host) (res : a.Res) : Decidable (InDirectory E a s res) :=
  inferInstanceAs (Decidable (_ = true))

def Life.Abides (E : Env) (P : Daemon) : Moment → Prop
  | .turn t => Obeying E (InDirectory E) P t
  | .crash => True

instance (E : Env) (P : Daemon) : (m : Moment) → Decidable (Life.Abides E P m)
  | .turn t => inferInstanceAs (Decidable (Obeying E (InDirectory E) P t))
  | .crash => .isTrue trivial

/-- The file is removed while the interface is up. -/
def Strands (E : Env) (path : String) (x : Host × Action) : Prop :=
  ∃ cleanup, x.2 = .removeConfig cleanup path ∧ ifaceFromPath path ∈ x.1.interfaces ∧
    E.fails (.removeConfig cleanup path) x.1.clock = false

def Creates (E : Env) (path : String) (x : Host × Action) : Prop :=
  ∃ n config, x.2 = .writeConfig n path config ∧ E.write x.1.clock ≠ .refused

section

variable {E : Env} {s s' : Host} {a : Action} {res : a.Res}

/-- What an action does to the files and to the interfaces. -/
inductive Wiring (E : Env) (s s' : Host) : Action → Prop
  | write {n : Nat} {path : String} {config : WGConfig} (hw : E.write s.clock ≠ .refused)
      (hc : s'.configs = s.configs.insert path ⟨config, n⟩) (hi : s'.interfaces = s.interfaces) :
      Wiring E s s' (.writeConfig n path config)
  | remove {cleanup : Option Nat} {path : String}
      (hr : E.fails (.removeConfig cleanup path) s.clock = false)
      (hc : ∀ q, s'.configs.lookup q = if q = path then Option.none else s.configs.lookup q)
      (hi : s'.interfaces = s.interfaces) : Wiring E s s' (.removeConfig cleanup path)
  | up {path : String} (h : (s.configs.lookup path).isSome = true) (hc : s'.configs = s.configs)
      (hi : s'.interfaces = ifaceFromPath path :: s.interfaces) : Wiring E s s' (.wgUp path)
  | down {path : String} (h : (s.configs.lookup path).isSome = true) (hc : s'.configs = s.configs)
      (hi : s'.interfaces = s.interfaces.filter (· ≠ ifaceFromPath path)) :
      Wiring E s s' (.wgDown path)
  | none {a : Action} (hr : ∀ path, ¬Strands E path (s, a)) (hw : ∀ path, ¬Creates E path (s, a))
      (hc : s'.configs = s.configs) (hi : s'.interfaces = s.interfaces) : Wiring E s s' a

/-- The actions that concern the files or the interfaces. -/
def Tunnelling : Action → Prop
  | .writeConfig _ _ _ | .removeConfig _ _ | .wgUp _ | .wgDown _ => True
  | _ => False

theorem Touch.apart (h : Touch E s a s') (ha : ¬Tunnelling a) :
    s'.configs = s.configs ∧ s'.interfaces = s.interfaces := by
  cases h with
  | writeConfig | endCleanup | removeConfig | wgUp | wgDown => exact absurd trivial ha
  | _ => exact ⟨rfl, rfl⟩

theorem not_strands {path : String} (h : ∀ cleanup, a ≠ .removeConfig cleanup path) :
    ¬Strands E path (s, a) := by
  rintro ⟨cleanup, heq, -⟩
  exact h cleanup heq

theorem not_creates {path : String} (h : ∀ n config, a ≠ .writeConfig n path config) :
    ¬Creates E path (s, a) := by
  rintro ⟨n, config, heq, -⟩
  exact h n config heq

/-- An action that leaves the files and the interfaces alone, and is none of the other kind. -/
theorem Wiring.idle (hr : ∀ cleanup path, a ≠ .removeConfig cleanup path)
    (hw : ∀ n path config, a ≠ .writeConfig n path config) (hc : s'.configs = s.configs)
    (hi : s'.interfaces = s.interfaces) : Wiring E s s' a :=
  .none (fun path => not_strands (fun cleanup => hr cleanup path))
    (fun path => not_creates (fun n => hw n path)) hc hi

theorem wiring_writeConfig (n : Nat) (path : String) (config : WGConfig) :
    Wiring E s (s.writeConfig E n path config).2.tick (.writeConfig n path config) := by
  unfold Host.writeConfig
  cases hw : E.write s.clock with
  | refused =>
    refine .none (fun path => not_strands nofun) ?_ rfl rfl
    rintro path ⟨n, config, -, hne⟩
    exact hne hw
  | written => exact .write (by rw [hw]; nofun) rfl rfl
  | torn => exact .write (by rw [hw]; nofun) rfl rfl

theorem wiring_removeConfig (cleanup : Option Nat) (path : String) :
    Wiring E s (s.removeConfig E cleanup path).2.tick (.removeConfig cleanup path) := by
  cases hfails : E.fails (.removeConfig cleanup path) s.clock with
  | true =>
    have hsame : (s.removeConfig E cleanup path).2 = s.endCleanup cleanup := by
      unfold Host.removeConfig
      rw [hfails]
      split <;> rfl
    rw [hsame]
    refine .none ?_ (fun path => not_creates nofun) rfl rfl
    rintro q ⟨cleanup', heq, -, hok⟩
    cases heq
    rw [hfails] at hok
    cases hok
  | false =>
    unfold Host.removeConfig
    split
    next hnone =>
      refine .remove hfails (fun q => ?_) rfl
      split
      next heq => exact heq ▸ Option.isNone_iff_eq_none.mp hnone
      next => rfl
    · rw [hfails]
      exact .remove hfails (fun q => Map.lookup_erase _ _ _) rfl

theorem wiring_wgUp (path : String) :
    Wiring E s (s.attempted E (.wgUp path) (s.wgUp path)).2.tick (.wgUp path) := by
  unfold Host.attempted
  split
  · exact .idle nofun nofun rfl rfl
  unfold Host.wgUp
  split
  · exact .idle nofun nofun rfl rfl
  next hup =>
    refine .up ?_ rfl rfl
    cases hfile : s.configs.lookup path with
    | none => exact absurd (.inl (Option.isNone_iff_eq_none.mpr hfile)) hup
    | some file => rfl

theorem wiring_wgDown (path : String) :
    Wiring E s (s.attempted E (.wgDown path) (s.wgDown path)).2.tick (.wgDown path) := by
  unfold Host.attempted
  split
  · exact .idle nofun nofun rfl rfl
  unfold Host.wgDown
  split
  · exact .idle nofun nofun rfl rfl
  split
  · exact .idle nofun nofun rfl rfl
  next hfile => exact .down (Option.isSome_iff_ne_none.mpr (by simpa using hfile)) rfl rfl

theorem exec_wiring (h : exec E a s = some (res, s')) : Wiring E s s' a := by
  obtain ⟨-, rfl⟩ := exec_eq h
  have hother : ¬Tunnelling a → Wiring E s (s.act E a).2.tick a := by
    intro ha
    obtain ⟨hc, hi⟩ := (touch_act E s a).apart ha
    exact .idle (fun _ _ heq => ha (heq ▸ trivial)) (fun _ _ _ heq => ha (heq ▸ trivial)) hc hi
  cases a with
  | writeConfig n path config => exact wiring_writeConfig n path config
  | removeConfig cleanup path => exact wiring_removeConfig cleanup path
  | wgUp path => exact wiring_wgUp path
  | wgDown path => exact wiring_wgDown path
  | _ => exact hother (fun ha => ha)

/-- Files are where the glob finds them, an interface has come from a file, and it is up without its
file if and only if the file was removed under it and has not been written again. -/
structure Filed (E : Env) (c : List (Host × Action)) (s : Host) : Prop where
  files : ∀ path, (s.configs.lookup path).isSome = true → globbed path = true
  interfaces : ∀ iface ∈ s.interfaces, ∃ path, globbed path = true ∧ ifaceFromPath path = iface
  stranded : ∀ path, globbed path = true →
    (ifaceFromPath path ∈ s.interfaces ∧ s.configs.lookup path = none ↔
      Since (Strands E path) (Creates E path) c)

theorem Filed.congr {c : List (Host × Action)} (h : Filed E c s) (hc : s'.configs = s.configs)
    (hi : s'.interfaces = s.interfaces) : Filed E c s' := by
  refine ⟨?_, ?_, ?_⟩
  · rw [hc]
    exact h.files
  · rw [hi]
    exact h.interfaces
  · rw [hc, hi]
    exact h.stranded

/-- What was up without its file is so after an action that neither removes a file under an interface
nor writes one. -/
theorem Filed.same {c : List (Host × Action)} (h : Filed E c s) {path : String}
    (hpath : globbed path = true) (hr : ¬Strands E path (s, a)) (hw : ¬Creates E path (s, a))
    (hsame : ifaceFromPath path ∈ s'.interfaces ∧ s'.configs.lookup path = none ↔
      ifaceFromPath path ∈ s.interfaces ∧ s.configs.lookup path = none) :
    ifaceFromPath path ∈ s'.interfaces ∧ s'.configs.lookup path = none ↔
      Since (Strands E path) (Creates E path) (c ++ [(s, a)]) := by
  rw [since_concat, hsame, h.stranded path hpath]
  simp only [hr, hw, false_or, not_false_eq_true, and_true]

theorem Filed.write {c : List (Host × Action)} (h : Filed E c s) {n : Nat} {file : String}
    {config : WGConfig} (hfile : globbed file = true) (hwrite : E.write s.clock ≠ .refused)
    (hc : s'.configs = s.configs.insert file ⟨config, n⟩) (hi : s'.interfaces = s.interfaces) :
    Filed E (c ++ [(s, .writeConfig n file config)]) s' := by
  have hlookup : ∀ path, s'.configs.lookup path =
      if path = file then some ⟨config, n⟩ else s.configs.lookup path := by
    intro path
    rw [hc, Map.lookup_insert]
  refine ⟨fun path hpath => ?_, by rw [hi]; exact h.interfaces, fun path hpath => ?_⟩
  · rw [hlookup] at hpath
    split at hpath
    next heq => exact heq ▸ hfile
    next => exact h.files path hpath
  by_cases heq : path = file
  · -- the file is there again
    rw [hlookup, if_pos heq, since_concat]
    refine iff_of_false (fun h => by cases h.2) ?_
    rintro (hstrands | ⟨-, hcreates⟩)
    · exact absurd hstrands (not_strands nofun)
    · exact hcreates ⟨n, config, by rw [heq], hwrite⟩
  · refine h.same hpath (not_strands nofun) (not_creates (fun _ _ hcreates => ?_))
      (by rw [hi, hlookup, if_neg heq])
    cases hcreates
    exact heq rfl

theorem Filed.remove {c : List (Host × Action)} (h : Filed E c s) {cleanup : Option Nat}
    {file : String} (hok : E.fails (.removeConfig cleanup file) s.clock = false)
    (hlookup : ∀ path, s'.configs.lookup path =
      if path = file then none else s.configs.lookup path) (hi : s'.interfaces = s.interfaces) :
    Filed E (c ++ [(s, .removeConfig cleanup file)]) s' := by
  refine ⟨fun path hpath => ?_, by rw [hi]; exact h.interfaces, fun path hpath => ?_⟩
  · rw [hlookup] at hpath
    split at hpath
    next => cases hpath
    next => exact h.files path hpath
  by_cases heq : path = file
  · subst heq
    rw [hlookup, if_pos rfl, hi, since_concat]
    constructor
    · rintro ⟨hup, -⟩
      exact .inl ⟨cleanup, rfl, hup, hok⟩
    · rintro (⟨-, -, hup, -⟩ | ⟨hsince, -⟩)
      · exact ⟨hup, rfl⟩
      · exact ⟨((h.stranded path hpath).mpr hsince).1, rfl⟩
  · refine h.same hpath (not_strands (fun _ hstrands => ?_)) (not_creates nofun)
      (by rw [hi, hlookup, if_neg heq])
    cases hstrands
    exact heq rfl

/-- The interface of a file that is there is not up without it. -/
theorem Filed.ne {c : List (Host × Action)} (h : Filed E c s) {file path : String}
    (hfile : (s.configs.lookup file).isSome = true) (hpath : globbed path = true)
    (hnone : s.configs.lookup path = none) : ifaceFromPath path ≠ ifaceFromPath file := by
  intro heq
  rw [← ifaceFromPath_inj hpath (h.files file hfile) heq, hnone] at hfile
  cases hfile

theorem Filed.exec {c : List (Host × Action)} (h : Filed E c s) (hdir : InDirectory E a s res)
    (hx : exec E a s = some (res, s')) : Filed E (c ++ [(s, a)]) s' := by
  cases exec_wiring hx with
  | write hwrite hc hi =>
    exact h.write ((Bool.or_eq_true_iff.mp hdir).resolve_left (by simpa using hwrite)) hwrite hc hi
  | remove hok hc hi => exact h.remove hok hc hi
  | @up file hfile hc hi =>
    refine ⟨by rw [hc]; exact h.files, fun iface hiface => ?_, fun path hpath => ?_⟩
    · rw [hi] at hiface
      obtain rfl | hiface := List.mem_cons.mp hiface
      · exact ⟨file, h.files file hfile, rfl⟩
      · exact h.interfaces iface hiface
    · refine h.same hpath (not_strands nofun) (not_creates nofun) ?_
      rw [hi, hc, List.mem_cons]
      exact ⟨fun hup => ⟨hup.1.resolve_left (h.ne hfile hpath hup.2), hup.2⟩,
        fun hup => ⟨.inr hup.1, hup.2⟩⟩
  | @down file hfile hc hi =>
    refine ⟨by rw [hc]; exact h.files, fun iface hiface => ?_, fun path hpath => ?_⟩
    · rw [hi] at hiface
      exact h.interfaces iface (List.mem_filter.mp hiface).1
    · refine h.same hpath (not_strands nofun) (not_creates nofun) ?_
      rw [hi, hc, List.mem_filter]
      exact ⟨fun hup => ⟨hup.1.1, hup.2⟩,
        fun hup => ⟨⟨hup.1, decide_eq_true (h.ne hfile hpath hup.2)⟩, hup.2⟩⟩
  | none hr hw hc hi =>
    refine ⟨by rw [hc]; exact h.files, by rw [hi]; exact h.interfaces, fun path hpath => ?_⟩
    exact h.same hpath (hr path) (hw path) (by rw [hc, hi])

end

/-! ## The start of the next process -/

section

variable {E : Env} {s₀ s s' : Host} {c : List (Host × Action)}

/-- wg-quick does not take down an interface that is up. -/
def Refuses (E : Env) (path : String) (x : Host × Action) : Prop :=
  x.2 = .wgDown path ∧ ifaceFromPath path ∈ x.1.interfaces ∧ E.fails (.wgDown path) x.1.clock = true

/-- How far `CleanupStaleInterfaces` has come with what the last process has left, `s₀`: the files of
`todo` are still to be gone through, and of the others with a file those interfaces are up that
wg-quick has refused to take down. -/
structure Recovers (E : Env) (s₀ : Host) (c : List (Host × Action)) (todo : List String)
    (s : Host) : Prop where
  nodup : todo.Nodup
  globbed : ∀ path ∈ todo, globbed path = true
  files : ∀ path ∈ todo, (s.configs.lookup path).isSome = true
  left : ∀ path ∈ todo, (s₀.configs.lookup path).isSome = true
  untried : ∀ path ∈ todo, ∀ x ∈ c, x.2 ≠ .wgDown path
  up : ∀ path, Agent.globbed path = true →
    (ifaceFromPath path ∈ s.interfaces ↔ ifaceFromPath path ∈ s₀.interfaces ∧
      (s₀.configs.lookup path = none ∨ path ∈ todo ∨ ∃ x ∈ c, Refuses E path x))
  fewer : ∀ iface ∈ s.interfaces, iface ∈ s₀.interfaces
  seen : ∀ x ∈ c, ∀ iface ∈ x.1.interfaces, iface ∈ s₀.interfaces

theorem Recovers.congr {todo : List String} (h : Recovers E s₀ c todo s)
    (hc : s'.configs = s.configs) (hi : s'.interfaces = s.interfaces) : Recovers E s₀ c todo s' :=
  ⟨h.nodup, h.globbed, by rw [hc]; exact h.files, h.left, h.untried, by rw [hi]; exact h.up,
    by rw [hi]; exact h.fewer, h.seen⟩

/-- wg-quick refuses, or the interface of a file that is there is down. -/
theorem exec_wgDown_file {path : String} {r : Except CallError Unit}
    (hfile : (s.configs.lookup path).isSome = true) (hx : exec E (.wgDown path) s = some (r, s')) :
    s'.configs = s.configs ∧
      (E.fails (.wgDown path) s.clock = true ∧ s'.interfaces = s.interfaces ∨
        E.fails (.wgDown path) s.clock = false ∧
          ∀ iface, iface ∈ s'.interfaces ↔ iface ∈ s.interfaces ∧ iface ≠ ifaceFromPath path) := by
  obtain ⟨-, rfl⟩ := exec_eq hx
  simp only [Host.act, Host.attempted]
  split
  next hfails => exact ⟨rfl, .inl ⟨hfails, rfl⟩⟩
  next hfails =>
    have hok := Bool.eq_false_of_not_eq_true hfails
    unfold Host.wgDown
    split
    next hdown =>
      refine ⟨rfl, .inr ⟨hok, fun iface => ⟨fun hmem => ⟨hmem, ?_⟩, fun h => h.1⟩⟩⟩
      rintro rfl
      exact hdown hmem
    next =>
      rw [if_neg (by rw [Option.isNone_eq_false_iff.mpr hfile]; decide)]
      refine ⟨rfl, .inr ⟨hok, fun iface => ?_⟩⟩
      exact List.mem_filter.trans (and_congr_right (fun _ => decide_eq_true_iff))

theorem Recovers.down {path : String} {todo : List String} {r : Except CallError Unit}
    (h : Recovers E s₀ c (path :: todo) s) (hx : exec E (.wgDown path) s = some (r, s')) :
    Recovers E s₀ (c ++ [(s, .wgDown path)]) todo s' := by
  obtain ⟨hnotMem, hnodup⟩ := List.nodup_cons.mp h.nodup
  have hpath := h.globbed path (.head _)
  obtain ⟨hc, hcases⟩ := exec_wgDown_file (h.files path (.head _)) hx
  have hsub : ∀ iface ∈ s'.interfaces, iface ∈ s.interfaces := by
    obtain ⟨-, hi⟩ | ⟨-, hi⟩ := hcases
    · rw [hi]
      exact fun _ h => h
    · exact fun iface hmem => ((hi iface).mp hmem).1
  have hother : ∀ {q : String}, q ≠ path → ((∃ x ∈ c ++ [(s, .wgDown path)], Refuses E q x) ↔
      ∃ x ∈ c, Refuses E q x) := by
    intro q hq
    simp only [List.mem_append, List.mem_singleton]
    refine ⟨?_, fun ⟨x, hx, hr⟩ => ⟨x, .inl hx, hr⟩⟩
    rintro ⟨x, hx | rfl, hr⟩
    · exact ⟨x, hx, hr⟩
    · cases hr.1
      exact absurd rfl hq
  refine ⟨hnodup, fun q hq => h.globbed q (.tail _ hq), fun q hq => ?_,
    fun q hq => h.left q (.tail _ hq), fun q hq x hx => ?_, fun q hq => ?_,
    fun iface hmem => h.fewer iface (hsub iface hmem), fun x hx => ?_⟩
  · rw [hc]
    exact h.files q (.tail _ hq)
  · obtain hx | hx := List.mem_append.mp hx
    · exact h.untried q (.tail _ hq) x hx
    · rw [List.mem_singleton.mp hx]
      rintro heq
      cases heq
      exact hnotMem hq
  · have hup := h.up q hq
    by_cases heq : q = path
    · subst heq
      obtain ⟨hfails, hi⟩ | ⟨hok, hi⟩ := hcases
      · -- it is as it was, and has been refused now
        rw [hi]
        constructor
        · exact fun hmem => ⟨(hup.mp hmem).1, .inr (.inr ⟨_, List.mem_append_right _ (.head _),
            rfl, hmem, hfails⟩)⟩
        · exact fun h => hup.mpr ⟨h.1, .inr (.inl (.head _))⟩
      · rw [hi]
        refine iff_of_false (fun h => h.2 rfl) ?_
        rintro ⟨-, hnone | htodo | ⟨x, hx, hr⟩⟩
        · have hleft := h.left q (.head _)
          rw [hnone] at hleft
          cases hleft
        · exact hnotMem htodo
        · obtain hx | hx := List.mem_append.mp hx
          · exact h.untried q (.head _) x hx hr.1
          · rw [List.mem_singleton.mp hx] at hr
            exact absurd hr.2.2 (by rw [hok]; decide)
    · have hiface : ifaceFromPath q ≠ ifaceFromPath path :=
        fun hsame => heq (ifaceFromPath_inj hq hpath hsame)
      have hsame : ifaceFromPath q ∈ s'.interfaces ↔ ifaceFromPath q ∈ s.interfaces := by
        obtain ⟨-, hi⟩ | ⟨-, hi⟩ := hcases
        · rw [hi]
        · exact (hi _).trans (and_iff_left hiface)
      rw [hsame, hup, hother heq, List.mem_cons, or_iff_right heq]
  · obtain hx | hx := List.mem_append.mp hx
    · exact h.seen x hx
    · rw [List.mem_singleton.mp hx]
      exact h.fewer

theorem Recovers.remove {path : String} {todo : List String} {r : Except CallError Unit}
    (h : Recovers E s₀ c todo s) (hpath : path ∉ todo)
    (hx : exec E (.removeConfig none path) s = some (r, s')) :
    Recovers E s₀ (c ++ [(s, .removeConfig none path)]) todo s' := by
  have hwiring : s'.interfaces = s.interfaces ∧
      ∀ q, q ≠ path → s'.configs.lookup q = s.configs.lookup q := by
    cases exec_wiring hx with
    | remove hok hc hi => exact ⟨hi, fun q hq => (hc q).trans (if_neg hq)⟩
    | none hr hw hc hi => exact ⟨hi, fun q _ => by rw [hc]⟩
  obtain ⟨hi, hc⟩ := hwiring
  have hrefused : ∀ {q : String}, (∃ x ∈ c ++ [(s, .removeConfig none path)], Refuses E q x) ↔
      ∃ x ∈ c, Refuses E q x := by
    intro q
    simp only [List.mem_append, List.mem_singleton]
    refine ⟨?_, fun ⟨x, hx, hr⟩ => ⟨x, .inl hx, hr⟩⟩
    rintro ⟨x, hx | rfl, hr⟩
    · exact ⟨x, hx, hr⟩
    · cases hr.1
  refine ⟨h.nodup, h.globbed, fun q hq => ?_, h.left, fun q hq x hx => ?_, fun q hq => ?_,
    by rw [hi]; exact h.fewer, fun x hx => ?_⟩
  · rw [hc q (fun heq => hpath (heq ▸ hq))]
    exact h.files q hq
  · obtain hx | hx := List.mem_append.mp hx
    · exact h.untried q hq x hx
    · rw [List.mem_singleton.mp hx]
      nofun
  · rw [hi, hrefused]
    exact h.up q hq
  · obtain hx | hx := List.mem_append.mp hx
    · exact h.seen x hx
    · rw [List.mem_singleton.mp hx]
      exact h.fewer

/-- What is left of `CleanupStaleInterfaces`. -/
inductive Clears (E : Env) (s₀ : Host) (c : List (Host × Action)) (s : Host) :
    Prog signature Unit → Prop
  | entries {todo : List String} (h : Recovers E s₀ c todo s) :
      Clears E s₀ c s (cleanupStaleInterfaces todo)
  | removing {path : String} {todo : List String} (hpath : path ∉ todo)
      (h : Recovers E s₀ c todo s) : Clears E s₀ c s (do
        let _ ← Call.removeConfig none path
        cleanupStaleInterfaces todo)

theorem Clears.step {a : Action} {k : a.Res → Prog signature Unit} {r : a.Res}
    (h : Clears E s₀ c s (.act a k)) (hx : exec E a s = some (r, s')) :
    Clears E s₀ (c ++ [(s, a)]) s' (k r) := by
  generalize hp : Prog.act (S := signature) a k = p at h
  cases h with
  | @entries todo h =>
    cases todo with
    | nil => cases hp
    | cons path todo =>
      cases hp
      exact .removing (List.nodup_cons.mp h.nodup).1 (h.down hx)
  | removing hpath h =>
    cases hp
    exact .entries (h.remove hpath hx)

theorem Clears.congr {p : Prog signature Unit} (h : Clears E s₀ c s p)
    (hc : s'.configs = s.configs) (hi : s'.interfaces = s.interfaces) : Clears E s₀ c s' p := by
  cases h with
  | entries h => exact .entries (h.congr hc hi)
  | removing hpath h => exact .removing hpath (h.congr hc hi)

theorem Clears.done (h : Clears E s₀ c s (.ret ())) : Recovers E s₀ c [] s := by
  generalize hp : Prog.ret (S := signature) () = p at h
  cases h with
  | @entries todo h =>
    cases todo with
    | nil => exact h
    | cons path todo => cases hp
  | removing hpath h => cases hp

end

/-! ## Whole lives -/

section

variable {E : Env} {cfg : Config} {P P' : Daemon} {c : List (Host × Action)} {m : Moment}

theorem Life.booted_length (h : booted P = true) (p : Prog signature Unit) :
    2 ≤ (P.threads ++ [p]).length := by
  unfold booted at h
  split at h
  next hthreads =>
    rw [hthreads, List.length_append, List.length_cons]
    simp
  next => cases h

theorem Life.next_eq_some (h : next E cfg P m = some P') :
    (∃ i a k r s', m = .turn (.step i) ∧ P.threads[i]? = some (.act a k) ∧
      exec E a P.state = some (r, s') ∧ record P m = [(P.state, a)] ∧
      P' = ⟨s', P.threads.set i (k r)⟩) ∨
    record P m = [] ∧ P'.state.configs = P.state.configs ∧ P'.state.interfaces = P.state.interfaces ∧
      (m = .crash ∨ P'.threads = P.threads ∨ 2 ≤ P'.threads.length) := by
  cases m with
  | crash =>
    cases h
    exact .inr ⟨rfl, rfl, rfl, .inl rfl⟩
  | turn t =>
    cases t with
    | step i =>
      obtain ⟨a, k, r, s, hi, hact, rfl⟩ := Pool.next_step h
      refine .inl ⟨i, a, k, r, s, rfl, hi, hact, ?_, rfl⟩
      simp only [record, hi]
      rfl
    | created sess =>
      cases h
      exact .inr ⟨rfl, rfl, rfl, .inr (.inl rfl)⟩
    | poll | heartbeat | shutdown =>
      obtain ⟨hbooted, h⟩ := Option.ite_none_right_eq_some.mp h
      cases h
      exact .inr ⟨rfl, rfl, rfl, .inr (.inr (booted_length hbooted _))⟩
    | begin k =>
      obtain ⟨hbooted, h⟩ := Option.ite_none_right_eq_some.mp h
      simp only [Daemon.next] at h
      split at h
      · cases h
      · cases h
        exact .inr ⟨rfl, rfl, rfl, .inr (.inr (booted_length hbooted _))⟩

theorem Filed.next (h : Filed E c P.state) (hdir : Life.Abides E P m)
    (hnext : Life.next E cfg P m = some P') : Filed E (c ++ Life.record P m) P'.state := by
  obtain ⟨i, a, k, r, s', rfl, hi, hact, hrecord, rfl⟩ | ⟨hrecord, hc, hinterfaces, -⟩ :=
    Life.next_eq_some hnext
  · rw [hrecord]
    exact h.exec (hdir i rfl a k hi r s' hact) hact
  · rw [hrecord, List.append_nil]
    exact h.congr hc hinterfaces

/-- Nothing else runs before the cleanup is over. -/
def Booting (E : Env) (s₀ : Host) (c : List (Host × Action)) (P : Daemon) : Prop :=
  ∀ p, P.threads = [p] → Clears E s₀ c P.state p

theorem Booting.next {s₀ : Host} (h : Booting E s₀ c P) (hm : m.crashes = false)
    (hnext : Life.next E cfg P m = some P') : Booting E s₀ (c ++ Life.record P m) P' := by
  obtain ⟨i, a, k, r, s', rfl, hi, hact, hrecord, rfl⟩ | ⟨hrecord, hc, hinterfaces, hthreads⟩ :=
    Life.next_eq_some hnext
  · rw [hrecord]
    intro p hp
    -- with one thread it is the cleanup that takes the step
    obtain ⟨q, hq⟩ := List.length_eq_one_iff.mp (by simpa using congrArg List.length hp)
    have hp : P.threads.set i (k r) = [p] := hp
    rw [hq] at hi hp
    obtain rfl : i = 0 := by
      have hlt := (List.getElem?_eq_some_iff.mp hi).1
      simpa using hlt
    cases hi
    cases hp
    exact (h _ hq).step hact
  · rw [hrecord, List.append_nil]
    intro p hp
    obtain rfl | hsame | hmany := hthreads
    · cases hm
    · exact (h p (hsame ▸ hp)).congr hc hinterfaces
    · rw [hp] at hmany
      simp at hmany

end

end PeerCompute.Agent
