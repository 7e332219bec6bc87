import PeerCompute.Agent.Host

/-! `ContainerRunner`. -/

namespace PeerCompute.Agent

open PeerCompute.Interleaving PeerCompute.Computev1 Prog

/-- `sessionID[:12]`. -/
def short (sessionID : String) : String := String.ofList (sessionID.toList.take 12)

def networkName (sessionID : String) : String := "pcp-" ++ short sessionID

def containerName (sessionID : String) : String := "pc-" ++ short sessionID

structure StartContainerOpts where
  sessionID : String
  resources : Resources
  imageName : String
  gpuCount : Int

structure Started where
  containerID : String
  networkID : String
  sshPort : String

def createSessionNetwork (n : Nat) (sessionID : String) :
    Prog signature (Except CallError String) := do
  -- a stale network of an earlier attempt; errors are ignored
  let _ ← Call.networkRemove (networkName sessionID)
  Call.networkCreate n (networkName sessionID)

def removeSessionNetwork (sessionID : String) : Prog signature Unit := do
  let _ ← Call.networkRemove (networkName sessionID)
  return ()

/-- `int64(CpuCores) * 1e9` and `int64(MemoryMb) * 1024 * 1024`. -/
def containerConfig (opts : StartContainerOpts) : ContainerConfig where
  image := opts.imageName
  network := networkName opts.sessionID
  nanoCPUs := wrap (opts.resources.cpuCores.toNat * 1000000000)
  memory := wrap (opts.resources.memoryMB.toNat * 1048576)
  gpuCount := opts.gpuCount

/-- The loop that waits for the published port, which is empty if none has shown up. -/
def awaitPort (id : String) : Nat → Prog signature (Except CallError String)
  | 0 => return .ok ""
  | k + 1 => do
    match ← Call.containerInspect id with
    | .error e => return .error e
    | .ok inspect =>
      if inspect.running = false then return .error .refused
      else if inspect.hostPort ≠ "" then return .ok inspect.hostPort
      else awaitPort id k

/-- The network is removed again when an earlier step fails, the container is not. -/
def runContainer (n : Nat) (opts : StartContainerOpts) (networkID : String) :
    Prog signature (Except CallError Started) := do
  let _ ← Call.containerRemoveNamed (containerName opts.sessionID)
  match ← Call.containerCreate n (containerName opts.sessionID) (containerConfig opts) with
  | .error e => do
    removeSessionNetwork opts.sessionID
    return .error e
  | .ok id =>
    match ← Call.containerStart id with
    | .error e => do
      removeSessionNetwork opts.sessionID
      return .error e
    | .ok () =>
      match ← awaitPort id 20 with
      | .error e => return .error e
      | .ok sshPort => return .ok ⟨id, networkID, sshPort⟩

def startContainer (n : Nat) (opts : StartContainerOpts) :
    Prog signature (Except CallError Started) := do
  match ← createSessionNetwork n opts.sessionID with
  | .error e => return .error e
  | .ok networkID =>
    match ← Call.imagePull opts.imageName with
    | .error e => do
      removeSessionNetwork opts.sessionID
      return .error e
    | .ok () => runContainer n opts networkID

def stopContainer (containerID sessionID : String) : Prog signature Unit := do
  if containerID = "" then return ()
  else
    let _ ← Call.containerStop containerID
    let _ ← Call.containerRemove containerID
    if sessionID = "" then return () else removeSessionNetwork sessionID

end PeerCompute.Agent
