import NodeTelemetry.Engine
import NodeTelemetry.FileTree
import NodeTelemetry.Net.SocketAddr

namespace NodeTelemetry

/-- A machine as far as an agent depends on it. It has no network but its own, which is down, and
the agent runs on it without privileges. -/
structure Machine where
  files : FileTree
  directory : List String := []
  taken : List Net.SocketAddr := []

namespace Machine

def directories : List String :=
  ["bin", "boot", "dev/pts", "dev/shm", "etc", "home", "lib", "lib64", "media", "mnt", "opt",
    "proc/self", "root", "run", "sbin", "srv", "sys", "tmp", "usr/bin", "usr/lib", "usr/local",
    "usr/sbin", "usr/share", "var/cache", "var/lib", "var/log", "var/spool", "var/tmp"]

def devices : List String := ["null", "zero", "full", "random", "urandom"]

def bare : Machine :=
  let zero := ("0\n".toList.map fun c => UInt8.ofNat c.toNat)
  let system := Topology.systemDirectory
  let files : FileTree := directories.foldl (fun t d => t.add (FileTree.parts d) .directory) {}
  let files := devices.foldl (fun t d => t.add ["dev", d] (.file [])) files
    |>.add (system ++ ["cpu", "online"]) (.file zero)
    |>.add (system ++ ["node", "node0", "cpulist"]) (.file zero)
  let directory := ["tmp", "agent"]
  { files := files.add directory .directory, directory }

def addFile (m : Machine) (path : String) (content : List UInt8) : Machine :=
  match m.files.make m.directory path (.file content) with
  | .ok files => { m with files }
  | .error _ => m

def online (m : Machine) : Except TopologyError (List Nat) :=
  Topology.online m.files Topology.systemDirectory

def nodes (m : Machine) : Except TopologyError (List NumaNode) :=
  Topology.numaNodes m.files Topology.systemDirectory

def refusal (m : Machine) (path : String) : OsError :=
  match m.files.find m.directory path with
  | .error e => e
  | _ => .isADirectory

def hardware (m : Machine) (sensorDevice : String) : Hardware :=
  let buses := match m.files.find m.directory sensorDevice with
    | .ok (.file _) => [(sensorDevice, { refusing := true })]
    | _ => []
  { buses, refusal := m.refusal }

def site (m : Machine) (s : Settings) (clocks : Array Clock) : Site :=
  { clocks, hardware := m.hardware s.sensorDevice }

def ownNetwork : UInt32 := 1

def lacks? : Net.SocketAddr → Option OsError
  | .v4 _ _ => none
  | .v6 ip scope _ =>
    if ip = .unspecified || ip.mapped?.isSome then none
    else if !ip.isLinkLocal then some .addressNotAvailable
    else if scope = 0 then some .invalidArgument
    else if scope = ownNetwork then some .addressNotAvailable
    else some .noSuchDevice

def firstUnreserved : UInt16 := 1024

def isReserved (port : UInt16) : Bool := 0 < port && port < firstUnreserved

def isShared : Net.SocketAddr → Bool
  | .v4 _ _ => false
  | .v6 ip _ _ => ip.isMulticast

def cannotListen? (m : Machine) (addr : Net.SocketAddr) : Option OsError :=
  if isShared addr then some .invalidArgument
  else if isReserved addr.port then some .permissionDenied
  else (lacks? addr).or (if m.taken.contains addr then some .addressInUse else none)

end Machine

end NodeTelemetry
