import DnsSeeder.Store.Record

namespace DnsSeeder

structure VersionMessage where
  id : Bytes
  protocolVersion : UInt32
  timestamp : Int64
  userAgent : Text
  subnetworkId : Option Bytes
deriving DecidableEq

structure ProbeResult where
  version : VersionMessage
  addresses : List (IpAddr × UInt16)
deriving DecidableEq

def peerIdFromBytes (bytes : Bytes) : PeerId :=
  Vector.ofFn (fun i : Fin 16 => (bytes[i.val]?).getD 0)

def subnetworkFromBytes (bytes : Bytes) : Option (Vector UInt8 20) :=
  if h : bytes.length = 20 then some ⟨bytes.toArray,by simp [h]⟩ else none

def peerRecordFromVersion (addr : SocketAddr) (version : VersionMessage) (nowMs : Int64)
    (existing : Option PeerRecord) : PeerRecord where
  id := peerIdFromBytes version.id
  protocolVersion := version.protocolVersion
  timestampMs := version.timestamp
  address := ⟨canonicalizeIp addr.ip,addr.port⟩
  userAgent := version.userAgent
  subnetworkId := version.subnetworkId.bind subnetworkFromBytes
  firstSeenMs := (existing.map (·.firstSeenMs)).getD nowMs
  lastAttemptMs := nowMs
  lastSuccessMs := nowMs
  lastSeenMs := nowMs

def ephemeralPortFloor : UInt16 := 32768

def isAcceptableAddress (routable : IpAddr → Bool) (addr : NetAddress) (defaultPort : UInt16)
    (strictPort : Bool) : Bool :=
  if addr.port = 0 then false
  else if strictPort = true ∧ addr.port ≠ defaultPort then false
  else if strictPort = false ∧ addr.port ≥ ephemeralPortFloor then false
  else if addr.ip.isMulticast then false
  else routable addr.ip

theorem isAcceptableAddress_iff {routable : IpAddr → Bool} {addr : NetAddress} {defaultPort : UInt16}
    {strictPort : Bool} : isAcceptableAddress routable addr defaultPort strictPort = true ↔
      addr.port ≠ 0 ∧ (strictPort = true → addr.port = defaultPort) ∧
      (strictPort = false → addr.port < ephemeralPortFloor) ∧ addr.ip.isMulticast = false ∧
      routable addr.ip = true := by
  unfold isAcceptableAddress
  cases strictPort <;> simp

@[simp] theorem peerRecordFromVersion_address (addr : SocketAddr) (version : VersionMessage)
    (now : Int64) (existing : Option PeerRecord) :
    (peerRecordFromVersion addr version now existing).address = netFrom addr := rfl

end DnsSeeder
