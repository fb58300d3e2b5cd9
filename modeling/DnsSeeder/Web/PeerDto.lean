import DnsSeeder.Store.Filter

namespace DnsSeeder

def hexDigits (n : Nat) : String := String.ofList (Nat.toDigits 16 n)

namespace IpAddr

def octet (a : BitVec 32) (i : Nat) : Nat := (a.toNat / 256 ^ (3 - i)) % 256

def displayV4 (a : BitVec 32) : String :=
  ".".intercalate ((List.range 4).map (fun i => toString (octet a i)))

def segments (a : BitVec 128) : List Nat := (List.range 8).map (fun i => (a.toNat / 65536 ^ (7 - i)) % 65536)

structure Span where
  start : Nat
  len : Nat

def zeroRun (state : Span × Span × Nat) (segment : Nat) : Span × Span × Nat :=
  let (longest,current,i) := state
  if segment = 0 then
    let current := ⟨if current.len = 0 then i else current.start,current.len + 1⟩
    (if current.len > longest.len then current else longest,current,i + 1)
  else (longest,⟨0,0⟩,i + 1)

def longestZeros (segments : List Nat) : Span := (segments.foldl zeroRun (⟨0,0⟩,⟨0,0⟩,0)).1

def displaySegments (segments : List Nat) : String := ":".intercalate (segments.map hexDigits)

def displayV6 (a : BitVec 128) : String :=
  match toIpv4Mapped a with
  | some b => "::ffff:" ++ displayV4 b
  | none =>
      let zeros := longestZeros (segments a)
      if zeros.len > 1 then
        displaySegments ((segments a).take zeros.start) ++ "::" ++
          displaySegments ((segments a).drop (zeros.start + zeros.len))
      else displaySegments (segments a)

def display : IpAddr → String
  | .v4 a => displayV4 a
  | .v6 a => displayV6 a

end IpAddr

structure Formats where
  DateTime : Type
  fromTimestampMillis : Int64 → Option DateTime
  unixEpoch : DateTime
  toRfc3339Secs : DateTime → String
  hexEncode : Bytes → String
  displayVersion : Version → String

structure PublicPeerDto where
  port : UInt16
  protocolVersion : Option UInt32
  userAgent : Option String
  kaspadVersion : Option String
  lastSuccessMs : Option Int64
  lastSuccess : Option String
deriving DecidableEq

structure FullPeerDto where
  ip : String
  port : UInt16
  id : Option String
  protocolVersion : Option UInt32
  userAgent : Option String
  kaspadVersion : Option String
  firstSeenMs : Int64
  firstSeen : String
  lastSeenMs : Int64
  lastSeen : String
  lastAttemptMs : Option Int64
  lastAttempt : Option String
  lastSuccessMs : Option Int64
  lastSuccess : Option String
deriving DecidableEq

inductive PeerDto where
  | fullDto (dto : FullPeerDto)
  | publicDto (dto : PublicPeerDto)
deriving DecidableEq

def optString (s : String) : Option String := if s = "" then none else some s
def optProtocol (v : UInt32) : Option UInt32 := if v = 0 then none else some v
def optMs (ms : Int64) : Option Int64 := if ms > 0 then some ms else none

def optId (formats : Formats) (id : PeerId) : Option String :=
  if id = unknownPeerId then none else some (formats.hexEncode id.toList)

def formatIso (formats : Formats) (ms : Int64) : String :=
  formats.toRfc3339Secs ((formats.fromTimestampMillis ms).getD formats.unixEpoch)

def parsedVersion (semver : Semver) (formats : Formats) (userAgent : Text) : Option String :=
  (PeerRecord.parseKaspadVersion semver userAgent.val).map formats.displayVersion

def PublicPeerDto.fromRecord (semver : Semver) (formats : Formats) (rec : PeerRecord) : PublicPeerDto where
  port := rec.address.port
  protocolVersion := optProtocol rec.protocolVersion
  userAgent := optString rec.userAgent.val
  kaspadVersion := parsedVersion semver formats rec.userAgent
  lastSuccessMs := optMs rec.lastSuccessMs
  lastSuccess := (optMs rec.lastSuccessMs).map (formatIso formats)

def FullPeerDto.fromRecord (semver : Semver) (formats : Formats) (rec : PeerRecord) : FullPeerDto where
  ip := rec.address.ip.display
  port := rec.address.port
  id := optId formats rec.id
  protocolVersion := optProtocol rec.protocolVersion
  userAgent := optString rec.userAgent.val
  kaspadVersion := parsedVersion semver formats rec.userAgent
  firstSeenMs := rec.firstSeenMs
  firstSeen := formatIso formats rec.firstSeenMs
  lastSeenMs := rec.lastSeenMs
  lastSeen := formatIso formats rec.lastSeenMs
  lastAttemptMs := optMs rec.lastAttemptMs
  lastAttempt := (optMs rec.lastAttemptMs).map (formatIso formats)
  lastSuccessMs := optMs rec.lastSuccessMs
  lastSuccess := (optMs rec.lastSuccessMs).map (formatIso formats)

namespace PeerDto

def fromRecord (semver : Semver) (formats : Formats) (rec : PeerRecord) (exposeFull : Bool) : PeerDto :=
  if exposeFull then .fullDto (.fromRecord semver formats rec) else .publicDto (.fromRecord semver formats rec)

def lastSuccessMs : PeerDto → Option Int64
  | .fullDto dto => dto.lastSuccessMs
  | .publicDto dto => dto.lastSuccessMs

def isPublic : PeerDto → Bool
  | .fullDto _ => false
  | .publicDto _ => true

end PeerDto

end DnsSeeder
