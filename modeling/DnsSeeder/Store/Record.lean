import DnsSeeder.Lib.Format
import DnsSeeder.Net
import DnsSeeder.Time

namespace DnsSeeder

abbrev Bytes := List UInt8
abbrev Text := Lib.Format.Text
abbrev PeerId := Vector UInt8 16

def unknownPeerId : PeerId := Vector.replicate 16 0

structure PeerRecord where
  address : NetAddress
  id : PeerId
  protocolVersion : UInt32
  userAgent : Text
  subnetworkId : Option (Vector UInt8 20)
  timestampMs : Int64
  firstSeenMs : Int64
  lastSeenMs : Int64
  lastAttemptMs : Int64
  lastSuccessMs : Int64
deriving DecidableEq

def isDead (rec : PeerRecord) (cutoffMs : Int64) : Bool :=
  if rec.lastSuccessMs > 0 ∧ rec.lastSuccessMs < cutoffMs then true
  else decide (rec.lastSeenMs < cutoffMs) && decide (rec.firstSeenMs < cutoffMs)

def goodProbeThreshold (staleGoodMs : Int64) : Option Int64 :=
  (Lib.checkedMul staleGoodMs 4).map (· / 5)

def isEligibleForProbe (rec : PeerRecord) (nowMs staleGoodMs staleBadMs deadCutoffMs : Int64) :
    Option Bool :=
  if isDead rec deadCutoffMs then some false
  else do
    let sinceAttempt := Lib.saturatingSub nowMs rec.lastAttemptMs
    let threshold ← if rec.lastSuccessMs > 0 then goodProbeThreshold staleGoodMs else some staleBadMs
    return decide (sinceAttempt ≥ threshold)

inductive Error where
  | redb | transaction | table | storage | commit | database | io | encode | decode
deriving DecidableEq

structure Codec where
  encodeRecord : PeerRecord → Bytes
  decodeRecord : Bytes → Except Error PeerRecord
  encodeKey : NetAddress → Bytes
  decode_encode : ∀ rec, decodeRecord (encodeRecord rec) = .ok rec
  encodeKey_injective : Function.Injective encodeKey

attribute [simp] Codec.decode_encode

end DnsSeeder
