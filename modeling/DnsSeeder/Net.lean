import Mathlib.Tactic

namespace DnsSeeder

inductive IpAddr where
  | v4 (octets : BitVec 32)
  | v6 (octets : BitVec 128)
deriving DecidableEq

namespace IpAddr

def toIpv4Mapped (a : BitVec 128) : Option (BitVec 32) :=
  if a >>> 32 = 0xffff#128 then some (a.setWidth 32) else none

def toCanonical (a : BitVec 128) : IpAddr :=
  match toIpv4Mapped a with
  | some b => .v4 b
  | none => .v6 a

def isV4Mapped : IpAddr → Bool
  | .v4 _ => false
  | .v6 a => (toIpv4Mapped a).isSome

def isMulticast : IpAddr → Bool
  | .v4 a => a >>> 28 == 0xe#32
  | .v6 a => a >>> 120 == 0xff#128

end IpAddr

def canonicalizeIp : IpAddr → IpAddr
  | .v6 a => IpAddr.toCanonical a
  | .v4 a => .v4 a

theorem canonicalizeIp_not_mapped (ip : IpAddr) : (canonicalizeIp ip).isV4Mapped = false := by
  cases ip with
  | v4 a => rfl
  | v6 a =>
    simp only [canonicalizeIp,IpAddr.toCanonical]
    cases h : IpAddr.toIpv4Mapped a with
    | some b => rfl
    | none => simp [IpAddr.isV4Mapped,h]

theorem canonicalizeIp_of_not_mapped {ip : IpAddr} (h : ip.isV4Mapped = false) :
    canonicalizeIp ip = ip := by
  cases ip with
  | v4 a => rfl
  | v6 a =>
    simp only [IpAddr.isV4Mapped,Option.isSome_eq_false_iff,Option.isNone_iff_eq_none] at h
    simp [canonicalizeIp,IpAddr.toCanonical,h]

structure SocketAddr where
  ip : IpAddr
  port : UInt16
deriving DecidableEq

structure NetAddress where
  ip : IpAddr
  port : UInt16
deriving DecidableEq

def netFrom (addr : SocketAddr) : NetAddress := ⟨canonicalizeIp addr.ip,addr.port⟩

def NetAddress.socketAddr (net : NetAddress) : SocketAddr := ⟨net.ip,net.port⟩

def NetAddress.Canonical (net : NetAddress) : Prop := net.ip.isV4Mapped = false

instance (net : NetAddress) : Decidable net.Canonical := inferInstanceAs (Decidable (_ = false))

theorem netFrom_canonical (addr : SocketAddr) : (netFrom addr).Canonical :=
  canonicalizeIp_not_mapped _

theorem netFrom_socketAddr {net : NetAddress} (h : net.Canonical) : netFrom net.socketAddr = net := by
  cases net
  simp only [netFrom,NetAddress.socketAddr,canonicalizeIp_of_not_mapped h]

end DnsSeeder
