import DnsSeeder.Store.Record

namespace DnsSeeder.Bincode

open Lib

def ipAddr : Format IpAddr where
  encode
    | .v4 a => Format.encodeVarint 0 ++ (Format.bits 4).encode a
    | .v6 a => Format.encodeVarint 1 ++ (Format.bits 16).encode a
  decode bytes := do
    let (tag,bytes) ← Format.decodeVarint 4 bytes
    match tag with
    | 0 => ((Format.bits 4).decode bytes).map (fun p => (.v4 p.1,p.2))
    | 1 => ((Format.bits 16).decode bytes).map (fun p => (.v6 p.1,p.2))
    | _ => none
  decode_encode ip rest := by
    cases ip with
    | v4 a =>
      rw [List.append_assoc,Format.decodeVarint_encodeVarint (by omega) (by omega) (by omega)]
      simp
    | v6 a =>
      rw [List.append_assoc,Format.decodeVarint_encodeVarint (by omega) (by omega) (by omega)]
      simp

def netAddress : Format NetAddress :=
  (ipAddr.pair Format.uint16).via (fun a => (a.ip,a.port)) (fun p => some ⟨p.1,p.2⟩) (by simp)

def handshake : Format (UInt32 × Text × Option (Vector UInt8 20) × Int64) :=
  Format.uint32.pair (Format.text.pair ((Format.array 20).option.pair Format.int64))

def lifecycle : Format (Int64 × Int64 × Int64 × Int64) :=
  Format.int64.pair (Format.int64.pair (Format.int64.pair Format.int64))

def peerRecord : Format PeerRecord :=
  (netAddress.pair ((Format.array 16).pair (handshake.pair lifecycle))).via
    (fun r => (r.address,r.id,
      (r.protocolVersion,r.userAgent,r.subnetworkId,r.timestampMs),
      (r.firstSeenMs,r.lastSeenMs,r.lastAttemptMs,r.lastSuccessMs)))
    (fun p => match p with
      | (address,id,(protocolVersion,userAgent,subnetworkId,timestamp),(first,seen,attempt,success)) =>
        some ⟨address,id,protocolVersion,userAgent,subnetworkId,timestamp,first,seen,attempt,success⟩)
    (by simp)

def decodeRecord (bytes : Bytes) : Except Error PeerRecord :=
  match peerRecord.decode bytes with
  | some (rec,_) => .ok rec
  | none => .error .decode

def standard : Codec where
  encodeRecord := peerRecord.encode
  decodeRecord := decodeRecord
  encodeKey := netAddress.encode
  decode_encode rec := by
    have h := peerRecord.decode_encode rec []
    rw [List.append_nil] at h
    simp [decodeRecord,h]
  encodeKey_injective := netAddress.encode_injective

example : standard.encodeKey ⟨.v4 0x08080808#32,16111⟩ = [0,8,8,8,8,251,0xef,0x3e] := by decide

end DnsSeeder.Bincode
