import DnsSeeder.Store.Record
import DnsSeeder.Lib.Table

namespace DnsSeeder

open Lib

structure Db where
  peers : Table Bytes Bytes
  attemptIdx : Multimap Int64 Bytes

namespace Db

def empty : Db := ⟨.empty,.empty⟩

@[ext] theorem ext {db db' : Db} (hp : ∀ k, db.peers.get k = db'.peers.get k)
    (hi : ∀ p, p ∈ db.attemptIdx ↔ p ∈ db'.attemptIdx) : db = db' := by
  cases db; cases db'
  congr 1
  · exact Table.ext hp
  · exact Multimap.ext hi

end Db

inductive DatabaseFile where
  | missing
  | incompatible
  | compatible (db : Db)

def DatabaseFile.create : DatabaseFile → Db
  | .missing => .empty
  | .incompatible => .empty
  | .compatible db => db

namespace PeerStore

variable (c : Codec)

def purgeUndecodable (db : Db) : Nat × Db :=
  let toDelete := db.peers.iter.filterMap (fun row =>
    match c.decodeRecord row.2 with
    | .error _ => some row.1
    | .ok _ => none)
  (toDelete.length,{ db with peers := toDelete.foldl Table.remove db.peers })

def indexRow (acc : Nat × Multimap Int64 Bytes) (row : Bytes × Bytes) : Nat × Multimap Int64 Bytes :=
  match c.decodeRecord row.2 with
  | .ok rec => (acc.1 + 1,acc.2.insert rec.lastAttemptMs row.1)
  | .error _ => acc

def rebuildAttemptIndex (db : Db) : Nat × Db :=
  let (count,idx) := db.peers.iter.foldl (indexRow c) (0,.empty)
  (count,{ db with attemptIdx := idx })

def openStore (file : DatabaseFile) : Db :=
  (rebuildAttemptIndex c (purgeUndecodable c file.create).2).2

def upsert (rec : PeerRecord) (db : Db) : Db :=
  let key := c.encodeKey rec.address
  let idx := match (db.peers.get key).map c.decodeRecord with
    | some (.ok oldRec) =>
        if oldRec.lastAttemptMs ≠ rec.lastAttemptMs
        then db.attemptIdx.remove oldRec.lastAttemptMs key else db.attemptIdx
    | _ => db.attemptIdx
  ⟨db.peers.insert key (c.encodeRecord rec),idx.insert rec.lastAttemptMs key⟩

def get (addr : NetAddress) (db : Db) : Except Error (Option PeerRecord) :=
  match db.peers.get (c.encodeKey addr) with
  | some v => (c.decodeRecord v).map some
  | none => .ok none

def delete (addr : NetAddress) (db : Db) : Bool × Db :=
  let key := c.encodeKey addr
  match db.peers.get key with
  | some v =>
      let idx := match c.decodeRecord v with
        | .ok oldRec => db.attemptIdx.remove oldRec.lastAttemptMs key
        | .error _ => db.attemptIdx
      (true,⟨db.peers.remove key,idx⟩)
  | none => (false,db)

def attemptStub (addr : NetAddress) (nowMs : Int64) : PeerRecord where
  id := unknownPeerId
  protocolVersion := 0
  timestampMs := 0
  address := addr
  userAgent := Format.Text.empty
  subnetworkId := none
  firstSeenMs := nowMs
  lastAttemptMs := nowMs
  lastSuccessMs := 0
  lastSeenMs := 0

def recordAttempt (addr : NetAddress) (nowMs : Int64) (db : Db) : Except Error (PeerRecord × Db) := do
  let key := c.encodeKey addr
  let (record,oldAttempt) ← match db.peers.get key with
    | some v => do
        let r ← c.decodeRecord v
        pure (r,some r.lastAttemptMs)
    | none => pure (attemptStub addr nowMs,none)
  let record := { record with lastAttemptMs := nowMs }
  let idx := match oldAttempt with
    | some prev => if prev ≠ nowMs then db.attemptIdx.remove prev key else db.attemptIdx
    | none => db.attemptIdx
  return (record,⟨db.peers.insert key (c.encodeRecord record),idx.insert nowMs key⟩)

def seenStub (addr : NetAddress) (nowMs : Int64) : PeerRecord where
  id := unknownPeerId
  protocolVersion := 0
  timestampMs := 0
  address := addr
  userAgent := Format.Text.empty
  subnetworkId := none
  firstSeenMs := nowMs
  lastAttemptMs := 0
  lastSuccessMs := 0
  lastSeenMs := nowMs

def refreshSeen (nowMs : Int64) (acc : Nat × Db) (addr : NetAddress) : Except Error (Nat × Db) := do
  let (inserted,db) := acc
  let key := c.encodeKey addr
  match db.peers.get key with
  | some v => do
      let record ← c.decodeRecord v
      let record := { record with lastSeenMs := nowMs }
      return (inserted,{ db with peers := db.peers.insert key (c.encodeRecord record) })
  | none =>
      let record := seenStub addr nowMs
      return (inserted + 1,
        ⟨db.peers.insert key (c.encodeRecord record),db.attemptIdx.insert 0 key⟩)

def insertOrRefreshSeenBatch (addrs : List NetAddress) (nowMs : Int64) (db : Db) :
    Except Error (Nat × Db) :=
  addrs.foldlM (refreshSeen c nowMs) (0,db)

def insertOrRefreshSeen (addr : NetAddress) (nowMs : Int64) (db : Db) : Except Error (Bool × Db) := do
  let (inserted,db) ← insertOrRefreshSeenBatch c [addr] nowMs db
  return (inserted == 1,db)

def deadRow (cutoffMs : Int64) (row : Bytes × Bytes) : Option (Bytes × Int64) :=
  match c.decodeRecord row.2 with
  | .ok rec => if isDead rec cutoffMs then some (row.1,rec.lastAttemptMs) else none
  | .error _ => none

def removeRow (db : Db) (entry : Bytes × Int64) : Db :=
  ⟨db.peers.remove entry.1,db.attemptIdx.remove entry.2 entry.1⟩

def pruneDead (cutoffMs : Int64) (db : Db) : Nat × Db :=
  let toDelete := db.peers.iter.filterMap (deadRow c cutoffMs)
  (toDelete.length,toDelete.foldl removeRow db)

end PeerStore

end DnsSeeder
