import DnsSeeder.Store.Filter
import DnsSeeder.Time

namespace DnsSeeder

open Lib

structure WebConfig where
  networkDefaultPort : UInt16
  strictPort : Bool
  postRateLimit : UInt32
  rateLimitWindow : Duration
  staleGood : Duration
  minProtocolVersion : Option UInt32
  minUserAgent : Option Version

namespace Web

def maxListResponse : Nat := 1000

def listFilter (config : WebConfig) (all : Bool) (now : Int64) : Filter :=
  Filter.serving now
    (if all then Int64.maxValue else durationToMs config.staleGood)
    (if all then none else config.minProtocolVersion)
    (if all then none else config.minUserAgent)
    none none

def retained (all : Bool) (records : List PeerRecord) : List PeerRecord :=
  if all then records.filter (fun r => r.lastSuccessMs > 0) else records

def freshFirst (records : List PeerRecord) : List PeerRecord :=
  records.insertionSort (fun a b => b.lastSuccessMs ≤ a.lastSuccessMs)

def capped (records : List PeerRecord) : List PeerRecord :=
  if records.length > maxListResponse then records.take maxListResponse else records

def listRecords (c : Codec) (semver : Semver) (config : WebConfig) (all : Bool) (now : Int64) (db : Db) :
    Option (List PeerRecord) :=
  (PeerStore.collectMatching c semver (listFilter config all now) db).map (fun records =>
    capped (freshFirst (retained all records)))

inductive GetResponse where
  | found (rec : PeerRecord)
  | notFound
  | storeError

def get (c : Codec) (semver : Semver) (config : WebConfig) (all : Bool) (now : Int64) (addr : SocketAddr)
    (db : Db) : Option GetResponse :=
  match PeerStore.get c (netFrom addr) db with
  | .ok (some rec) =>
      ((listFilter config all now).matchesRecord semver rec).map (fun ok =>
        if ok && rec.lastSuccessMs > 0 then .found rec else .notFound)
  | .ok none => some .notFound
  | .error _ => some .storeError

theorem mem_capped {records : List PeerRecord} {rec : PeerRecord} (h : rec ∈ capped records) :
    rec ∈ records := by
  unfold capped at h
  split at h
  · exact List.mem_of_mem_take h
  · exact h

theorem mem_freshFirst {records : List PeerRecord} {rec : PeerRecord} :
    rec ∈ freshFirst records ↔ rec ∈ records := List.mem_insertionSort _

theorem mem_listRecords {c : Codec} {semver : Semver} {config : WebConfig} {all : Bool} {now : Int64}
    {db : Db} {out : List PeerRecord} (h : listRecords c semver config all now db = some out) :
    ∀ rec ∈ out, (listFilter config all now).matchesRecord semver rec = some true ∧
      (all = true → 0 < rec.lastSuccessMs) := by
  obtain ⟨records,hc,rfl⟩ := Option.map_eq_some_iff.mp h
  have hmem := mem_filterChecked hc
  intro rec hrec
  have hret : rec ∈ retained all records := mem_freshFirst.mp (mem_capped hrec)
  cases all with
  | false => exact ⟨(hmem rec hret).2,by simp⟩
  | true =>
    obtain ⟨hm,hpos⟩ := List.mem_filter.mp hret
    exact ⟨(hmem rec hm).2,fun _ => of_decide_eq_true hpos⟩

theorem get_found {c : Codec} {semver : Semver} {config : WebConfig} {all : Bool} {now : Int64}
    {addr : SocketAddr} {db : Db} {rec : PeerRecord}
    (h : get c semver config all now addr db = some (.found rec)) : 0 < rec.lastSuccessMs := by
  unfold get at h
  split at h
  · next rec' _ =>
    obtain ⟨ok,_,hif⟩ := Option.map_eq_some_iff.mp h
    split at hif
    · next hpos =>
      obtain rfl := GetResponse.found.inj hif
      rw [Bool.and_eq_true,decide_eq_true_eq] at hpos
      exact hpos.2
    · cases hif
  · simp at h
  · simp at h

end Web

end DnsSeeder
