import DnsSeeder.Dns.ServingCache

namespace DnsSeeder

open Lib PeerStore

structure ServingCache where
  inner : Snapshot
  lastRefreshMs : Int64

structure Refresh where
  v4 : Reading
  v6 : Reading
  storedAt : Int64

namespace Refresh

def reading (r : Refresh) : Family → Reading
  | .v4 => r.v4
  | .v6 => r.v6

def Fails (r : Refresh) (family : Family) : Prop := ∃ err, (r.reading family).scan = .error err

end Refresh

namespace ServingCache

def new : ServingCache := ⟨⟨[],[]⟩,0⟩

def load (cache : ServingCache) : Snapshot := cache.inner

def store (_ : ServingCache) (snap : Snapshot) (now : Int64) : ServingCache := ⟨snap,now⟩

section refresh
variable (c : Codec) (semver : Semver) (srt : FreshnessSort) (config : DnsConfig) (p2pPort : UInt16) (cap : Nat)

-- a rebuild that panics ends the process (`panic = "abort"`), and with it the sequence of refreshes
def refreshNow (cache : ServingCache) (r : Refresh) : Option ServingCache :=
  (buildSnapshot c semver srt config p2pPort cap r.v4 r.v6).map (fun snap => cache.store snap r.storedAt)

structure Refreshed where
  before : ServingCache
  refresh : Refresh
  after : ServingCache

def history (cache : ServingCache) : List Refresh → List Refreshed
  | [] => []
  | r :: rs =>
      match refreshNow c semver srt config p2pPort cap cache r with
      | some after => ⟨cache,r,after⟩ :: history after rs
      | none => []

end refresh

structure Intact (x : Refreshed) : Prop where
  pools : ∀ family, x.refresh.Fails family → x.after.load.pool family = x.before.load.pool family
  stamp : x.after.lastRefreshMs ≠ x.before.lastRefreshMs → ∀ family, ¬ x.refresh.Fails family

structure Harmless (x : Refreshed) : Prop where
  pools : ∀ family, x.refresh.Fails family → x.before.load.pool family = []
  stamp : ∀ family, x.refresh.Fails family → x.refresh.storedAt = x.before.lastRefreshMs

variable {c : Codec} {semver : Semver} {srt : FreshnessSort} {config : DnsConfig} {p2pPort : UInt16} {cap : Nat}
  {cache : ServingCache} {r : Refresh}

theorem pickFreshest_error {family : Family} {reading : Reading} (h : ∃ err, reading.scan = .error err) :
    pickFreshest c semver srt config p2pPort family cap reading = some [] := by
  obtain ⟨err,h⟩ := h
  rw [pickFreshest,h]

theorem buildSnapshot_pool {snap : Snapshot} {family : Family}
    (h : buildSnapshot c semver srt config p2pPort cap r.v4 r.v6 = some snap) (hfail : r.Fails family) :
    snap.pool family = [] := by
  obtain ⟨h4,h6⟩ := buildSnapshot_eq_some h
  cases family with
  | v4 => exact (Option.some.inj ((pickFreshest_error hfail).symm.trans h4)).symm
  | v6 => exact (Option.some.inj ((pickFreshest_error hfail).symm.trans h6)).symm

theorem intact_iff_harmless {after : ServingCache}
    (h : refreshNow c semver srt config p2pPort cap cache r = some after) :
    Intact ⟨cache,r,after⟩ ↔ Harmless ⟨cache,r,after⟩ := by
  obtain ⟨snap,hbuild,rfl⟩ := Option.map_eq_some_iff.mp h
  constructor
  · rintro ⟨hpools,hstamp⟩
    refine ⟨fun family hfail => ?_,fun family hfail => ?_⟩
    · exact (hpools family hfail).symm.trans (buildSnapshot_pool hbuild hfail)
    · by_contra hne
      exact hstamp hne family hfail
  · rintro ⟨hpools,hstamp⟩
    refine ⟨fun family hfail => ?_,fun hne family hfail => hne (hstamp family hfail)⟩
    exact (buildSnapshot_pool hbuild hfail).trans (hpools family hfail).symm

theorem mem_history {rs : List Refresh} {x : Refreshed}
    (h : x ∈ history c semver srt config p2pPort cap cache rs) :
    refreshNow c semver srt config p2pPort cap x.before x.refresh = some x.after := by
  induction rs generalizing cache with
  | nil => cases h
  | cons r rs ih =>
    rw [history] at h
    split at h
    · next after hafter =>
      rcases List.mem_cons.mp h with rfl | h
      · exact hafter
      · exact ih h
    · cases h

theorem refreshes_intact_iff (c : Codec) (semver : Semver) (srt : FreshnessSort) (config : DnsConfig)
    (p2pPort : UInt16) (cap : Nat) (cache : ServingCache) (rs : List Refresh) :
    (∀ x ∈ history c semver srt config p2pPort cap cache rs, Intact x) ↔
      ∀ x ∈ history c semver srt config p2pPort cap cache rs, Harmless x :=
  forall₂_congr (fun _ hx => intact_iff_harmless (mem_history hx))

def servedPeer : PeerRecord :=
  { attemptStub ⟨.v4 0x08080808#32,16111⟩ 900 with
    protocolVersion := 7, lastSuccessMs := 900, lastSeenMs := 900 }

def servedDb : Db := upsert Bincode.standard servedPeer .empty

def failingSecond : List Refresh :=
  [⟨⟨1000,.ok servedDb⟩,⟨1000,.ok servedDb⟩,1000⟩,⟨⟨61000,.error .storage⟩,⟨61000,.ok servedDb⟩,61000⟩]

theorem failed_scan_empties_pool :
    ∃ x ∈ history Bincode.standard ⟨fun _ => none⟩ insertionSort sampleDns 16111 10 new failingSecond,
      x.refresh.Fails .v4 ∧ x.before.load.pool .v4 = [servedPeer.address.ip] ∧ x.after.load.pool .v4 = [] ∧
      x.before.lastRefreshMs = 1000 ∧ x.after.lastRefreshMs = 61000 := by
  refine ⟨_,List.mem_cons_of_mem _ List.mem_cons_self,⟨.storage,rfl⟩,?_,?_,?_,?_⟩
  · decide
  · decide
  · decide
  · decide

end ServingCache

end DnsSeeder
