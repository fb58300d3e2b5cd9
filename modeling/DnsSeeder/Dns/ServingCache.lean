import DnsSeeder.Store.Filter
import DnsSeeder.Crawler.History

namespace DnsSeeder

open Lib PeerStore

structure DnsConfig where
  defaultPort : UInt16
  dnsZone : String
  nameserver : String
  maxRecords : Nat
  queriesPerIpPerSecond : UInt32
  rateLimitWindow : Duration
  staleGood : Duration
  minProtocolVersion : Option UInt32
  minUserAgent : Option Version

structure Snapshot where
  v4 : List IpAddr
  v6 : List IpAddr
deriving DecidableEq

def Snapshot.pool (snapshot : Snapshot) : Family → List IpAddr
  | .v4 => snapshot.v4
  | .v6 => snapshot.v6

structure Reading where
  now : Int64
  scan : Except Error Db

abbrev FreshnessSort := DescendingSort (fun rec : PeerRecord => rec.lastSuccessMs)

namespace ServingCache

variable (c : Codec) (semver : Semver) (srt : FreshnessSort) (config : DnsConfig) (p2pPort : UInt16)

def servingFilter (family : Family) (now : Int64) : Filter :=
  Filter.serving now (durationToMs config.staleGood) config.minProtocolVersion config.minUserAgent
    (some family) (some p2pPort)

def pickFreshest (family : Family) (cap : Nat) (reading : Reading) : Option (List IpAddr) :=
  match reading.scan with
  | .error _ => some []
  | .ok db =>
      (collectMatching c semver (servingFilter config p2pPort family reading.now) db).map
        (fun peers => (srt.top cap peers).map (·.address.ip))

def buildSnapshot (cap : Nat) (v4 v6 : Reading) : Option Snapshot :=
  match pickFreshest c semver srt config p2pPort .v4 cap v4,
    pickFreshest c semver srt config p2pPort .v6 cap v6 with
  | some pool4,some pool6 => some ⟨pool4,pool6⟩
  | _,_ => none

def matching (filter : Filter) (db : Db) : List PeerRecord :=
  (records c db).filter (fun rec => filter.matchesRecord semver rec == some true)

structure FreshestPool (db : Db) (filter : Filter) (family : Family) (cap : Nat) (pool : List IpAddr) :
    Prop where
  family : ∀ ip ∈ pool, family.contains ip = true
  nodup : pool.Nodup
  size : pool.length = min cap (matching c semver filter db).length
  sound : ∀ ip ∈ pool, ∃ rec ∈ matching c semver filter db, rec.address.ip = ip
  freshest : ∀ rec ∈ matching c semver filter db, rec.address.ip ∉ pool →
    ∀ rec' ∈ matching c semver filter db, rec'.address.ip ∈ pool → rec.lastSuccessMs ≤ rec'.lastSuccessMs

variable {c semver srt config p2pPort} {family : Family} {cap : Nat} {now t₀ u : Int64} {db : Db}

theorem buildSnapshot_eq_some {v4 v6 : Reading} {snap : Snapshot}
    (h : buildSnapshot c semver srt config p2pPort cap v4 v6 = some snap) :
    pickFreshest c semver srt config p2pPort .v4 cap v4 = some snap.v4 ∧
    pickFreshest c semver srt config p2pPort .v6 cap v6 = some snap.v6 := by
  unfold buildSnapshot at h
  split at h
  · next h4 h6 =>
    obtain rfl := Option.some.inj h
    exact ⟨h4,h6⟩
  · cases h

theorem mem_matching {filter : Filter} {rec : PeerRecord} :
    rec ∈ matching c semver filter db ↔ rec ∈ records c db ∧ filter.matchesRecord semver rec = some true := by
  simp [matching]

theorem matches_family {rec : PeerRecord}
    (h : (servingFilter config p2pPort family now).matchesRecord semver rec = some true) :
    family.contains rec.address.ip = true :=
  (Filter.matchesRecord_true.mp h).2.2.1

theorem matches_port {rec : PeerRecord}
    (h : (servingFilter config p2pPort family now).matchesRecord semver rec = some true) :
    rec.address.port = p2pPort := by
  have hv := (Filter.matchesRecord_true.mp h).2.2.2
  simp only [Filter.passesValidity,servingFilter,Filter.serving,Bool.and_eq_true] at hv
  simpa using hv.2

theorem collectMatching_eq (h : System.WellKept c t₀ db u) (hnow : 0 ≤ now) :
    collectMatching c semver (servingFilter config p2pPort family now) db =
      some (matching c semver (servingFilter config p2pPort family now) db) := by
  refine filterChecked_eq ?_
  intro rec hrec
  have hd := h.dated rec.address rec ((mem_records h.keyed rec).mp hrec)
  exact Filter.matchesRecord_isSome semver hnow hd.seen.1 hd.success.1

theorem matching_ip_nodup (h : Keyed c db) :
    ((matching c semver (servingFilter config p2pPort family now) db).map (·.address.ip)).Nodup := by
  set peers := matching c semver (servingFilter config p2pPort family now) db with hpeers
  have haddr : (peers.map (·.address)).Nodup :=
    (records_address_nodup h).sublist (List.filter_sublist.map _)
  have hmap : peers.map (·.address) = (peers.map (·.address.ip)).map (fun ip => ⟨ip,p2pPort⟩) := by
    rw [List.map_map]
    refine List.map_congr_left ?_
    intro rec hrec
    have hport := matches_port (mem_matching.mp (hpeers ▸ hrec)).2
    change rec.address = ⟨rec.address.ip,p2pPort⟩
    rw [← hport]
  rw [hmap] at haddr
  exact haddr.of_map _

theorem matching_eq_of_ip (h : Keyed c db) {rec rec' : PeerRecord}
    (hr : rec ∈ matching c semver (servingFilter config p2pPort family now) db)
    (hr' : rec' ∈ matching c semver (servingFilter config p2pPort family now) db)
    (hip : rec.address.ip = rec'.address.ip) : rec = rec' :=
  List.inj_on_of_nodup_map (matching_ip_nodup h) hr hr' hip

theorem pickFreshest_pool (srt : FreshnessSort) (cap : Nat) (h : System.WellKept c t₀ db u) (hnow : 0 ≤ now) :
    ∃ pool, pickFreshest c semver srt config p2pPort family cap ⟨now,.ok db⟩ = some pool ∧
      FreshestPool c semver db (servingFilter config p2pPort family now) family cap pool := by
  have hpick : pickFreshest c semver srt config p2pPort family cap ⟨now,.ok db⟩ = some ((srt.top cap
      (matching c semver (servingFilter config p2pPort family now) db)).map (·.address.ip)) := by
    simp only [pickFreshest,collectMatching_eq h hnow,Option.map_some]
  refine ⟨_,hpick,?_⟩
  set peers := matching c semver (servingFilter config p2pPort family now) db with hpeers
  have hsound : ∀ ip ∈ (srt.top cap peers).map (·.address.ip), ∃ rec ∈ srt.top cap peers,
      rec.address.ip = ip := fun ip hip => by simpa using hip
  constructor
  · intro ip hip
    obtain ⟨rec,hrec,rfl⟩ := hsound ip hip
    exact matches_family (mem_matching.mp (srt.mem_of_top hrec)).2
  · exact srt.nodup_top (matching_ip_nodup h.keyed)
  · rw [List.length_map,srt.length_top]
  · intro ip hip
    obtain ⟨rec,hrec,rfl⟩ := hsound ip hip
    exact ⟨rec,srt.mem_of_top hrec,rfl⟩
  · intro rec hrec hout rec' hrec' hin
    obtain ⟨rec'',htop,hip⟩ := hsound _ hin
    have heq : rec'' = rec' := matching_eq_of_ip h.keyed (srt.mem_of_top htop) hrec' hip
    have hnot : rec ∉ srt.top cap peers := fun hm => hout (List.mem_map_of_mem hm)
    exact heq ▸ srt.top_dominates htop hrec hnot

theorem snapshot_freshest (c : Codec) (routable : IpAddr → Bool) (semver : Semver) (srt : FreshnessSort)
    (config : DnsConfig) (p2pPort : UInt16) (cap : Nat) (t₀ u₄ u₆ now₄ now₆ : Int64) (db₄ db₆ : Db)
    (h₀ : 0 ≤ t₀) (h₄ : System.Produced c routable t₀ db₄ u₄) (h₆ : System.Produced c routable t₀ db₆ u₆)
    (hn₄ : 0 ≤ now₄) (hn₆ : 0 ≤ now₆) :
    ∃ snap, buildSnapshot c semver srt config p2pPort cap ⟨now₄,.ok db₄⟩ ⟨now₆,.ok db₆⟩ = some snap ∧
      FreshestPool c semver db₄ (servingFilter config p2pPort .v4 now₄) .v4 cap snap.v4 ∧
      FreshestPool c semver db₆ (servingFilter config p2pPort .v6 now₆) .v6 cap snap.v6 := by
  obtain ⟨pool4,h4,hp4⟩ := pickFreshest_pool srt cap (System.produced_wellKept h₀ h₄) hn₄
  obtain ⟨pool6,h6,hp6⟩ := pickFreshest_pool srt cap (System.produced_wellKept h₀ h₆) hn₆
  exact ⟨⟨pool4,pool6⟩,by rw [buildSnapshot,h4,h6],hp4,hp6⟩

def insertionSort : FreshnessSort where
  sort l := l.insertionSort (fun a b => b.lastSuccessMs ≤ a.lastSuccessMs)
  perm l := List.perm_insertionSort _ l
  sorted l := pairwise_sort_descending l

def sampleDns : DnsConfig where
  defaultPort := 16111
  dnsZone := "seed.example."
  nameserver := "ns.example."
  maxRecords := 10
  queriesPerIpPerSecond := 1
  rateLimitWindow := .fromSecs 5
  staleGood := .fromSecs 1800
  minProtocolVersion := some 7
  minUserAgent := none

def answersAt (t : Int64) (j : Nat) (peer : SocketAddr) : List Event :=
  [.advance t,.submit peer,.post j (.probed (some sampleProbe)),.post j .proceed,.post j .proceed,
    .post j .proceed]

def threeAnswers : List Event :=
  answersAt 5 0 ⟨.v4 0x08080404#32,16111⟩ ++ answersAt 7 1 samplePeer ++ answersAt 9 2 ⟨.v4 0x01010101#32,16111⟩

def freshestTwo : Snapshot := ⟨[.v4 0x01010101#32,samplePeer.ip],[]⟩

theorem three_answered : ∃ s,
    run (System.step sampleNode) (System.start sampleNode (openStore Bincode.standard (.compatible .empty)) 1)
      threeAnswers = some s ∧ System.Produced Bincode.standard sampleNode.routable 1 s.db s.clock ∧
    (records Bincode.standard s.db).length = 3 ∧
    buildSnapshot Bincode.standard ⟨fun _ => none⟩ insertionSort sampleDns 16111 2
      ⟨1000,.ok s.db⟩ ⟨1000,.ok s.db⟩ = some freshestTwo := by
  have hrun : (run (System.step sampleNode)
      (System.start sampleNode (openStore Bincode.standard (.compatible .empty)) 1) threeAnswers).map (fun s =>
        ((records Bincode.standard s.db).length,buildSnapshot Bincode.standard ⟨fun _ => none⟩ insertionSort
          sampleDns 16111 2 ⟨1000,.ok s.db⟩ ⟨1000,.ok s.db⟩)) = some (3,some freshestTwo) := by
    decide +kernel
  obtain ⟨s,hs,heq⟩ := Option.map_eq_some_iff.mp hrun
  obtain ⟨hthree,hsnap⟩ := Prod.mk.inj heq
  exact ⟨s,hs,.run sampleNode.config threeAnswers .empty (Int64.le_refl _) hs,hthree,hsnap⟩

theorem snapshot_freshest_two_of_three : ∃ s snap,
    run (System.step sampleNode) (System.start sampleNode (openStore Bincode.standard (.compatible .empty)) 1)
      threeAnswers = some s ∧ (records Bincode.standard s.db).length = 3 ∧
    buildSnapshot Bincode.standard ⟨fun _ => none⟩ insertionSort sampleDns 16111 2
      ⟨1000,.ok s.db⟩ ⟨1000,.ok s.db⟩ = some snap ∧
    snap.v4 = [.v4 0x01010101#32,samplePeer.ip] ∧
    FreshestPool Bincode.standard ⟨fun _ => none⟩ s.db (servingFilter sampleDns 16111 .v4 1000) .v4 2
      snap.v4 := by
  obtain ⟨s,hs,hprod,hthree,hbuild⟩ := three_answered
  obtain ⟨snap,hsnap,h4,_⟩ := snapshot_freshest Bincode.standard sampleNode.routable ⟨fun _ => none⟩
    insertionSort sampleDns 16111 2 1 s.clock s.clock 1000 1000 s.db s.db (by decide) hprod hprod
    (by decide) (by decide)
  obtain rfl := Option.some.inj (hsnap.symm.trans hbuild)
  exact ⟨s,_,hs,hthree,hsnap,rfl,h4⟩

end ServingCache

end DnsSeeder
