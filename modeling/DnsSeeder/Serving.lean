import DnsSeeder.Dns.ServingCache
import DnsSeeder.Web.Peers

namespace DnsSeeder

open Lib PeerStore

structure CliArgs where
  staleGood : Duration
  minProtocolVersion : Option UInt32
  minUserAgent : Option Version
  defaultPort : UInt16
  strictPort : Bool
  dnsZone : String
  dnsNameserver : String
  dnsMaxRecords : Nat
  postRateLimit : UInt32
  rateLimitWindow : Duration

namespace CliArgs

def dnsConfig (args : CliArgs) : DnsConfig where
  defaultPort := args.defaultPort
  dnsZone := args.dnsZone
  nameserver := args.dnsNameserver
  maxRecords := args.dnsMaxRecords
  queriesPerIpPerSecond := 1
  rateLimitWindow := .fromSecs 5
  staleGood := args.staleGood
  minProtocolVersion := args.minProtocolVersion
  minUserAgent := args.minUserAgent

def webConfig (args : CliArgs) : WebConfig where
  networkDefaultPort := args.defaultPort
  strictPort := args.strictPort
  postRateLimit := args.postRateLimit
  rateLimitWindow := args.rateLimitWindow
  staleGood := args.staleGood
  minProtocolVersion := args.minProtocolVersion
  minUserAgent := args.minUserAgent

end CliArgs

structure Server where
  codec : Codec
  semver : Semver
  srt : FreshnessSort
  args : CliArgs
  p2pPort : UInt16
  cap : Nat

namespace Server

variable (v : Server)

def inSnapshot (now : Int64) (db : Db) (rec : PeerRecord) : Prop :=
  ∃ other snap, rec.address.port = v.p2pPort ∧
    ((ServingCache.buildSnapshot v.codec v.semver v.srt v.args.dnsConfig v.p2pPort v.cap ⟨now,.ok db⟩ other =
      some snap ∧ rec.address.ip ∈ snap.v4) ∨
    (ServingCache.buildSnapshot v.codec v.semver v.srt v.args.dnsConfig v.p2pPort v.cap other ⟨now,.ok db⟩ =
      some snap ∧ rec.address.ip ∈ snap.v6))

def inList (all : Bool) (now : Int64) (db : Db) (rec : PeerRecord) : Prop :=
  ∃ out, Web.listRecords v.codec v.semver v.args.webConfig all now db = some out ∧ rec ∈ out

def inLookup (all : Bool) (now : Int64) (db : Db) (rec : PeerRecord) : Prop :=
  ∃ addr, Web.get v.codec v.semver v.args.webConfig all now addr db = some (.found rec)

def Serves (now : Int64) (db : Db) (rec : PeerRecord) : Prop :=
  v.inSnapshot now db rec ∨ ∃ all, v.inList all now db rec ∨ v.inLookup all now db rec

def ExcludesStubs (now : Int64) : Prop :=
  durationToMs v.args.staleGood < now ∨ (∃ p, v.args.minProtocolVersion = some p ∧ 0 < p) ∨
    v.args.minUserAgent.isSome

variable {v} {now : Int64} {db : Db} {rec : PeerRecord}

theorem agent_empty (semver : Semver) :
    PeerRecord.parseKaspadVersion semver Format.Text.empty.val = none := rfl

theorem stub_unmatched (h : v.ExcludesStubs now) {family : Option Family} {port : Option UInt16}
    (hs : rec.lastSuccessMs = 0) (hp : rec.protocolVersion = 0) (ha : rec.userAgent = Format.Text.empty) :
    (Filter.serving now (durationToMs v.args.staleGood) v.args.minProtocolVersion v.args.minUserAgent
      family port).matchesRecord v.semver rec ≠ some true := by
  intro hm
  obtain ⟨_,hstale,_,hvalid⟩ := Filter.matchesRecord_true.mp hm
  simp only [Filter.passesValidity,Filter.serving,Bool.and_eq_true] at hvalid
  rcases h with h | ⟨p,hmin,hpos⟩ | h
  · have hex := Filter.exceeds_eq hstale
    rw [eq_comm,decide_eq_false_iff_not] at hex
    have h0 : rec.lastSuccessMs.toInt = 0 := by rw [hs]; rfl
    change ¬ (durationToMs v.args.staleGood).toInt < now.toInt - rec.lastSuccessMs.toInt at hex
    rw [int64_lt_iff] at h
    omega
  · have hv := hvalid.1.1
    rw [hmin,hp] at hv
    simp [hpos] at hv
  · obtain ⟨min,hmin⟩ := Option.isSome_iff_exists.mp h
    have hv := hvalid.1.2
    rw [hmin,ha,agent_empty] at hv
    simp at hv

theorem pool_matches {family : Family} {pool : List IpAddr} (hk : Keyed v.codec db)
    (hp : ServingCache.pickFreshest v.codec v.semver v.srt v.args.dnsConfig v.p2pPort family v.cap
      ⟨now,.ok db⟩ = some pool) (hrec : view v.codec db rec.address = some rec)
    (hport : rec.address.port = v.p2pPort) (hip : rec.address.ip ∈ pool) :
    (ServingCache.servingFilter v.args.dnsConfig v.p2pPort family now).matchesRecord v.semver rec =
      some true := by
  obtain ⟨peers,hc,rfl⟩ := Option.map_eq_some_iff.mp hp
  obtain ⟨rec',htop,hip'⟩ := List.mem_map.mp hip
  obtain ⟨hmem,hmatch⟩ := mem_filterChecked hc rec' (v.srt.mem_of_top htop)
  have hport' := ServingCache.matches_port hmatch
  have haddr : rec'.address = rec.address := by
    cases ha : rec'.address
    cases ha' : rec.address
    simp_all
  have hrec' := (mem_records hk rec').mp hmem
  rw [haddr,hrec,Option.some.injEq] at hrec'
  exact hrec' ▸ hmatch

theorem stub_unserved {t₀ u : Int64} (h₀ : 0 < t₀) (hw : System.WellKept v.codec t₀ db u)
    (hc : v.ExcludesStubs now) (hrec : view v.codec db rec.address = some rec)
    (hle : rec.lastSuccessMs ≤ 0) : ¬ v.Serves now db rec := by
  obtain ⟨hs,hp,ha⟩ : rec.lastSuccessMs = 0 ∧ rec.protocolVersion = 0 ∧
      rec.userAgent = Format.Text.empty := by
    rcases (hw.dated rec.address rec hrec).answered with h | h
    · exact absurd (Int64.lt_of_lt_of_le h₀ h) (Int64.not_lt.mpr hle)
    · exact h
  rintro (⟨other,snap,hport,⟨hsnap,hip⟩ | ⟨hsnap,hip⟩⟩ | ⟨all,⟨out,hout,hmem⟩ | ⟨addr,hget⟩⟩)
  · have h4 := (ServingCache.buildSnapshot_eq_some hsnap).1
    exact stub_unmatched hc hs hp ha (pool_matches hw.keyed h4 hrec hport hip)
  · have h6 := (ServingCache.buildSnapshot_eq_some hsnap).2
    exact stub_unmatched hc hs hp ha (pool_matches hw.keyed h6 hrec hport hip)
  · obtain ⟨hmatch,hpos⟩ := Web.mem_listRecords hout rec hmem
    cases all with
    | false => exact stub_unmatched hc hs hp ha hmatch
    | true => exact absurd (hpos rfl) (Int64.not_lt.mpr hle)
  · exact absurd (Web.get_found hget) (Int64.not_lt.mpr hle)

def seedConfig : SchedulerConfig := ⟨16111,1,.fromSecs 1800,.fromSecs 7200,.fromSecs 86400,false⟩

theorem seeded_view (c : Codec) {routable : IpAddr → Bool} {ip : IpAddr} (t₀ : Int64)
    (hm : ip.isV4Mapped = false) (hmc : ip.isMulticast = false) (hr : routable ip = true) :
    ∃ db, System.Produced c routable t₀ db t₀ ∧
      view c db = Function.update (fun _ => none) ⟨ip,16111⟩ (some (seenStub ⟨ip,16111⟩ t₀)) := by
  have hcan : (⟨ip,16111⟩ : NetAddress).Canonical := hm
  have hfrom : netFrom ⟨ip,16111⟩ = ⟨ip,16111⟩ := netFrom_socketAddr hcan
  have hacc : (⟨c,routable,seedConfig⟩ : Node).acceptBootstrap [⟨ip,16111⟩] = [⟨ip,16111⟩] := by
    simp [Node.acceptBootstrap,Node.acceptable,isAcceptableAddress,hfrom,seedConfig,ephemeralPortFloor,
      hmc,hr]
  have hx : Exact c (openStore c (.compatible .empty)) := exact_open _
  have hempty : view c (openStore c (.compatible .empty)) = fun _ => none := by
    rw [System.view_open]
    funext addr
    exact System.view_empty c addr
  refine ⟨_,.run seedConfig [.seed [⟨ip,16111⟩],.sched] .empty (Int64.le_refl _) rfl,?_⟩
  change view c (exec c (openStore c (.compatible .empty)) (.insertOrRefreshSeenBatch
    ((⟨c,routable,seedConfig⟩ : Node).acceptBootstrap [⟨ip,16111⟩]) t₀)) = _
  rw [view_exec hx,hacc,hempty]
  funext addr
  by_cases ha : addr = ⟨ip,16111⟩
  · simp [apply,ha,seenRecord]
  · simp [apply,ha]

theorem stub_matched (addr : NetAddress) {t₀ : Int64} (hc : ¬ v.ExcludesStubs now) (h₀ : 0 ≤ t₀)
    (hnow : 0 ≤ now) :
    (Web.listFilter v.args.webConfig false now).matchesRecord v.semver (seenStub addr t₀) = some true := by
  simp only [ExcludesStubs,not_or,not_exists,not_and] at hc
  obtain ⟨hstale,hproto,hagent⟩ := hc
  have hnow' : 0 ≤ now.toInt := int64_le_iff.mp hnow
  have ht₀ : 0 ≤ t₀.toInt := int64_le_iff.mp h₀
  have hlt := now.toInt_lt
  have hmax := Int64.toInt_maxValue
  rw [int64_lt_iff] at hstale
  refine Filter.matchesRecord_true.mpr ⟨?_,?_,rfl,?_⟩
  · obtain ⟨b,hb⟩ := Option.isSome_iff_exists.mp (Filter.exceeds_isSome Int64.maxValue hnow h₀)
    have hval := Filter.exceeds_eq hb
    rw [hmax,decide_eq_false (by omega)] at hval
    subst hval
    exact hb
  · obtain ⟨b,hb⟩ := Option.isSome_iff_exists.mp
      (Filter.exceeds_isSome (durationToMs v.args.staleGood) hnow (Int64.le_refl 0))
    have hval := Filter.exceeds_eq hb
    have h0 : (0 : Int64).toInt = 0 := rfl
    rw [h0,decide_eq_false (by omega)] at hval
    subst hval
    exact hb
  · have hnone : v.args.minUserAgent = none := by simpa using hagent
    cases hmin : v.args.minProtocolVersion with
    | none => simp [Filter.passesValidity,Web.listFilter,Filter.serving,CliArgs.webConfig,hmin,hnone]
    | some p =>
      have hp : ¬ 0 < p := hproto p hmin
      simp [Filter.passesValidity,Web.listFilter,Filter.serving,CliArgs.webConfig,hmin,hnone,seenStub,hp]

theorem single_record {c : Codec} {addr : NetAddress} (hk : Keyed c db)
    (hview : view c db = Function.update (fun _ => none) addr (some rec)) (ha : rec.address = addr) :
    records c db = [rec] := by
  have hall : ∀ r, r ∈ records c db ↔ r = rec := by
    intro r
    rw [mem_records hk,hview]
    by_cases hr : r.address = addr
    · simp [hr,eq_comm]
    · rw [Function.update_of_ne hr]
      exact ⟨by simp,fun h => absurd (h ▸ ha) hr⟩
  have hnd : (records c db).Nodup := (records_address_nodup hk).of_map _
  exact List.perm_singleton.mp ((List.perm_ext_iff_of_nodup hnd (List.nodup_singleton rec)).mpr
    (by simpa using hall))

theorem stub_listed {routable : IpAddr → Bool} {ip : IpAddr} {t₀ : Int64} (hc : ¬ v.ExcludesStubs now)
    (h₀ : 0 ≤ t₀) (hnow : 0 ≤ now) (hm : ip.isV4Mapped = false) (hmc : ip.isMulticast = false)
    (hr : routable ip = true) :
    ∃ db, System.Produced v.codec routable t₀ db t₀ ∧
      view v.codec db ⟨ip,16111⟩ = some (seenStub ⟨ip,16111⟩ t₀) ∧
      v.Serves now db (seenStub ⟨ip,16111⟩ t₀) := by
  obtain ⟨db,hprod,hview⟩ := seeded_view v.codec t₀ hm hmc hr
  have hk := (System.produced_wellKept h₀ hprod).keyed
  have hmatch := stub_matched ⟨ip,16111⟩ hc h₀ hnow
  have hrecords := single_record hk hview rfl
  refine ⟨db,hprod,by rw [hview,Function.update_self],
    Or.inr ⟨false,Or.inl ⟨[seenStub ⟨ip,16111⟩ t₀],?_,by simp⟩⟩⟩
  simp [Web.listRecords,collectMatching,hrecords,filterChecked,hmatch,Web.retained,Web.freshFirst,
    Web.capped,Web.maxListResponse]

theorem stubs_unserved_iff (v : Server) (routable : IpAddr → Bool) (t₀ now : Int64) (h₀ : 0 < t₀)
    (hnow : 0 < now)
    (hroutable : ∃ ip : IpAddr, ip.isV4Mapped = false ∧ ip.isMulticast = false ∧ routable ip = true) :
    (∀ db u rec, System.Produced v.codec routable t₀ db u → view v.codec db rec.address = some rec →
      rec.lastSuccessMs ≤ 0 → ¬ v.Serves now db rec) ↔
    (durationToMs v.args.staleGood < now ∨ (∃ p, v.args.minProtocolVersion = some p ∧ 0 < p) ∨
      v.args.minUserAgent.isSome) := by
  have h₀' : 0 ≤ t₀ := Int64.le_of_lt h₀
  constructor
  · intro h
    by_contra hc
    obtain ⟨ip,hm,hmc,hr⟩ := hroutable
    obtain ⟨db,hprod,hview,hserves⟩ := stub_listed hc h₀' (Int64.le_of_lt hnow) hm hmc hr
    have hzero : (seenStub ⟨ip,16111⟩ t₀).lastSuccessMs ≤ 0 := Int64.le_refl 0
    exact h db t₀ (seenStub ⟨ip,16111⟩ t₀) hprod hview hzero hserves
  · intro hc db u rec hprod hrec hle
    exact stub_unserved h₀ (System.produced_wellKept h₀' hprod) hc hrec hle

def sampleServer (staleGood : Duration) : Server where
  codec := Bincode.standard
  semver := ⟨fun _ => none⟩
  srt := ServingCache.insertionSort
  args := ⟨staleGood,none,none,16111,false,"seed.example.","ns.example.",10,10,.fromSecs 60⟩
  p2pPort := 16111
  cap := 100

theorem stubs_unserved_half_hour :
    (durationToMs (sampleServer (.fromSecs 1800)).args.staleGood < 1800000000000) ∧
    ∀ db u rec, System.Produced Bincode.standard sampleNode.routable 1 db u →
      view Bincode.standard db rec.address = some rec → rec.lastSuccessMs ≤ 0 →
      ¬ (sampleServer (.fromSecs 1800)).Serves 1800000000000 db rec :=
  ⟨by decide,(stubs_unserved_iff (sampleServer (.fromSecs 1800)) sampleNode.routable 1 1800000000000
    (by decide) (by decide) ⟨samplePeer.ip,by decide,by decide,rfl⟩).mpr (Or.inl (by decide))⟩

def seedSample : List Event := [.seed [samplePeer],.sched]

def century : Duration := .fromSecs 3155760000

theorem stub_served_century : ∃ s,
    run (System.step sampleNode)
      (System.start sampleNode (openStore Bincode.standard (.compatible .empty)) 1800000000000)
      seedSample = some s ∧
    System.Produced Bincode.standard sampleNode.routable 1800000000000 s.db s.clock ∧
    view Bincode.standard s.db (netFrom samplePeer) = some (seenStub (netFrom samplePeer) 1800000000000) ∧
    (seenStub (netFrom samplePeer) 1800000000000).lastSuccessMs ≤ 0 ∧
    (sampleServer century).inSnapshot 1800000060000 s.db (seenStub (netFrom samplePeer) 1800000000000) ∧
    (sampleServer century).inList false 1800000060000 s.db
      (seenStub (netFrom samplePeer) 1800000000000) :=
  ⟨_,rfl,.run sampleNode.config seedSample .empty (Int64.le_refl _) rfl,by decide,by decide,
    ⟨⟨0,.error .io⟩,⟨[samplePeer.ip],[]⟩,rfl,Or.inl ⟨rfl,by decide⟩⟩,
    ⟨[seenStub (netFrom samplePeer) 1800000000000],rfl,by decide⟩⟩

end Server

end DnsSeeder
