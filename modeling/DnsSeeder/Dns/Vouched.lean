import DnsSeeder.Crawler.Provenance
import DnsSeeder.Dns.Answers
import DnsSeeder.Dns.Refresh

namespace DnsSeeder

open Lib PeerStore ServingCache

structure Vouched (c : Codec) (semver : Semver) (config : DnsConfig) (p2pPort : UInt16) (log : List Trace)
    (reading : Reading) (ip : IpAddr) (rec : PeerRecord) (k : Draft) (committed : Int64) : Prop where
  scanned : ∃ db, reading.scan = .ok db ∧ rec ∈ records c db
  address : rec.address = ⟨ip,p2pPort⟩
  attested : Attested log ⟨ip,p2pPort⟩ rec k committed
  stamp : rec.lastSuccessMs = k.stamp
  fresh : reading.now.toInt - rec.lastSuccessMs.toInt ≤ (durationToMs config.staleGood).toInt
  protocolVersion : ∀ min, config.minProtocolVersion = some min →
    min ≤ k.handshake.result.version.protocolVersion
  userAgent : ∀ min, config.minUserAgent = some min → ∃ v,
    PeerRecord.parseKaspadVersion semver k.handshake.result.version.userAgent.val = some v ∧
      v.coreGe min = true

structure ReadLive (c : Codec) (routable : IpAddr → Bool) (config : DnsConfig) (log : List Trace)
    (reading : Reading) : Prop where
  now : durationToMs config.staleGood < reading.now
  scan : ∀ db, reading.scan = .ok db → ∃ u known, System.Recorded c routable db u known ∧ ∀ x ∈ known, x ∈ log

variable {c : Codec} {routable : IpAddr → Bool} {semver : Semver} {srt : FreshnessSort} {config : DnsConfig}
  {p2pPort : UInt16} {cap : Nat} {log : List Trace}

theorem matches_floors {family : Family} {now : Int64} {rec : PeerRecord}
    (h : (servingFilter config p2pPort family now).matchesRecord semver rec = some true) :
    (∀ min, config.minProtocolVersion = some min → min ≤ rec.protocolVersion) ∧
    ∀ min, config.minUserAgent = some min → ∃ v,
      PeerRecord.parseKaspadVersion semver rec.userAgent.val = some v ∧ v.coreGe min = true := by
  have hv := (Filter.matchesRecord_true.mp h).2.2.2
  simp only [Filter.passesValidity,servingFilter,Filter.serving,Bool.and_eq_true] at hv
  constructor
  · intro min hmin
    have hproto := hv.1.1
    rw [hmin] at hproto
    exact UInt32.not_lt.mp (by simpa using hproto)
  · intro min hmin
    have hagent := hv.1.2
    rw [hmin] at hagent
    cases hparse : PeerRecord.parseKaspadVersion semver rec.userAgent.val with
    | none => simp [hparse] at hagent
    | some v => exact ⟨v,rfl,by simpa [hparse] using hagent⟩

theorem matches_fresh {family : Family} {now : Int64} {rec : PeerRecord}
    (h : (servingFilter config p2pPort family now).matchesRecord semver rec = some true) :
    now.toInt - rec.lastSuccessMs.toInt ≤ (durationToMs config.staleGood).toInt := by
  have hex := Filter.exceeds_eq (Filter.matchesRecord_true.mp h).2.1
  rw [eq_comm,decide_eq_false_iff_not] at hex
  exact Int.not_lt.mp hex

theorem vouched_of_matches {family : Family} {reading : Reading} {db : Db} {u : Int64} {known : List Trace}
    {rec : PeerRecord} (hr : System.Recorded c routable db u known) (hknown : ∀ x ∈ known, x ∈ log)
    (hnow : durationToMs config.staleGood < reading.now) (hscan : reading.scan = .ok db)
    (hrec : rec ∈ records c db)
    (hm : (servingFilter config p2pPort family reading.now).matchesRecord semver rec = some true) :
    ∃ k committed, Vouched c semver config p2pPort log reading rec.address.ip rec k committed := by
  obtain ⟨hk,hsourced⟩ := System.recorded_sourced hr
  have hfresh := matches_fresh hm
  have haddr : rec.address = ⟨rec.address.ip,p2pPort⟩ := by rw [← matches_port hm]
  rcases hsourced rec.address rec ((mem_records hk rec).mp hrec) with hstub | ⟨k,committed,ha⟩
  · have hzero : rec.lastSuccessMs.toInt = 0 := by rw [hstub.unanswered.1]; rfl
    rw [int64_lt_iff] at hnow
    omega
  · obtain ⟨hproto,hagent⟩ := matches_floors hm
    have hpv : rec.protocolVersion = k.handshake.result.version.protocolVersion := by rw [ha.fields]; rfl
    have hua : rec.userAgent = k.handshake.result.version.userAgent := by rw [ha.fields]; rfl
    rw [haddr] at ha
    exact ⟨k,committed,⟨db,hscan,hrec⟩,haddr,ha.mono hknown,ha.stamp_eq,hfresh,
      fun min hmin => hpv ▸ hproto min hmin,fun min hmin => hua ▸ hagent min hmin⟩

theorem pickFreshest_vouched {family : Family} {reading : Reading} {pool : List IpAddr}
    (hr : ReadLive c routable config log reading)
    (h : pickFreshest c semver srt config p2pPort family cap reading = some pool) :
    ∀ ip ∈ pool, family.contains ip = true ∧
      ∃ rec k committed, Vouched c semver config p2pPort log reading ip rec k committed := by
  unfold pickFreshest at h
  split at h
  · obtain rfl := Option.some.inj h
    simp
  · next db hscan =>
    obtain ⟨u,known,hrecorded,hknown⟩ := hr.scan db hscan
    obtain ⟨peers,hc,rfl⟩ := Option.map_eq_some_iff.mp h
    intro ip hip
    obtain ⟨rec,htop,rfl⟩ := List.mem_map.mp hip
    obtain ⟨hrec,hm⟩ := mem_filterChecked hc rec (srt.mem_of_top htop)
    exact ⟨matches_family hm,rec,vouched_of_matches hrecorded hknown hr.now hscan hrec hm⟩

theorem load_refreshes {rs : List Refresh} {cache : ServingCache}
    (h : run (refreshNow c semver srt config p2pPort cap) ServingCache.new rs = some cache) :
    cache.load = ⟨[],[]⟩ ∨ ∃ before r, rs = before ++ [r] ∧
      buildSnapshot c semver srt config p2pPort cap r.v4 r.v6 = some cache.load := by
  induction rs using List.reverseRecOn with
  | nil =>
    obtain rfl := Option.some.inj h
    exact Or.inl rfl
  | append_singleton before r ih =>
    obtain ⟨_,_,hlast⟩ := run_snoc.mp h
    obtain ⟨snap,hbuild,rfl⟩ := Option.map_eq_some_iff.mp hlast
    exact Or.inr ⟨before,r,rfl,hbuild⟩

theorem published_vouched {r : Refresh} {snapshot : Snapshot} {family : Family}
    (hread : ∀ family, ReadLive c routable config log (r.reading family))
    (hbuild : buildSnapshot c semver srt config p2pPort cap r.v4 r.v6 = some snapshot) :
    ∀ ip ∈ snapshot.pool family, family.contains ip = true ∧
      ∃ rec k committed, Vouched c semver config p2pPort log (r.reading family) ip rec k committed := by
  obtain ⟨hp4,hp6⟩ := buildSnapshot_eq_some hbuild
  cases family with
  | v4 => exact pickFreshest_vouched (hread .v4) hp4
  | v6 => exact pickFreshest_vouched (hread .v6) hp6

namespace SeederHandler

variable {N : Type} {h h' : SeederHandler N} {moment : Moment} {request : Request N}

theorem mem_sample {family : Family} {r : Record N} (hsample : Samples moment.sample)
    (hr : r ∈ h.sampleAddressRecords moment family) :
    ∃ ip ∈ moment.snapshot.pool family, r.data = addressData ip := by
  rw [sampleAddressRecords_eq] at hr
  obtain ⟨ip,hip,rfl⟩ := List.mem_map.mp hr
  obtain ⟨picked,_,_,heq⟩ := hsample.positions (moment.snapshot.pool family) h.config.maxRecords
  rw [heq] at hip
  obtain ⟨i,_,rfl⟩ := List.mem_map.mp hip
  exact ⟨_,List.get_mem _ i,rfl⟩

theorem length_sample (hsample : Samples moment.sample) (family : Family) :
    (h.sampleAddressRecords moment family).length =
      min h.config.maxRecords (moment.snapshot.pool family).length := by
  obtain ⟨picked,_,hlen,heq⟩ := hsample.positions (moment.snapshot.pool family) h.config.maxRecords
  rw [sampleAddressRecords_eq,heq,List.length_map,List.length_map,hlen]

theorem mem_buildAnswers {qtype : RecordType} {r : Record N} {ip : IpAddr} (hsample : Samples moment.sample)
    (hr : r ∈ h.buildAnswers moment qtype) (hdata : r.data = addressData ip) :
    (∃ family, ip ∈ moment.snapshot.pool family) ∨
      (ip = .v6 muslAaaaSentinel ∧ h.buildAnswers moment qtype = [r] ∧
        min h.config.maxRecords moment.snapshot.v6.length = 0) := by
  have hdata_inj : ∀ ip', r.data = addressData ip' → ip' = ip := by
    intro ip' hip'
    refine addressRecord_injective h ?_
    change h.addressRecord (addressData ip') = h.addressRecord (addressData ip)
    rw [← hip',← hdata]
  cases qtype with
  | a =>
    have hr : r ∈ h.sampleAddressRecords moment .v4 := hr
    obtain ⟨ip',hip',hd⟩ := mem_sample hsample hr
    exact Or.inl ⟨.v4,hdata_inj ip' hd ▸ hip'⟩
  | aaaa =>
    simp only [buildAnswers] at hr ⊢
    split at hr
    · next hempty =>
      obtain rfl := List.mem_singleton.mp hr
      have hlen := length_sample (h := h) hsample .v6
      rw [hempty] at hlen
      exact Or.inr ⟨(hdata_inj (.v6 muslAaaaSentinel) rfl).symm,rfl,hlen.symm⟩
    · obtain ⟨ip',hip',hd⟩ := mem_sample hsample hr
      exact Or.inl ⟨.v6,hdata_inj ip' hd ▸ hip'⟩
  | ns =>
    rw [List.mem_singleton.mp hr] at hdata
    cases ip <;> cases hdata
  | soa =>
    rw [List.mem_singleton.mp hr] at hdata
    cases ip <;> cases hdata
  | other code => cases hr

variable [BEq N]

theorem answers_vouched (c : Codec) (routable : IpAddr → Bool) (semver : Semver) (srt : FreshnessSort)
    (config : DnsConfig) (p2pPort : UInt16) (cap : Nat) (log : List Trace) (rs : List Refresh)
    (hread : ∀ r ∈ rs, ∀ family, ReadLive c routable config log (r.reading family))
    (h h' : SeederHandler N) (moment : Moment) (request : Request N) (response : Response N)
    (hsample : Samples moment.sample) (cache : ServingCache)
    (hcache : run (refreshNow c semver srt config p2pPort cap) ServingCache.new rs = some cache)
    (hsnap : moment.snapshot = cache.load)
    (hs : h.handleRequest moment request = some (some response,h')) :
    ∀ record ∈ response.answers, ∀ ip, record.data = addressData ip →
      (∃ before r family, rs = before ++ [r] ∧
        buildSnapshot c semver srt config p2pPort cap r.v4 r.v6 = some moment.snapshot ∧
        family.contains ip = true ∧
        ∃ rec k committed, Vouched c semver config p2pPort log (r.reading family) ip rec k committed) ∨
      (ip = .v6 muslAaaaSentinel ∧ response.answers = [record] ∧
        min h.config.maxRecords moment.snapshot.v6.length = 0) := by
  intro record hrecord ip hdata
  cases handles_of_handleRequest hs with
  | unparsed _ => cases hrecord
  | unserved _ _ _ => cases hrecord
  | served _ _ _ =>
    rcases mem_buildAnswers hsample hrecord hdata with ⟨family,hip⟩ | hsentinel
    · rcases load_refreshes hcache with hempty | ⟨before,r,hsplit,hbuild⟩
      · rw [hsnap,hempty] at hip
        cases family <;> cases hip
      · rw [← hsnap] at hbuild
        have hmem : r ∈ rs := by simp [hsplit]
        exact Or.inl ⟨before,r,family,hsplit,hbuild,published_vouched (hread r hmem) hbuild ip hip⟩
    · exact Or.inr hsentinel

def vouchedEvents : List Event := answersAt 2000000 0 samplePeer

def vouchedRefresh (db : Db) : Refresh := ⟨⟨2000500,.ok db⟩,⟨2000500,.ok db⟩,2000500⟩

def vouchedCache (db : Db) : Option ServingCache :=
  run (refreshNow Bincode.standard ⟨fun _ => none⟩ insertionSort sampleDns 16111 10) ServingCache.new
    [vouchedRefresh db]

def vouchedAnswer (s : Traced) : Option (ServingCache × Response String) := do
  let cache ← vouchedCache s.system.db
  let (response,_) ← sampleHandler.handleRequest { atStart with snapshot := cache.load } apexQuery
  return (cache,← response)

theorem answers_vouched_post : ∃ s cache response,
    run (System.traced sampleNode)
      ⟨System.start sampleNode (openStore Bincode.standard (.compatible .empty)) 1,[]⟩ vouchedEvents = some s ∧
    vouchedAnswer s = some (cache,response) ∧
    response.answers.map Record.data = [addressData samplePeer.ip] ∧
    ∃ family rec k committed, Vouched Bincode.standard ⟨fun _ => none⟩ sampleDns 16111 s.log
      ((vouchedRefresh s.system.db).reading family) samplePeer.ip rec k committed := by
  obtain ⟨s,hs⟩ : ∃ s, run (System.traced sampleNode)
      ⟨System.start sampleNode (openStore Bincode.standard (.compatible .empty)) 1,[]⟩ vouchedEvents =
        some s := ⟨_,rfl⟩
  have hanswer : (run (System.traced sampleNode)
      ⟨System.start sampleNode (openStore Bincode.standard (.compatible .empty)) 1,[]⟩ vouchedEvents).bind
      (fun s => (vouchedAnswer s).map (fun x => x.2.answers.map Record.data)) =
        some [addressData samplePeer.ip] := rfl
  rw [hs,Option.bind_some] at hanswer
  obtain ⟨⟨cache,response⟩,hresponse,hdata⟩ := Option.map_eq_some_iff.mp hanswer
  refine ⟨s,cache,response,hs,hresponse,hdata,?_⟩
  obtain ⟨cache',hcache,hrest⟩ := Option.bind_eq_some_iff.mp hresponse
  obtain ⟨⟨_,h'⟩,hreply,hsome⟩ := Option.bind_eq_some_iff.mp hrest
  obtain ⟨response',rfl,hpair⟩ := Option.bind_eq_some_iff.mp hsome
  obtain ⟨rfl,rfl⟩ := Prod.mk.inj (Option.some.inj hpair)
  have hrecorded : System.Recorded Bincode.standard sampleNode.routable s.system.db s.system.clock
      s.log := .run sampleNode.config vouchedEvents (.empty 1) (Int64.le_refl 1) hs
  have hnow : durationToMs sampleDns.staleGood < 2000500 := by decide
  have hlive : ReadLive Bincode.standard sampleNode.routable sampleDns s.log ⟨2000500,.ok s.system.db⟩ :=
    ⟨hnow,fun db hdb => ⟨_,_,Except.ok.inj hdb ▸ hrecorded,fun _ hx => hx⟩⟩
  have hread : ∀ r ∈ [vouchedRefresh s.system.db], ∀ family,
      ReadLive Bincode.standard sampleNode.routable sampleDns s.log (r.reading family) := by
    intro r hr family
    obtain rfl := List.mem_singleton.mp hr
    cases family with
    | v4 => exact hlive
    | v6 => exact hlive
  have hvouched := answers_vouched Bincode.standard sampleNode.routable ⟨fun _ => none⟩ insertionSort sampleDns
    16111 10 s.log [vouchedRefresh s.system.db] hread sampleHandler h' { atStart with snapshot := cache'.load }
    apexQuery response' samples_take cache' hcache rfl hreply
  obtain ⟨record,hrecord,hip⟩ : ∃ record ∈ response'.answers, record.data = addressData samplePeer.ip := by
    rw [← List.mem_map,hdata]
    exact List.mem_singleton.mpr rfl
  rcases hvouched record hrecord samplePeer.ip hip with ⟨_,r,family,hsplit,_,_,hfound⟩ | ⟨hsentinel,_⟩
  · obtain rfl : vouchedRefresh s.system.db = r := by
      have hlast := congrArg List.getLast? hsplit
      rw [List.getLast?_concat] at hlast
      exact Option.some.inj hlast
    exact ⟨family,hfound⟩
  · exact absurd hsentinel (by decide)

end SeederHandler

end DnsSeeder
