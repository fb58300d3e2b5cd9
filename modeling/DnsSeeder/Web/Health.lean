import DnsSeeder.Serving
import DnsSeeder.Store.Summary

namespace DnsSeeder

open Lib PeerStore

namespace Web

structure HealthResponse where
  status : String
  reason : Option String
  good : Option Nat
  total : Nat

structure HealthReply where
  code : Nat
  body : HealthResponse

def health (c : Codec) (semver : Semver) (config : WebConfig) (now : Int64) : Except Error Db → HealthReply
  | .error _ => ⟨503,"down",some "store error",none,0⟩
  | .ok db =>
      let summary := summary semver now (durationToMs config.staleGood) none c db
      if summary.good > 0 then ⟨200,"ok",none,some summary.good,summary.total⟩
      else ⟨503,"down",some "no peers with successful probe within stale-good window",none,summary.total⟩

end Web

namespace Server

variable {v : Server} {now : Int64} {db : Db}

def serving (v : Server) (now : Int64) (family : Option Family) (port : Option UInt16) : Filter :=
  Filter.serving now (durationToMs v.args.staleGood) v.args.minProtocolVersion v.args.minUserAgent family port

theorem current_of_matches (hnow : durationToMs v.args.staleGood < now) {family : Option Family}
    {port : Option UInt16} {rec : PeerRecord}
    (h : (v.serving now family port).matchesRecord v.semver rec = some true) :
    current now (durationToMs v.args.staleGood) rec = true := by
  have hstale := Filter.exceeds_eq (Filter.matchesRecord_true.mp h).2.1
  rw [eq_comm,decide_eq_false_iff_not] at hstale
  change ¬ (durationToMs v.args.staleGood).toInt < now.toInt - rec.lastSuccessMs.toInt at hstale
  rw [int64_lt_iff] at hnow
  rw [current,decide_eq_true_eq]
  omega

theorem good_eq (v : Server) (now : Int64) (db : Db) :
    (summary v.semver now (durationToMs v.args.staleGood) none v.codec db).good =
      (records v.codec db).countP (current now (durationToMs v.args.staleGood)) := by
  have hs := summarized v.codec v.semver db now (durationToMs_nonneg v.args.staleGood) none
  have hnone := hs.buckets .filtered
  have hzero : (records v.codec db).countP (fun rec =>
      standing v.semver now (durationToMs v.args.staleGood) none rec = .filtered) = 0 := by
    rw [List.countP_eq_zero]
    intro rec _
    rw [decide_eq_true_eq,standing]
    split_ifs <;> simp_all [passes]
  have hfiltered : (summary v.semver now (durationToMs v.args.staleGood) none v.codec db).filtered = 0 :=
    hnone.trans hzero
  have hwindow := hs.window
  omega

def counted (v : Server) (now : Int64) (db : Db) (family : Option Family) (port : Option UInt16) : Nat :=
  (records v.codec db).countP (fun rec => (v.serving now family port).matchesRecord v.semver rec == some true)

theorem length_pool {family : Family} {pool : List IpAddr}
    (h : ServingCache.pickFreshest v.codec v.semver v.srt v.args.dnsConfig v.p2pPort family v.cap
      ⟨now,.ok db⟩ = some pool) : pool.length ≤ v.counted now db (some family) (some v.p2pPort) := by
  obtain ⟨peers,hc,rfl⟩ := Option.map_eq_some_iff.mp h
  rw [List.length_map,v.srt.length_top,length_filterChecked hc]
  exact Nat.min_le_right _ _

theorem length_list {out : List PeerRecord}
    (h : Web.listRecords v.codec v.semver v.args.webConfig false now db = some out) :
    out.length ≤ v.counted now db none none := by
  obtain ⟨peers,hc,rfl⟩ := Option.map_eq_some_iff.mp h
  have hsort : (Web.freshFirst (Web.retained false peers)).length = peers.length :=
    (List.perm_insertionSort _ _).length_eq
  have hcap : ∀ l, (Web.capped l).length ≤ l.length := by
    intro l
    unfold Web.capped
    split
    · exact List.length_take_le' _ _
    · exact Nat.le_refl _
  exact (hcap _).trans (hsort.trans (length_filterChecked hc)).le

theorem counted_families (hnow : durationToMs v.args.staleGood < now) (port : Option UInt16) :
    v.counted now db (some .v4) port + v.counted now db (some .v6) port ≤
      (summary v.semver now (durationToMs v.args.staleGood) none v.codec db).good := by
  rw [good_eq,counted,counted]
  induction records v.codec db with
  | nil => exact Nat.le_refl _
  | cons rec recs ih =>
    simp only [List.countP_cons]
    cases h4 : (v.serving now (some .v4) port).matchesRecord v.semver rec == some true with
    | true =>
      have hm4 := beq_iff_eq.mp h4
      have h6 : ((v.serving now (some .v6) port).matchesRecord v.semver rec == some true) = false := by
        rw [Bool.eq_false_iff]
        intro h6
        have hf4 : Family.v4.contains rec.address.ip = true := (Filter.matchesRecord_true.mp hm4).2.2.1
        have hf6 : Family.v6.contains rec.address.ip = true :=
          (Filter.matchesRecord_true.mp (beq_iff_eq.mp h6)).2.2.1
        cases hip : rec.address.ip with
        | v4 a => rw [hip] at hf6; cases hf6
        | v6 a => rw [hip] at hf4; cases hf4
      rw [h6,current_of_matches hnow hm4]
      simp only [if_true,Bool.false_eq_true,if_false]
      omega
    | false =>
      cases h6 : (v.serving now (some .v6) port).matchesRecord v.semver rec == some true with
      | true =>
        rw [current_of_matches hnow (beq_iff_eq.mp h6)]
        simp only [if_true,Bool.false_eq_true,if_false]
        omega
      | false =>
        simp only [Bool.false_eq_true,if_false]
        omega

theorem counted_any (hnow : durationToMs v.args.staleGood < now) :
    v.counted now db none none ≤
      (summary v.semver now (durationToMs v.args.staleGood) none v.codec db).good := by
  rw [good_eq]
  exact List.countP_mono_left (fun rec _ hm => current_of_matches hnow (beq_iff_eq.mp hm))

theorem health_good (v : Server) (now : Int64) (db : Db) :
    (Web.health v.codec v.semver v.args.webConfig now (.ok db)).body.good.getD 0 =
      (summary v.semver now (durationToMs v.args.staleGood) none v.codec db).good ∧
    ((Web.health v.codec v.semver v.args.webConfig now (.ok db)).code = 200 ↔
      0 < (summary v.semver now (durationToMs v.args.staleGood) none v.codec db).good) := by
  unfold Web.health
  dsimp only
  split
  · next hpos => exact ⟨rfl,fun _ => hpos,fun _ => rfl⟩
  · next hzero => exact ⟨(Nat.eq_zero_of_not_pos hzero).symm,fun h => (by cases h),fun h => absurd h hzero⟩

theorem health_covers_service (v : Server) (now : Int64) (db : Db)
    (hnow : durationToMs v.args.staleGood < now) :
    ∃ reply, Web.health v.codec v.semver v.args.webConfig now (.ok db) = reply ∧
      (reply.code = 200 ↔ ∃ rec ∈ records v.codec db, 0 < rec.lastSuccessMs.toInt ∧
        now.toInt - rec.lastSuccessMs.toInt ≤ (durationToMs v.args.staleGood).toInt) ∧
      (∀ snap, ServingCache.buildSnapshot v.codec v.semver v.srt v.args.dnsConfig v.p2pPort v.cap
        ⟨now,.ok db⟩ ⟨now,.ok db⟩ = some snap → snap.v4.length + snap.v6.length ≤ reply.body.good.getD 0) ∧
      ∀ out, Web.listRecords v.codec v.semver v.args.webConfig false now db = some out →
        out.length ≤ reply.body.good.getD 0 := by
  obtain ⟨hgood,hcode⟩ := health_good v now db
  refine ⟨_,rfl,?_,fun snap hsnap => ?_,fun out hout => ?_⟩
  · rw [hcode,good_eq,List.countP_pos_iff]
    simp only [current,decide_eq_true_eq]
  · obtain ⟨h4,h6⟩ := ServingCache.buildSnapshot_eq_some hsnap
    rw [hgood]
    exact (Nat.add_le_add (length_pool h4) (length_pool h6)).trans (counted_families hnow _)
  · rw [hgood]
    exact (length_list hout).trans (counted_any hnow)

def answeredPeer (n : Nat) (success : Int64) : PeerRecord :=
  { attemptStub ⟨.v4 (BitVec.ofNat 32 n),16111⟩ 0 with
    lastSeenMs := success, lastAttemptMs := success, lastSuccessMs := success }

def answeredStore : Db :=
  upsert Bincode.standard (answeredPeer 0x08080808 5000000)
    (upsert Bincode.standard (answeredPeer 0x01010101 100) .empty)

theorem health_covers_service_half_hour :
    durationToMs (sampleServer (.fromSecs 1800)).args.staleGood < 6000000 ∧
    (Web.health Bincode.standard ⟨fun _ => none⟩ (sampleServer (.fromSecs 1800)).args.webConfig 6000000
      (.ok answeredStore)).code = 200 ∧
    ∀ out, Web.listRecords Bincode.standard ⟨fun _ => none⟩ (sampleServer (.fromSecs 1800)).args.webConfig false
      6000000 answeredStore = some out → out.length ≤ 1 := by
  obtain ⟨reply,hreply,_,_,hlist⟩ := health_covers_service (sampleServer (.fromSecs 1800)) 6000000 answeredStore
    (by decide)
  have hgood : reply.body.good.getD 0 = 1 := by
    rw [← hreply]
    decide
  refine ⟨by decide,by decide,fun out hout => ?_⟩
  have h := hlist out hout
  rwa [hgood] at h

end Server

end DnsSeeder
