import DnsSeeder.Crawler.Classify
import DnsSeeder.Crawler.History
import DnsSeeder.Crawler.Tick
import DnsSeeder.RateCounters
import DnsSeeder.Store.Filter

namespace DnsSeeder

open Lib PeerStore

namespace ProbeInitializer

def probeRepeatDelay : Duration := ⟨0,250000000,by decide⟩

def lifetimeSlack : Duration := .fromSecs 15

end ProbeInitializer

open ProbeInitializer

def ProbeInitializerConfig.maxConnectionLifetime (config : ProbeInitializerConfig) : Option Duration :=
  let rounds := rounds config.probesPerPeer
  (config.probeTimeout.checkedMul (4 + rounds)).bind (fun waits =>
    (probeRepeatDelay.checkedMul rounds).bind (fun delays =>
      (waits.checkedAdd delays).bind (fun total => total.checkedAdd lifetimeSlack)))

def lifetimeNanos (config : ProbeInitializerConfig) : Nat :=
  config.probeTimeout.asNanos * (4 + rounds config.probesPerPeer) +
    probeRepeatDelay.asNanos * rounds config.probesPerPeer + lifetimeSlack.asNanos

theorem delays_fit (config : ProbeInitializerConfig) :
    probeRepeatDelay.asNanos * rounds config.probesPerPeer < 2^64 * 10^9 := by
  have hdelay : probeRepeatDelay.asNanos = 250000000 := by decide
  have hrounds := config.probesPerPeer.toNat_lt
  rw [hdelay,rounds]
  omega

theorem maxConnectionLifetime_eq (config : ProbeInitializerConfig) :
    config.maxConnectionLifetime = Duration.ofNanos (lifetimeNanos config) :=
  Duration.checkedMul_sum _ probeRepeatDelay lifetimeSlack (delays_fit config)

theorem maxConnectionLifetime_isSome_iff (config : ProbeInitializerConfig) :
    config.maxConnectionLifetime.isSome ↔ lifetimeNanos config < 2^64 * 10^9 := by
  rw [maxConnectionLifetime_eq,Duration.ofNanos_isSome_iff]

namespace RateLimiter

variable {capacity : UInt32} {window : Duration}

theorem check_isSome_iff (l : RateLimiter) (ip : IpAddr) (now : Nat) :
    (l.check ip now).isSome ↔ (l.capacity ≠ 0 → now + l.window.asNanos < 2^63 * 10^9) := by
  rw [check]
  split
  · next hzero => simp [hzero]
  · next hzero =>
    rw [Option.isSome_map,instantAdd,Option.isSome_ite]
    exact (imp_iff_right hzero).symm

theorem check_after_isSome_iff (calls : Calls) (ip : IpAddr) (now : Nat) :
    (((new capacity window).after calls).check ip now).isSome ↔
      (capacity ≠ 0 → now + window.asNanos < 2^63 * 10^9) := by
  obtain ⟨hw,hcap⟩ := after_config (l := new capacity window) calls
  rw [check_isSome_iff,hw,hcap]
  rfl

end RateLimiter

structure Completes (d : Node) (semver : Semver) (config : ProbeInitializerConfig) (limiter : RateLimiter)
    (db : Db) (now : Int64) (ip : IpAddr) (instant : Nat) : Prop where
  due : (dueForProbe d.codec (System.dueQuery d now) (System.fetchTarget d) db).isSome
  eligible : ∀ rec ∈ records d.codec db, ((System.dueQuery d now).eligible rec).isSome
  matched : ∀ filter : Filter, filter.nowMs = now → ∀ rec ∈ records d.codec db,
    (filter.matchesRecord semver rec).isSome
  lifetime : config.maxConnectionLifetime.isSome
  limited : (limiter.check ip instant).isSome

structure Fits (d : Node) (config : ProbeInitializerConfig) (capacity : UInt32) (window : Duration)
    (instant : Nat) : Prop where
  staleGood : 4 * d.config.staleGood.asMillis < 2^63
  probeTimeout : lifetimeNanos config < 2^64 * 10^9
  rateLimitWindow : capacity ≠ 0 → instant + window.asNanos < 2^63 * 10^9

variable {d : Node} {db : Db} {t₀ u now : Int64}

theorem due_isSome_iff (hx : Indexed d.codec db) :
    (dueForProbe d.codec (System.dueQuery d now) (System.fetchTarget d) db).isSome ↔
      4 * d.config.staleGood.asMillis < 2^63 := by
  rw [← four_durationToMs_lt_iff]
  by_cases hfit : 4 * (durationToMs d.config.staleGood).toInt < 2^63
  · rw [Tick.fetch_fits hx hfit]
    exact iff_of_true rfl hfit
  · rw [Tick.fetch_overflows db hfit]
    exact iff_of_false Bool.false_ne_true hfit

theorem dueQuery_eligible_isSome (hfit : 4 * d.config.staleGood.asMillis < 2^63) (rec : PeerRecord) :
    ((System.dueQuery d now).eligible rec).isSome := by
  have hfit' : 4 * (System.dueQuery d now).staleGoodMs.toInt < 2^63 := by
    rw [System.dueQuery]
    exact (four_durationToMs_lt_iff _).mpr hfit
  have hnonneg := Tick.dueQuery_nonneg d now
  exact (attemptCeiling_covers hnonneg.1 hfit' hnonneg.2).1 rec

theorem produced_matches_isSome {c : Codec} {routable : IpAddr → Bool} (semver : Semver) (h₀ : 0 ≤ t₀)
    (hnow : 0 ≤ now) (hdb : System.Produced c routable t₀ db u) {filter : Filter} (hfilter : filter.nowMs = now)
    {rec : PeerRecord} (hrec : rec ∈ records c db) : (filter.matchesRecord semver rec).isSome := by
  have hkept := System.produced_wellKept h₀ hdb
  have hd := hkept.dated rec.address rec ((mem_records hkept.keyed rec).mp hrec)
  exact Filter.matchesRecord_isSome semver (hfilter ▸ hnow) hd.seen.1 hd.success.1

theorem completes_iff_fits (d : Node) (semver : Semver) (config : ProbeInitializerConfig)
    (capacity : UInt32) (window : Duration) (h₀ : 0 ≤ t₀) (hnow : 0 ≤ now)
    (hdb : System.Produced d.codec d.routable t₀ db u) (calls : RateLimiter.Calls) (ip : IpAddr)
    (instant : Nat) :
    Completes d semver config ((RateLimiter.new capacity window).after calls) db now ip instant ↔
      Fits d config capacity window instant := by
  have hx : Indexed d.codec db := (System.produced_wellKept h₀ hdb).exact.index
  constructor
  · intro h
    exact ⟨(due_isSome_iff hx).mp h.due,(maxConnectionLifetime_isSome_iff config).mp h.lifetime,
      (RateLimiter.check_after_isSome_iff calls ip instant).mp h.limited⟩
  · intro h
    exact {
      due := (due_isSome_iff hx).mpr h.staleGood
      eligible := fun rec _ => dueQuery_eligible_isSome h.staleGood rec
      matched := fun _ hfilter _ hrec => produced_matches_isSome semver h₀ hnow hdb hfilter hrec
      lifetime := (maxConnectionLifetime_isSome_iff config).mpr h.probeTimeout
      limited := (RateLimiter.check_after_isSome_iff calls ip instant).mpr h.rateLimitWindow }

theorem completes_iff_fits_defaults :
    ∃ s, run (System.step sampleNode)
        (System.start sampleNode (openStore Bincode.standard (.compatible .empty)) 1)
        System.seedMapped = some s ∧
      (records Bincode.standard s.db).length = 1 ∧
      Completes sampleNode ⟨fun _ => none⟩ ⟨"mainnet",.fromSecs 4,3⟩
        ((RateLimiter.new 5 (.fromSecs 60)).after [(samplePeer.ip,0)]) s.db 1800000000000 samplePeer.ip 7 := by
  refine ⟨_,rfl,by decide,?_⟩
  have hdb : System.Produced sampleNode.codec sampleNode.routable 1 _ _ :=
    .run sampleNode.config System.seedMapped .empty (Int64.le_refl _) rfl
  exact (completes_iff_fits sampleNode ⟨fun _ => none⟩ ⟨"mainnet",.fromSecs 4,3⟩ 5 (.fromSecs 60) (by decide)
    (by decide) hdb [(samplePeer.ip,0)] samplePeer.ip 7).mpr ⟨by decide,by decide,by decide⟩

def endless : Duration := .fromSecs 18446744073709551615

def patientNode : Node := { sampleNode with config := { sampleNode.config with staleGood := endless } }

theorem endless_durations_panic :
    dueForProbe patientNode.codec (System.dueQuery patientNode 1800000000000) (System.fetchTarget patientNode)
      .empty = none ∧
    ProbeInitializerConfig.maxConnectionLifetime ⟨"mainnet",endless,3⟩ = none ∧
    (RateLimiter.new 5 endless).check samplePeer.ip 0 = none :=
  ⟨by decide,by decide,by decide⟩

end DnsSeeder
