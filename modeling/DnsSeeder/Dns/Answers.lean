import DnsSeeder.Dns.Limits

namespace DnsSeeder

open Lib

inductive Outcome where
  | answered
  | empty
  | refused
  | denied
deriving DecidableEq

namespace DnsMetrics

def counter (m : DnsMetrics) : Outcome → UInt64
  | .answered => m.answered
  | .empty => m.empty
  | .refused => m.refused
  | .denied => m.denied

def total (m : DnsMetrics) : UInt64 := m.answered + m.empty + m.refused + m.denied

structure Counts (o : Outcome) (m m' : DnsMetrics) : Prop where
  one : m'.counter o = m.counter o + 1
  others : ∀ o', o' ≠ o → m'.counter o' = m.counter o'

theorem Counts.total {o : Outcome} {m m' : DnsMetrics} (h : Counts o m m') : m'.total = m.total + 1 := by
  have hval : ∀ o', m'.counter o' = m.counter o' + if o' = o then 1 else 0 := by
    intro o'
    by_cases ho : o' = o
    · rw [ho,h.one,if_pos rfl]
    · rw [h.others o' ho,if_neg ho,UInt64.add_zero]
  change m'.counter .answered + m'.counter .empty + m'.counter .refused + m'.counter .denied =
    m.counter .answered + m.counter .empty + m.counter .refused + m.counter .denied + 1
  rw [hval .answered,hval .empty,hval .refused,hval .denied]
  cases o
  all_goals
    simp only [reduceCtorEq,if_true,if_false,UInt64.add_zero]
    ac_rfl

end DnsMetrics

structure Samples (sample : List IpAddr → Nat → List IpAddr) : Prop where
  positions : ∀ pool amount, ∃ picked : List (Fin pool.length), picked.Nodup ∧
    picked.length = min amount pool.length ∧ sample pool amount = picked.map pool.get

namespace ServingCache

variable {c : Codec} {routable : IpAddr → Bool} {semver : Semver} {srt : FreshnessSort} {config : DnsConfig}
  {p2pPort : UInt16} {cap : Nat}

end ServingCache

namespace SeederHandler

variable {N : Type} {h h' : SeederHandler N} {moment : Moment} {request : Request N}

theorem addressRecord_injective (h : SeederHandler N) :
    Function.Injective (fun ip => h.addressRecord (addressData ip)) := by
  intro ip ip' heq
  have hdata : (addressData ip : RData N) = addressData ip' := (Record.mk.inj heq).2.2
  cases ip with
  | v4 a =>
    cases ip' with
    | v4 b => exact congrArg _ (RData.a.inj hdata)
    | v6 b => cases hdata
  | v6 a =>
    cases ip' with
    | v4 b => cases hdata
    | v6 b => exact congrArg _ (RData.aaaa.inj hdata)

theorem sampleAddressRecords_eq (family : Family) : h.sampleAddressRecords moment family =
    (moment.sample (moment.snapshot.pool family) h.config.maxRecords).map
      (fun ip => h.addressRecord (addressData ip)) := by
  cases family <;> rfl

structure Queried (request : Request N) (info : Question N) : Prop where
  messageType : request.messageType = .query
  opCode : request.opCode = .query
  info : requestInfo request = some info

theorem parseBasic_eq_some {info : Question N} : parseBasic request = some info ↔ Queried request info := by
  unfold parseBasic
  constructor
  · intro hparse
    split at hparse
    · cases hparse
    · next hq =>
      push Not at hq
      exact ⟨hq.1,hq.2,hparse⟩
  · intro hq
    rw [if_neg (by simp [hq.messageType,hq.opCode])]
    exact hq.info

theorem Queried.unique {info info' : Question N} (hq : Queried request info) (hq' : Queried request info') :
    info = info' := Option.some.inj (hq.info.symm.trans hq'.info)

def answering (h : SeederHandler N) (limiter : RateLimiter) (moment : Moment) (qtype : RecordType) :
    SeederHandler N :=
  { h with
    rateLimit := limiter
    metrics := h.metrics.recordAnswered (qtype = .a) (qtype = .aaaa) (h.buildAnswers moment qtype).length }

structure InZone [BEq N] (h : SeederHandler N) (info : Question N) : Prop where
  queryClass : info.queryClass = .internet
  queryType : info.queryType ∈ [RecordType.a,.aaaa,.ns,.soa]
  name : (info.name == h.apex) = true

theorem mem_allowed {qtype : RecordType} :
    qtype ∈ [RecordType.a,.aaaa,.ns,.soa] ↔ isAllowedType qtype = true := by
  cases qtype <;> simp [isAllowedType]

variable [BEq N]

theorem classify_eq_some {info : Question N} {plan : QueryPlan N} :
    h.classify info = some plan ↔ InZone h info ∧ plan = ⟨info.queryType,info.name⟩ := by
  unfold classify
  constructor
  · intro hc
    split at hc
    · cases hc
    · next hclass =>
      split at hc
      · cases hc
      · next htype =>
        split at hc
        · cases hc
        · next hname =>
          exact ⟨⟨not_not.mp hclass,mem_allowed.mpr (by simpa using htype),by simpa [bne] using hname⟩,
            (Option.some.inj hc).symm⟩
  · rintro ⟨hz,rfl⟩
    rw [if_neg (not_not.mpr hz.queryClass),if_neg (by simp [mem_allowed.mp hz.queryType]),
      if_neg (by simp [bne,hz.name])]

inductive Handles (h : SeederHandler N) (moment : Moment) (request : Request N) :
    Option (Response N) → SeederHandler N → Prop
  | unparsed (hparse : ∀ info, ¬ Queried request info) :
      Handles h moment request (some (refuse N)) h.refused
  | limited {info : Question N} {limiter : RateLimiter} (hparse : Queried request info)
      (hcheck : h.rateLimit.check request.src.ip moment.instant = some (false,limiter)) :
      Handles h moment request none { h with rateLimit := limiter, metrics := h.metrics.recordDenied }
  | unserved {info : Question N} {limiter : RateLimiter} (hparse : Queried request info)
      (hcheck : h.rateLimit.check request.src.ip moment.instant = some (true,limiter))
      (hzone : ¬ InZone h info) :
      Handles h moment request (some (refuse N))
        { h with rateLimit := limiter, metrics := h.metrics.recordRefused }
  | served {info : Question N} {limiter : RateLimiter} (hparse : Queried request info)
      (hcheck : h.rateLimit.check request.src.ip moment.instant = some (true,limiter))
      (hzone : InZone h info) :
      Handles h moment request
        (some ⟨.noError,true,(h.buildAnswer moment info.queryType).answers,
          (h.buildAnswer moment info.queryType).ns,(h.buildAnswer moment info.queryType).soa⟩)
        (answering h limiter moment info.queryType)

theorem handles_of_handleRequest {response : Option (Response N)}
    (hs : h.handleRequest moment request = some (response,h')) : Handles h moment request response h' := by
  unfold handleRequest at hs
  split at hs
  · next hparse =>
    obtain ⟨rfl,rfl⟩ := Prod.mk.inj (Option.some.inj hs)
    refine .unparsed ?_
    intro info hq
    rw [parseBasic_eq_some.mpr hq] at hparse
    cases hparse
  · next info hparse =>
    have hq := parseBasic_eq_some.mp hparse
    split at hs
    · cases hs
    · next limiter hcheck =>
      obtain ⟨rfl,rfl⟩ := Prod.mk.inj (Option.some.inj hs)
      exact .limited hq hcheck
    · next limiter hcheck =>
      obtain ⟨rfl,rfl⟩ := Prod.mk.inj (Option.some.inj hs)
      cases hclass : ({ h with rateLimit := limiter } : SeederHandler N).classify info with
      | none =>
        refine .unserved hq hcheck ?_
        intro hz
        have hsome := (classify_eq_some (h := { h with rateLimit := limiter })).mpr
          ⟨⟨hz.queryClass,hz.queryType,hz.name⟩,rfl⟩
        rw [hclass] at hsome
        cases hsome
      | some plan =>
        obtain ⟨hz,rfl⟩ := classify_eq_some.mp hclass
        exact .served hq hcheck ⟨hz.queryClass,hz.queryType,hz.name⟩

theorem samples_take : Samples (fun pool n => pool.take n) := by
  constructor
  intro pool amount
  refine ⟨(List.finRange pool.length).take amount,?_,?_,?_⟩
  · exact (List.nodup_finRange _).sublist (List.take_sublist _ _)
  · rw [List.length_take,List.length_finRange]
  · rw [List.map_take,List.map_get_finRange]

end SeederHandler

end DnsSeeder
