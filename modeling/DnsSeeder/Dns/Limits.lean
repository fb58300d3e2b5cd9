import DnsSeeder.Dns.Handler

namespace DnsSeeder

open Lib RateLimiter

structure Arrival (N : Type) where
  moment : Moment
  request : Request N

structure Sent (N : Type) where
  time : Nat
  ip : IpAddr
  response : Response N

namespace SeederHandler

variable {N : Type}

def responsesTo (ip : IpAddr) (start length : Nat) (sent : List (Sent N)) : Nat :=
  sent.countP (fun r => r.ip = ip ∧ start ≤ r.time ∧ r.time < start + length)

def timesTo (ip : IpAddr) (sent : List (Sent N)) : List Nat := (sent.filter (fun r => r.ip = ip)).map Sent.time

theorem timesTo_append (ip : IpAddr) (sent sent' : List (Sent N)) :
    timesTo ip (sent ++ sent') = timesTo ip sent ++ timesTo ip sent' := by
  simp [timesTo]

theorem responsesTo_eq (ip : IpAddr) (start length : Nat) (sent : List (Sent N)) :
    responsesTo ip start length sent =
      (timesTo ip sent).countP (fun t => start ≤ t ∧ t < start + length) := by
  simp only [responsesTo,timesTo,List.countP_map,List.countP_filter,Bool.decide_and]
  congr 1
  funext r
  simp [Bool.and_comm]

variable [BEq N]

def serve (h : SeederHandler N) (q : Arrival N) : Option (Response N) × SeederHandler N :=
  (h.handleRequest q.moment q.request).getD (none,h)

def sentBy (h : SeederHandler N) (q : Arrival N) : List (Sent N) :=
  (h.serve q).1.toList.map (fun r => ⟨q.moment.instant,q.request.src.ip,r⟩)

def transmitted (h : SeederHandler N) : List (Arrival N) → List (Sent N)
  | [] => []
  | q :: qs => h.sentBy q ++ transmitted (h.serve q).2 qs

variable {h : SeederHandler N} {q : Arrival N} {ip : IpAddr} {now : Nat} {log : List Grant}

theorem reply_rateLimit (h : SeederHandler N) (moment : Moment) (info : Question N) :
    (h.reply moment info).2.rateLimit = h.rateLimit := by
  unfold reply
  split <;> rfl

theorem transmitted_cons (h : SeederHandler N) (q : Arrival N) (qs : List (Arrival N)) :
    h.transmitted (q :: qs) = h.sentBy q ++ (h.serve q).2.transmitted qs := rfl

theorem serve_cases (hparse : (parseBasic q.request).isSome) :
    ((h.serve q).2.rateLimit = h.rateLimit ∧ (h.serve q).1 = none) ∨
    ∃ allowed, h.rateLimit.check q.request.src.ip q.moment.instant = some (allowed,(h.serve q).2.rateLimit) ∧
      (h.serve q).1.isSome = allowed := by
  obtain ⟨info,hinfo⟩ := Option.isSome_iff_exists.mp hparse
  cases hcheck : h.rateLimit.check q.request.src.ip q.moment.instant with
  | none => exact Or.inl (by simp [serve,handleRequest,hinfo,hcheck])
  | some result =>
    obtain ⟨allowed,limiter⟩ := result
    refine Or.inr ⟨allowed,?_,?_⟩
    · cases allowed <;> simp [serve,handleRequest,hinfo,hcheck,reply_rateLimit]
    · cases allowed <;> simp [serve,handleRequest,hinfo,hcheck]

structure Limits (l : RateLimiter) (w : Duration) (c : UInt32) : Prop where
  window : l.window = w
  capacity : l.capacity = c

theorem serve_limits {w : Duration} {c : UInt32} (hl : Limits h.rateLimit w c)
    (hparse : (parseBasic q.request).isSome) : Limits (h.serve q).2.rateLimit w c := by
  rcases serve_cases (h := h) hparse with ⟨hsame,_⟩ | ⟨allowed,hcheck,_⟩
  · rw [hsame]
    exact hl
  · obtain ⟨hw,hc⟩ := check_config hcheck
    exact ⟨hw.trans hl.window,hc.trans hl.capacity⟩

theorem serve_metered {w : Duration} {c : UInt32} (hl : Limits h.rateLimit w c) (hw : 0 < w.asNanos)
    (hc : c ≠ 0) (hm : Metered h.rateLimit ip now log) (hle : now ≤ q.moment.instant)
    (hparse : (parseBasic q.request).isSome) :
    ∃ log', Metered (h.serve q).2.rateLimit ip q.moment.instant (log ++ log') ∧
      log'.map Grant.time = timesTo ip (h.sentBy q) := by
  have hlater := hm.later hle
  rcases serve_cases (h := h) hparse with ⟨hsame,hnone⟩ | ⟨allowed,hcheck,hsent⟩
  · refine ⟨[],?_,by simp [sentBy,timesTo,hnone]⟩
    rw [hsame,List.append_nil]
    exact hlater
  · by_cases hip : ip = q.request.src.ip
    · subst hip
      obtain ⟨log',hmetered,⟨rfl,rfl⟩ | ⟨e,rfl,rfl⟩⟩ :=
        check_self hlater (hl.window ▸ hw) (hl.capacity ▸ hc) hcheck
      · refine ⟨[],by rwa [List.append_nil],?_⟩
        have hnone : (h.serve q).1 = none := by simpa using hsent
        simp [sentBy,timesTo,hnone]
      · obtain ⟨r,hr⟩ := Option.isSome_iff_exists.mp hsent
        exact ⟨[⟨q.moment.instant,e⟩],hmetered,by simp [sentBy,timesTo,hr]⟩
    · refine ⟨[],?_,?_⟩
      · rw [List.append_nil]
        exact check_other hlater hip hcheck
      · cases hr : (h.serve q).1 <;> simp [sentBy,timesTo,hr,Ne.symm hip]

theorem transmitted_paced {w : Duration} {c : UInt32} {qs : List (Arrival N)} (hl : Limits h.rateLimit w c)
    (hw : 0 < w.asNanos) (hc : c ≠ 0) (hm : Metered h.rateLimit ip now log)
    (hlater : ∀ q ∈ qs, now ≤ q.moment.instant)
    (hsorted : qs.Pairwise (fun q q' => q.moment.instant ≤ q'.moment.instant))
    (hparse : ∀ q ∈ qs, (parseBasic q.request).isSome) :
    ∃ log', Paced w.asNanos c.toNat (log ++ log') ∧ log'.map Grant.time = timesTo ip (h.transmitted qs) := by
  induction qs generalizing h now log with
  | nil =>
    refine ⟨[],?_,rfl⟩
    have hpaced := hm.paced
    rwa [hl.window,hl.capacity,← List.append_nil log] at hpaced
  | cons q qs ih =>
    rw [List.pairwise_cons] at hsorted
    obtain ⟨log₁,hm₁,htimes₁⟩ := serve_metered hl hw hc hm (hlater q List.mem_cons_self)
      (hparse q List.mem_cons_self)
    obtain ⟨log₂,hpaced,htimes₂⟩ := ih (serve_limits hl (hparse q List.mem_cons_self)) hm₁ hsorted.1 hsorted.2
      (fun q' hq' => hparse q' (List.mem_cons_of_mem _ hq'))
    refine ⟨log₁ ++ log₂,by rwa [← List.append_assoc],?_⟩
    rw [transmitted_cons,timesTo_append,List.map_append,htimes₁,htimes₂]

theorem responses_bounded {config : DnsConfig} {apex nameserver hostmaster : N} {qs : List (Arrival N)}
    (hc : config.queriesPerIpPerSecond ≠ 0) (hw : 0 < config.rateLimitWindow.asNanos)
    (hsorted : qs.Pairwise (fun q q' => q.moment.instant ≤ q'.moment.instant))
    (hparse : ∀ q ∈ qs, (parseBasic q.request).isSome) (ip : IpAddr) (start : Nat) :
    responsesTo ip start config.rateLimitWindow.asNanos
      ((new config apex nameserver hostmaster).transmitted qs) ≤ 2 * config.queriesPerIpPerSecond.toNat := by
  have hm : Metered (new config apex nameserver hostmaster).rateLimit ip 0 [] := metered_new _ _ ip 0
  have hl : Limits (new config apex nameserver hostmaster).rateLimit config.rateLimitWindow
      config.queriesPerIpPerSecond := ⟨rfl,rfl⟩
  obtain ⟨log,hpaced,htimes⟩ := transmitted_paced hl hw hc hm (fun _ _ => Nat.zero_le _) hsorted hparse
  rw [responsesTo_eq,← htimes,List.countP_map]
  exact hpaced.window_le start

theorem serve_unparsed (hparse : parseBasic q.request = none) : h.serve q = (some (refuse N),h.refused) := by
  simp [serve,handleRequest,hparse]

theorem responsesTo_flood {moment : Moment} {request : Request N} (hparse : parseBasic request = none)
    {length : Nat} (hw : 0 < length) (n : Nat) (h : SeederHandler N) :
    responsesTo request.src.ip moment.instant length
      (h.transmitted (List.replicate n ⟨moment,request⟩)) = n := by
  induction n generalizing h with
  | zero => rfl
  | succ n ih =>
    have hserve : h.serve ⟨moment,request⟩ = (some (refuse N),h.refused) := serve_unparsed hparse
    rw [List.replicate_succ,transmitted_cons,responsesTo,List.countP_append]
    have hrest := ih (h.serve ⟨moment,request⟩).2
    rw [responsesTo] at hrest
    rw [hrest]
    simp [sentBy,hserve,hw]
    omega

theorem responses_bounded_iff (config : DnsConfig) (apex nameserver hostmaster : N)
    (hc : config.queriesPerIpPerSecond ≠ 0) (hw : 0 < config.rateLimitWindow.asNanos)
    (P : Request N → Prop) :
    (∀ qs : List (Arrival N), (∀ q ∈ qs, P q.request) →
      qs.Pairwise (fun q q' => q.moment.instant ≤ q'.moment.instant) → ∀ ip start,
      responsesTo ip start config.rateLimitWindow.asNanos
        ((new config apex nameserver hostmaster).transmitted qs) ≤ 2 * config.queriesPerIpPerSecond.toNat) ↔
    ∀ request, P request → (parseBasic request).isSome := by
  constructor
  · intro hbound request hP
    by_contra hparse
    have hparse : parseBasic request = none := by simpa using hparse
    let moment : Moment := ⟨0,0,⟨[],[]⟩,fun pool n => pool.take n⟩
    have hflood := hbound (List.replicate (2 * config.queriesPerIpPerSecond.toNat + 1) ⟨moment,request⟩)
      (fun q hq => by rw [List.eq_of_mem_replicate hq]; exact hP)
      (List.pairwise_replicate.mpr (Or.inr (le_refl _))) request.src.ip moment.instant
    rw [responsesTo_flood hparse hw] at hflood
    omega
  · intro hparse qs hqs hsorted ip start
    exact responses_bounded hc hw hsorted (fun q hq => hparse q.request (hqs q hq)) ip start

end SeederHandler

def apexQuestion : Question String := ⟨"seed.example.",.a,.internet⟩

def statusMessage : Request String := ⟨samplePeer,.query,.status,[apexQuestion]⟩

def apexQuery : Request String := ⟨samplePeer,.query,.query,[apexQuestion]⟩

def atStart : Moment := ⟨0,1800000000,⟨[],[]⟩,fun pool n => pool.take n⟩

def sampleHandler : SeederHandler String :=
  .new ServingCache.sampleDns "seed.example." "ns.example." "hostmaster.seed.example."

namespace SeederHandler

open ServingCache

theorem responses_bounded_queries :
    responsesTo samplePeer.ip 0 sampleDns.rateLimitWindow.asNanos
      (sampleHandler.transmitted (List.replicate 4 ⟨atStart,apexQuery⟩)) ≤
        2 * sampleDns.queriesPerIpPerSecond.toNat :=
  (responses_bounded_iff sampleDns "seed.example." "ns.example." "hostmaster.seed.example." (by decide)
    (by decide) (fun request => request = apexQuery)).mpr
    (fun request hr => by subst hr; decide) _ (fun q hq => by rw [List.eq_of_mem_replicate hq])
    (List.pairwise_replicate.mpr (Or.inr (le_refl _))) samplePeer.ip 0

theorem status_flood_answered :
    responsesTo samplePeer.ip 0 sampleDns.rateLimitWindow.asNanos
      (sampleHandler.transmitted (List.replicate 3 ⟨atStart,statusMessage⟩)) = 3 ∧
    2 * sampleDns.queriesPerIpPerSecond.toNat < 3 := by
  decide

end SeederHandler

end DnsSeeder
