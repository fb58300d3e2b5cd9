import Mathlib.Data.UInt
import DnsSeeder.Web.AuthGate

namespace DnsSeeder

open Lib PeerStore

namespace Web

namespace Phase

def begun : Phase → Bool
  | .arrived => false
  | _ => true

def tallies : Phase → Bool
  | .tallying _ _ => true
  | _ => false

def answers (e : ApiError) : Phase → Bool
  | .done response => response.isError e
  | _ => false

def rejected (p : Phase) : Bool := p.tallies || PostRejection.all.any (fun reason => p.answers reason.apiError)

def servesPeer : Phase → Bool
  | .done response => match response.body with
    | .peer _ => true
    | _ => false
  | _ => false

def metered : Phase → Bool
  | .arrived => false
  | .counted => false
  | .authorized => false
  | .panicked => false
  | .rejecting reason _ => reason ≠ .auth
  | .tallying reason _ => reason ≠ .auth
  | .done response => !response.isError PostRejection.auth.apiError
  | _ => true

end Phase

namespace Task

def begun (t : Task) : Bool := t.phase.begun

def tallies (t : Task) : Bool := t.phase.tallies

def answers (e : ApiError) (t : Task) : Bool := t.phase.answers e

def rejected (t : Task) : Bool := t.phase.rejected

def accepted (t : Task) : Bool := t.request.route.isSubmit && t.phase.servesPeer

def checked (v : Gateway) (t : Task) : Bool :=
  v.config.postRateLimit ≠ 0 && t.request.route.isSubmit && t.phase.metered

end Task

theorem HttpResponse.servesPeer_neutral {r : HttpResponse} (h : r.neutral = true) :
    (Phase.done r).servesPeer = false := by
  unfold HttpResponse.neutral at h
  unfold Phase.servesPeer
  cases hb : r.body <;> simp_all

theorem Phase.answers_neutral {r : HttpResponse} (h : r.neutral = true) (reason : PostRejection) :
    (Phase.done r).answers reason.apiError = false := r.isError_neutral h reason

theorem Phase.rejected_neutral {r : HttpResponse} (h : r.neutral = true) : (Phase.done r).rejected = false := by
  simp [Phase.rejected,Phase.tallies,Phase.answers,r.isError_neutral h]

theorem eq_of_isError {r : HttpResponse} {e : ApiError} (h : r.isError e = true) : r = e.intoResponse := by
  obtain ⟨status,body⟩ := r
  cases body with
  | error st message =>
    simp only [HttpResponse.isError,Bool.and_eq_true,beq_iff_eq] at h
    obtain ⟨⟨rfl,rfl⟩,rfl⟩ := h
    rfl
  | _ => cases h

theorem WebMetrics.addReason_frame (m : WebMetrics) (reason : PostRejection) :
    (m.addReason reason).requests = m.requests ∧ (m.addReason reason).accepted = m.accepted ∧
      (m.addReason reason).rejected = m.rejected := by
  cases reason <;> exact ⟨rfl,rfl,rfl⟩

theorem WebMetrics.counter_addReason (m : WebMetrics) (reason reason' : PostRejection) :
    (m.addReason reason).counter reason' =
      m.counter reason' + UInt64.ofNat (decide (reason = reason')).toNat := by
  cases reason <;> cases reason' <;> simp [WebMetrics.addReason,WebMetrics.counter]

theorem check_ops {l l' : RateLimiter} {ip : IpAddr} {now : Nat} {allowed : Bool}
    (h : l.check ip now = some (allowed,l')) :
    l'.ops = l.ops + UInt64.ofNat (decide (l.capacity ≠ 0)).toNat := by
  unfold RateLimiter.check at h
  split at h
  · next hzero =>
    obtain ⟨_,rfl⟩ := Prod.mk.inj (Option.some.inj h)
    simp [hzero]
  · next hpos =>
    obtain ⟨refillAt,_,heq⟩ := Option.map_eq_some_iff.mp h
    have hops : ∀ k : RateLimiter, (RateLimiter.maybeSweep k now).ops = k.ops + 1 := by
      intro k
      unfold RateLimiter.maybeSweep
      split <;> rfl
    simp only [hpos,ne_eq,not_false_eq_true,decide_true]
    dsimp only at heq
    split at heq <;> obtain ⟨_,rfl⟩ := Prod.mk.inj heq <;> exact hops _

theorem Route.not_isSubmit_of_isGet {r : Route} (h : r.isGet = true) : r.isSubmit = false := by
  cases r with
  | get _ => rfl
  | _ => cases h

theorem Route.not_isSubmit_of_isDelete {r : Route} (h : r.isDelete = true) : r.isSubmit = false := by
  cases r with
  | delete _ => rfl
  | _ => cases h

theorem Route.not_isSubmit_of_open {r : Route} (h : r.gated = false) : r.isSubmit = false := by
  cases r with
  | submit _ => cases h
  | _ => rfl

namespace Gateway

variable {v : Gateway} {s s' : Shared} {q : HttpRequest} {p p' : Phase}

theorem requests_turns (h : Turns v s q p s' p') :
    s'.metrics.requests + UInt64.ofNat p.begun.toNat = s.metrics.requests + UInt64.ofNat p'.begun.toNat := by
  cases h with
  | count => exact UInt64.add_zero _
  | @tally reason error => exact congrArg (· + 1) (s.metrics.addReason_frame reason).1
  | _ => rfl

theorem rejected_turns (hp : v.InPlace q p) (h : Turns v s q p s' p') :
    s'.metrics.rejected + UInt64.ofNat p.rejected.toNat =
      s.metrics.rejected + UInt64.ofNat p'.rejected.toNat := by
  cases h with
  | reply _ neutral => rw [Phase.rejected_neutral neutral]; rfl
  | reject => exact UInt64.add_zero _
  | @tally reason error =>
    obtain ⟨rfl,_⟩ := hp
    have hdone : (Phase.done reason.apiError.intoResponse).rejected = true := by cases reason <;> decide
    rw [hdone]
    exact congrArg (· + 1) (s.metrics.addReason_frame reason).2.2
  | unfound neutral => rw [Phase.rejected_neutral neutral]; rfl
  | removed neutral => rw [Phase.rejected_neutral neutral]; rfl
  | cached _ neutral => rw [Phase.rejected_neutral neutral]; rfl
  | uncollected neutral => rw [Phase.rejected_neutral neutral]; rfl
  | put neutral => rw [Phase.rejected_neutral neutral]; rfl
  | report neutral => rw [Phase.rejected_neutral neutral]; rfl
  | unsummed neutral => rw [Phase.rejected_neutral neutral]; rfl
  | _ => rfl

theorem counter_turns (reason : PostRejection) (hp : v.InPlace q p) (h : Turns v s q p s' p') :
    s'.metrics.counter reason + UInt64.ofNat (p.answers reason.apiError).toNat =
      s.metrics.counter reason + UInt64.ofNat (p'.answers reason.apiError).toNat := by
  cases h with
  | reply _ neutral => rw [Phase.answers_neutral neutral]; rfl
  | @tally reason' error =>
    obtain ⟨rfl,_⟩ := hp
    have hdone : (Phase.done reason'.apiError.intoResponse).answers reason.apiError =
        decide (reason' = reason) := isError_reason reason' reason
    rw [hdone,WebMetrics.counter_addReason]
    exact UInt64.add_zero _
  | unfound neutral => rw [Phase.answers_neutral neutral]; rfl
  | removed neutral => rw [Phase.answers_neutral neutral]; rfl
  | cached _ neutral => rw [Phase.answers_neutral neutral]; rfl
  | uncollected neutral => rw [Phase.answers_neutral neutral]; rfl
  | put neutral => rw [Phase.answers_neutral neutral]; rfl
  | report neutral => rw [Phase.answers_neutral neutral]; rfl
  | unsummed neutral => rw [Phase.answers_neutral neutral]; rfl
  | count => cases reason <;> rfl
  | reject => cases reason <;> rfl
  | accept => cases reason <;> rfl
  | _ => rfl

theorem accepted_turns (hp : v.InPlace q p) (h : Turns v s q p s' p') :
    s'.metrics.accepted + UInt64.ofNat (q.route.isSubmit && p.servesPeer).toNat =
      s.metrics.accepted + UInt64.ofNat (q.route.isSubmit && p'.servesPeer).toNat := by
  cases h with
  | reply _ neutral => rw [HttpResponse.servesPeer_neutral neutral]; rfl
  | @tally reason error =>
    rw [(s.metrics.addReason_frame reason).2.1]
    rfl
  | accept =>
    rw [hp.2]
    exact UInt64.add_zero _
  | found =>
    have hget := Route.not_isSubmit_of_isGet hp.2
    rw [hget]
    rfl
  | unfound neutral => rw [HttpResponse.servesPeer_neutral neutral]; rfl
  | removed neutral => rw [HttpResponse.servesPeer_neutral neutral]; rfl
  | cached _ neutral => rw [HttpResponse.servesPeer_neutral neutral]; rfl
  | uncollected neutral => rw [HttpResponse.servesPeer_neutral neutral]; rfl
  | put neutral => rw [HttpResponse.servesPeer_neutral neutral]; rfl
  | report neutral => rw [HttpResponse.servesPeer_neutral neutral]; rfl
  | unsummed neutral => rw [HttpResponse.servesPeer_neutral neutral]; rfl
  | _ => rfl

theorem ops_frame (hq : q.route.isSubmit = false) (h : Turns v s q p s' p') :
    s'.limiter.ops = s.limiter.ops := by
  cases h with
  | submit route _ => rw [route] at hq; cases hq
  | decline _ route _ _ _ => rw [route] at hq; cases hq
  | _ => rfl

theorem ops_submit (hs : v.Configured s) (hp : v.InPlace q p) (hq : q.route.isSubmit = true)
    (h : Turns v s q p s' p') :
    s'.limiter.ops + UInt64.ofNat (decide (v.config.postRateLimit ≠ 0) && p.metered).toNat =
      s.limiter.ops + UInt64.ofNat (decide (v.config.postRateLimit ≠ 0) && p'.metered).toNat := by
  have hconfigured : s.limiter.capacity = v.config.postRateLimit := hs
  have hnot : q.route.isSubmit = false → False := fun hno => Bool.noConfusion (hq.symm.trans hno)
  cases h with
  | reply route _ => exact (hnot route).elim
  | submit _ check =>
    rw [check_ops check,hconfigured]
    simp [Phase.metered]
  | decline reason _ check _ other =>
    rw [check_ops check,hconfigured]
    simp [Phase.metered,other]
  | lookup route => exact (hnot (by rw [route]; rfl)).elim
  | remove route => exact (hnot (by rw [route]; rfl)).elim
  | cached route _ => exact (hnot (Route.not_isSubmit_of_open route)).elim
  | missed route => exact (hnot (Route.not_isSubmit_of_open route)).elim
  | check route => exact (hnot (Route.not_isSubmit_of_open route)).elim
  | summarize route => exact (hnot (by rw [route]; rfl)).elim
  | @tally reason error =>
    obtain ⟨rfl,_⟩ := hp
    have hdone : (Phase.done reason.apiError.intoResponse).metered = decide (reason ≠ .auth) := by
      cases reason <;> decide
    rw [hdone]
    rfl
  | found => exact (hnot (Route.not_isSubmit_of_isGet hp.2)).elim
  | unfound _ => exact (hnot (Route.not_isSubmit_of_isGet hp.2)).elim
  | unfiltered => exact (hnot (Route.not_isSubmit_of_isGet hp.2)).elim
  | removed _ => exact (hnot (Route.not_isSubmit_of_isDelete hp.2)).elim
  | uncollected _ => exact (hnot (Route.not_isSubmit_of_open hp)).elim
  | unmatched => exact (hnot (Route.not_isSubmit_of_open hp)).elim
  | put _ => exact (hnot (Route.not_isSubmit_of_open hp)).elim
  | report _ => exact (hnot (Route.not_isSubmit_of_open hp)).elim
  | unsummed _ =>
    have hroute : q.route = .metrics := hp
    exact (hnot (by rw [hroute]; rfl)).elim
  | _ => rfl

theorem ops_turns (hs : v.Configured s) (hp : v.InPlace q p) (h : Turns v s q p s' p') :
    s'.limiter.ops + UInt64.ofNat (Task.checked v ⟨q,p⟩).toNat =
      s.limiter.ops + UInt64.ofNat (Task.checked v ⟨q,p'⟩).toNat := by
  cases hq : q.route.isSubmit with
  | false => simp [Task.checked,hq,ops_frame hq h]
  | true => simpa [Task.checked,hq] using ops_submit hs hp hq h

theorem tallies_of_turns {value : Shared → UInt64} {P : Task → Bool} (haccept : ∀ q, P ⟨q,.arrived⟩ = false)
    (hturn : ∀ s q p s' p', v.Configured s → v.InPlace q p → Turns v s q p s' p' →
      value s' + UInt64.ofNat (P ⟨q,p⟩).toNat = value s + UInt64.ofNat (P ⟨q,p'⟩).toNat)
    (hambient : ∀ s db, value { s with db } = value s) :
    v.server.Tallies v.Configured v.Ok value P where
  accept := haccept
  turn s t i s' t' hs ht h := by
    obtain ⟨q,p'⟩ := t'
    obtain ⟨rfl,hturns⟩ := turns_of_server h
    exact hturn s t.request t.phase s' p' hs ht hturns
  ambient s op := hambient s _

variable {db : Db} {es : List (ServerEvent HttpRequest Instant StoreOp)} {t : Served Shared Task}

theorem tally_boot (value : Shared → UInt64) {P : Task → Bool} (hv : v.server.Tallies v.Configured v.Ok value P)
    (hzero : value (v.boot db) = 0) (h : run v.server.step (.start (v.boot db)) es = some t) :
    value t.shared = UInt64.ofNat (t.count P) :=
  TaskServer.tally_run (keeps_ok v) hv (rfl : v.Configured (v.boot db)) hzero h

theorem counter_run (h : run v.server.step (.start (v.boot db)) es = some t) (reason : PostRejection) :
    t.shared.metrics.counter reason = UInt64.ofNat (t.count (Task.answers reason.apiError)) :=
  tally_boot (fun s => s.metrics.counter reason)
    (tallies_of_turns (fun _ => rfl) (fun _ _ _ _ _ _ hp h => counter_turns reason hp h) (fun _ _ => rfl))
    (by cases reason <;> rfl) h

theorem ops_run (h : run v.server.step (.start (v.boot db)) es = some t) :
    t.shared.limiter.ops = UInt64.ofNat (t.count (Task.checked v)) :=
  tally_boot (fun s => s.limiter.ops)
    (tallies_of_turns (fun q => by simp [Task.checked,Phase.metered])
      (fun _ _ _ _ _ hs hp h => ops_turns hs hp h)
      (fun _ _ => rfl)) rfl h

theorem rejected_run (h : run v.server.step (.start (v.boot db)) es = some t) :
    t.shared.metrics.rejected = UInt64.ofNat (t.count Task.rejected) :=
  tally_boot (fun s => s.metrics.rejected)
    (tallies_of_turns (fun _ => rfl) (fun _ _ _ _ _ _ hp h => rejected_turns hp h) (fun _ _ => rfl)) rfl h

theorem rejected_parts (t : Task) : t.rejected.toNat =
    ((Task.tallies :: PostRejection.all.map (fun reason => Task.answers reason.apiError)).map
      (fun R => (R t).toNat)).sum := by
  obtain ⟨q,p⟩ := t
  cases p with
  | done response =>
    by_cases hany : ∃ reason : PostRejection, response.isError reason.apiError = true
    · obtain ⟨reason,herr⟩ := hany
      obtain rfl := eq_of_isError herr
      cases reason <;>
        simp [Task.rejected,Phase.rejected,Task.tallies,Phase.tallies,Task.answers,Phase.answers,
          PostRejection.all,isError_reason]
    · have hnone : ∀ reason : PostRejection, response.isError reason.apiError = false :=
        fun reason => Bool.eq_false_iff.mpr (fun herr => hany ⟨reason,herr⟩)
      simp [Task.rejected,Phase.rejected,Task.tallies,Phase.tallies,Task.answers,Phase.answers,
        PostRejection.all,hnone]
  | _ => rfl

theorem requests_accounted_for (v : Gateway) (db : Db) (es : List (ServerEvent HttpRequest Instant StoreOp))
    (t : Served Shared Task) (h : run v.server.step (.start (v.boot db)) es = some t) :
    t.shared.metrics.requests = UInt64.ofNat (t.count Task.begun) ∧
    t.shared.metrics.accepted = UInt64.ofNat (t.count Task.accepted) ∧
    (∀ reason, t.shared.metrics.counter reason = UInt64.ofNat (t.count (Task.answers reason.apiError))) ∧
    t.shared.metrics.rejected = UInt64.ofNat (t.count Task.tallies) +
      (PostRejection.all.map t.shared.metrics.counter).sum ∧
    t.shared.limiter.ops = UInt64.ofNat (t.count (Task.checked v)) := by
  refine ⟨?_,?_,counter_run h,?_,ops_run h⟩
  · exact tally_boot (fun s => s.metrics.requests)
      (tallies_of_turns (fun _ => rfl) (fun _ _ _ _ _ _ _ h => requests_turns h) (fun _ _ => rfl)) rfl h
  · exact tally_boot (fun s => s.metrics.accepted)
      (tallies_of_turns (fun q => by simp [Task.accepted,Phase.servesPeer])
        (fun _ _ _ _ _ _ hp h => accepted_turns hp h) (fun _ _ => rfl)) rfl h
  · rw [rejected_run h,Served.count_sum rejected_parts]
    simp only [PostRejection.all,List.map_cons,List.map_nil,List.sum_cons,List.sum_nil,UInt64.ofNat_add,
      counter_run h]
    rfl

def strangers : List (ServerEvent HttpRequest Instant StoreOp) :=
  [.arrive 0 (calling (.submit (.ok "8.8.8.8:16111")) none),
    .arrive 1 (calling (.submit (.ok "not an address")) (some "secret")),.advance 1 atOnce,.advance 0 atOnce,
    .advance 0 atOnce,.advance 1 atOnce,.advance 1 atOnce,.advance 0 atOnce,.advance 1 atOnce,.advance 0 atOnce]

theorem requests_accounted_for_strangers : ∃ t,
    run sampleGateway.server.step (.start (sampleGateway.boot .empty)) strangers = some t ∧
    t.shared.metrics.rejected = 2 ∧ t.count Task.tallies = 1 ∧
    t.shared.metrics.rejected = UInt64.ofNat (t.count Task.tallies) +
      (PostRejection.all.map t.shared.metrics.counter).sum := by
  obtain ⟨t,ht⟩ : ∃ t, run sampleGateway.server.step (.start (sampleGateway.boot .empty)) strangers = some t :=
    ⟨_,rfl⟩
  have h := requests_accounted_for sampleGateway .empty strangers t ht
  refine ⟨t,ht,?_,?_,h.2.2.2.1⟩
  · obtain rfl := Option.some.inj ht
    rfl
  · obtain rfl := Option.some.inj ht
    rfl

-- The counters are Relaxed atomics on several words; the loads below are read as sequentially consistent.
def Snapped (t : Served Shared Task) (seen : List UInt64) : Prop :=
  ∀ denied, seen[4]? = some denied → denied.toNat ≤ t.count (Task.answers PostRejection.rateLimit.apiError) ∧
    ∀ ops, seen[8]? = some ops → denied ≤ ops

structure Coherent (t : Served Shared Task) (p : Phase) : Prop where
  loading : ∀ seen, p = .loading seen → seen.length ≤ 9 ∧ Snapped t seen
  snapshot : ∀ seen, p = .done ⟨200,.snapshot seen⟩ → seen.length = 9 ∧ Snapped t seen

theorem Snapped.mono {t u : Served Shared Task} {seen : List UInt64} (h : Snapped t seen)
    (hle : t.count (Task.answers PostRejection.rateLimit.apiError) ≤
      u.count (Task.answers PostRejection.rateLimit.apiError)) : Snapped u seen :=
  fun denied hd => ⟨(h denied hd).1.trans hle,(h denied hd).2⟩

theorem answers_terminal (e : ApiError) {s s' : Shared} {t t' : Task} {m : Instant}
    (h : v.server.turn s t m = some (s',t')) (ht : t.answers e = true) : t'.answers e = true := by
  obtain ⟨q,p⟩ := t
  cases p with
  | done response => cases h
  | _ => cases ht

theorem denied_le_checked (h : run v.server.step (.start (v.boot db)) es = some t) :
    t.count (Task.answers PostRejection.rateLimit.apiError) ≤ t.count (Task.checked v) := by
  refine TaskServer.count_le (fun id task htask hlimited => ?_)
  have hok := (TaskServer.sound_run (keeps_ok v) (rfl : v.Configured (v.boot db)) h).tasks id task htask
  obtain ⟨q,p⟩ := task
  cases p with
  | done response =>
    have hanswer : v.Answerable q response := hok
    obtain ⟨_,hsubmit,hcap⟩ := hanswer.reason .rateLimit hlimited
    obtain rfl := eq_of_isError hlimited
    have hauth :
        PostRejection.rateLimit.apiError.intoResponse.isError PostRejection.auth.apiError = false := by
      decide
    simp [Task.checked,hcap,hsubmit,Phase.metered,hauth]
  | _ => cases hlimited

theorem snapped_load (h : run v.server.step (.start (v.boot db)) es = some t) (hfew : t.ids.length < 2 ^ 64)
    {seen : List UInt64} (hsnap : Snapped t seen) {load : UInt64}
    (hload : (t.shared.metrics.loads t.shared.limiter)[seen.length]? = some load) :
    Snapped t (seen ++ [load]) := by
  have hdenied := counter_run h .rateLimit
  have hchecked := denied_le_checked h
  have hsmall : t.count (Task.checked v) < 2 ^ 64 := lt_of_le_of_lt List.countP_le_length hfew
  have hlength : seen.length < 9 := (List.getElem?_eq_some_iff.mp hload).1
  intro denied hd
  rcases Nat.lt_trichotomy seen.length 4 with hlt | heq | hgt
  · rw [List.getElem?_eq_none (by simp; omega)] at hd
    cases hd
  · rw [List.getElem?_append_right (by omega),heq] at hd
    rw [heq] at hload
    obtain rfl : load = denied := Option.some.inj hd
    obtain rfl : t.shared.metrics.counter .rateLimit = load := Option.some.inj hload
    refine ⟨by rw [hdenied,UInt64.toNat_ofNat']; exact Nat.mod_le _ _,fun ops hops => ?_⟩
    rw [List.getElem?_eq_none (by simp; omega)] at hops
    cases hops
  · rw [List.getElem?_append_left (by omega)] at hd
    obtain ⟨hle,hlast⟩ := hsnap denied hd
    refine ⟨hle,fun ops hops => ?_⟩
    rcases Nat.lt_or_ge 8 seen.length with hover | hle8
    · omega
    · rcases Nat.lt_or_eq_of_le hle8 with hlt | heq
      · rw [List.getElem?_eq_none (by simp; omega)] at hops
        cases hops
      · rw [List.getElem?_append_right (by omega),heq] at hops
        rw [heq] at hload
        obtain rfl : load = ops := Option.some.inj hops
        obtain rfl : t.shared.limiter.ops = load := Option.some.inj hload
        rw [ops_run h,UInt64.le_iff_toNat_le,UInt64.toNat_ofNat',Nat.mod_eq_of_lt hsmall]
        exact hle.trans hchecked

theorem coherent_of_plain {p : Phase} (hl : ∀ seen, p ≠ .loading seen)
    (hs : ∀ seen, p ≠ .done ⟨200,.snapshot seen⟩) : Coherent t p :=
  ⟨fun seen hp => absurd hp (hl seen),fun seen hp => absurd hp (hs seen)⟩

theorem coherent_neutral {r : HttpResponse} (h : r.neutral = true) : Coherent t (.done r) := by
  refine coherent_of_plain (fun seen hp => by cases hp) (fun seen hp => ?_)
  obtain rfl := Phase.done.inj hp
  cases h

theorem Coherent.mono {t u : Served Shared Task} {p : Phase} (h : Coherent t p)
    (hle : t.count (Task.answers PostRejection.rateLimit.apiError) ≤
      u.count (Task.answers PostRejection.rateLimit.apiError)) : Coherent u p :=
  ⟨fun seen hp => ⟨(h.loading seen hp).1,(h.loading seen hp).2.mono hle⟩,
    fun seen hp => ⟨(h.snapshot seen hp).1,(h.snapshot seen hp).2.mono hle⟩⟩

theorem coherent_turns (h : run v.server.step (.start (v.boot db)) es = some t) (hfew : t.ids.length < 2 ^ 64)
    {q : HttpRequest} {p p' : Phase} {s' : Shared} (hp : Coherent t p) (hturns : Turns v t.shared q p s' p') :
    Coherent t p' := by
  cases hturns with
  | reply _ neutral => exact coherent_neutral neutral
  | unfound neutral => exact coherent_neutral neutral
  | removed neutral => exact coherent_neutral neutral
  | cached _ neutral => exact coherent_neutral neutral
  | uncollected neutral => exact coherent_neutral neutral
  | put neutral => exact coherent_neutral neutral
  | report neutral => exact coherent_neutral neutral
  | unsummed neutral => exact coherent_neutral neutral
  | summed =>
    refine ⟨fun seen hs => ?_,fun seen hs => by cases hs⟩
    obtain rfl := Phase.loading.inj hs
    exact ⟨by decide,fun denied hd => by cases hd⟩
  | @load seen load next =>
    refine ⟨fun seen' hs => ?_,fun seen' hs => by cases hs⟩
    obtain rfl := Phase.loading.inj hs
    have hlt : seen.length < 9 := (List.getElem?_eq_some_iff.mp next).1
    exact ⟨by rw [List.length_append]; exact hlt,snapped_load h hfew (hp.loading seen rfl).2 next⟩
  | @loaded seen last =>
    refine ⟨fun seen' hs => (by cases hs),fun seen' hs => ?_⟩
    obtain rfl : seen = seen' := by injection hs with hs; injection hs with _ hs; injection hs
    obtain ⟨hle,hsnap⟩ := hp.loading seen rfl
    exact ⟨Nat.le_antisymm hle (List.getElem?_eq_none_iff.mp last),hsnap⟩
  | tally =>
    refine coherent_of_plain (fun seen hs => by cases hs) (fun seen hs => ?_)
    have hbody := congrArg HttpResponse.body (Phase.done.inj hs)
    cases hbody
  | _ => exact coherent_of_plain (fun seen hs => by cases hs) (fun seen hs => by cases hs)

theorem coherent_run (h : run v.server.step (.start (v.boot db)) es = some t) (hfew : es.length < 2 ^ 64) :
    t.AllTasks (fun task => Coherent t task.phase) := by
  induction es using List.reverseRecOn generalizing t with
  | nil =>
    obtain rfl := Option.some.inj h
    exact fun _ _ ht => by cases ht
  | append_singleton es e ih =>
    obtain ⟨u,hu,hstep⟩ := run_snoc.mp h
    rw [List.length_append,List.length_singleton] at hfew
    have hids : u.ids.length < 2 ^ 64 := by
      have := TaskServer.length_ids_le hu
      simp only [Served.start,List.length_nil] at this
      omega
    have htracked := (TaskServer.sound_run (keeps_ok v) (rfl : v.Configured (v.boot db)) hu).tracked
    have hmono := TaskServer.count_mono (P := Task.answers PostRejection.rateLimit.apiError)
      (fun _ _ _ _ _ hturn ha => answers_terminal _ hturn ha) (fun _ => rfl) htracked hstep
    have hall : u.AllTasks (fun task => Coherent t task.phase) :=
      fun id task htask => (ih hu (by omega) id task htask).mono hmono
    cases TaskServer.moves_of_step hstep with
    | arrive free =>
      exact TaskServer.allTasks_update hall
        (coherent_of_plain (fun seen hs => by cases hs) (fun seen hs => by cases hs)) _ _
    | advance held turn =>
      have hnext := coherent_turns hu hids (ih hu (by omega) _ _ held) (turns_of_server turn).2
      exact TaskServer.allTasks_update hall (hnext.mono hmono) _ _
    | ambient => exact hall

theorem snapshot_denied_within_ops (v : Gateway) (db : Db)
    (es : List (ServerEvent HttpRequest Instant StoreOp)) (hfew : es.length < 2 ^ 64) (t : Served Shared Task)
    (h : run v.server.step (.start (v.boot db)) es = some t) (id : Nat) (task : Task) (seen : List UInt64)
    (htask : t.tasks id = some task) (hdone : task.phase = .done ⟨200,.snapshot seen⟩) :
    ∃ denied ops, seen[4]? = some denied ∧ seen[8]? = some ops ∧ denied ≤ ops := by
  obtain ⟨hlen,hsnap⟩ := (coherent_run h hfew id task htask).snapshot seen hdone
  obtain ⟨denied,hd⟩ : ∃ denied, seen[4]? = some denied := ⟨_,List.getElem?_eq_getElem (by omega)⟩
  obtain ⟨ops,hops⟩ : ∃ ops, seen[8]? = some ops := ⟨_,List.getElem?_eq_getElem (by omega)⟩
  exact ⟨denied,ops,hd,hops,(hsnap denied hd).2 ops hops⟩

def flooded : List (ServerEvent HttpRequest Instant StoreOp) :=
  .arrive 9 (calling .metrics none) :: List.replicate 8 (.advance 9 atOnce) ++
    [.arrive 0 (calling (.submit (.ok "1")) (some "secret")),
      .arrive 1 (calling (.submit (.ok "2")) (some "secret"))] ++
    List.replicate 5 (.advance 0 atOnce) ++ List.replicate 5 (.advance 1 atOnce) ++
    List.replicate 6 (.advance 9 atOnce)

theorem snapshot_denied_within_ops_flooded : ∃ t task seen,
    run sampleGateway.server.step (.start (sampleGateway.boot .empty)) flooded = some t ∧
    t.tasks 9 = some task ∧ task.phase = .done ⟨200,.snapshot seen⟩ ∧
    t.shared.metrics.postRejectedRatelimit = 1 ∧
    ∃ denied ops, seen[4]? = some denied ∧ seen[8]? = some ops ∧ denied ≤ ops := by
  obtain ⟨t,ht⟩ : ∃ t, run sampleGateway.server.step (.start (sampleGateway.boot .empty)) flooded = some t :=
    ⟨_,rfl⟩
  obtain ⟨task,seen,htask,hphase,hcount⟩ : ∃ task seen, t.tasks 9 = some task ∧
      task.phase = .done ⟨200,.snapshot seen⟩ ∧ t.shared.metrics.postRejectedRatelimit = 1 := by
    obtain rfl := Option.some.inj ht
    exact ⟨_,_,rfl,rfl,rfl⟩
  exact ⟨t,task,seen,ht,htask,hphase,hcount,
    snapshot_denied_within_ops sampleGateway .empty flooded (by decide) t ht 9 task seen htask hphase⟩

end Gateway

end Web

end DnsSeeder
