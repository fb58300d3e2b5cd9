import DnsSeeder.Crawler.Bootstrap
import DnsSeeder.Web.Gateway

namespace DnsSeeder

open Lib PeerStore

namespace Web

def Route.isGet : Route → Bool
  | .get _ => true
  | _ => false

def Route.isDelete : Route → Bool
  | .delete _ => true
  | _ => false

namespace Gateway

variable (v : Gateway)

def Rejectable (q : HttpRequest) : PostRejection → Prop
  | .auth => v.admits q = false
  | .rateLimit => v.admits q = true ∧ q.route.isSubmit = true ∧ v.config.postRateLimit ≠ 0
  | _ => v.admits q = true ∧ q.route.isSubmit = true

structure Answerable (q : HttpRequest) (r : HttpResponse) : Prop where
  refused : v.admits q = false → r = PostRejection.auth.apiError.intoResponse
  reason : ∀ reason, r.isError reason.apiError = true → v.Rejectable q reason

def InPlace (q : HttpRequest) : Phase → Prop
  | .arrived => True
  | .counted => True
  | .authorized => v.admits q = true
  | .rejecting reason error => error = reason.apiError ∧ v.Rejectable q reason
  | .tallying reason error => error = reason.apiError ∧ v.Rejectable q reason
  | .probing _ _ => v.admits q = true ∧ q.route.isSubmit = true
  | .accepting _ => v.admits q = true ∧ q.route.isSubmit = true
  | .lookup _ _ _ => v.admits q = true ∧ q.route.isGet = true
  | .removing _ => v.admits q = true ∧ q.route.isDelete = true
  | .listing _ => q.route.gated = false
  | .scanning _ _ => q.route.gated = false
  | .listed _ _ => q.route.gated = false
  | .checking _ => q.route.gated = false
  | .summarizing => q.route = .metrics
  | .loading _ => q.route = .metrics
  | .done response => v.Answerable q response
  | .panicked => v.admits q = true

def Ok (t : Task) : Prop := v.InPlace t.request t.phase

def Configured (s : Shared) : Prop := s.limiter.capacity = v.config.postRateLimit

variable {v} {s s' : Shared} {q : HttpRequest} {p p' : Phase}

theorem answerable_plain {r : HttpResponse} (hq : v.admits q = true)
    (h : ∀ reason : PostRejection, r.isError reason.apiError = false) : v.Answerable q r :=
  ⟨fun hno => Bool.noConfusion (hq.symm.trans hno),
    fun reason herr => Bool.noConfusion ((h reason).symm.trans herr)⟩

theorem answerable_neutral {r : HttpResponse} (hq : v.admits q = true) (h : r.neutral = true) :
    v.Answerable q r := answerable_plain hq (r.isError_neutral h)

theorem answerable_reason {reason : PostRejection} (h : v.Rejectable q reason) :
    v.Answerable q reason.apiError.intoResponse := by
  constructor
  · intro hno
    cases reason with
    | auth => rfl
    | rateLimit => exact Bool.noConfusion (h.1.symm.trans hno)
    | format => exact Bool.noConfusion (h.1.symm.trans hno)
    | unroutable => exact Bool.noConfusion (h.1.symm.trans hno)
    | probe => exact Bool.noConfusion (h.1.symm.trans hno)
  · intro reason' herr
    rw [isError_reason] at herr
    exact of_decide_eq_true herr ▸ h

theorem admits_open (h : q.route.gated = false) : v.admits q = true := by
  simp [admits,h]

theorem admits_metrics (h : q.route = .metrics) : v.admits q = true := admits_open (by rw [h]; rfl)

theorem rejectable_submit (hq : v.admits q = true) (hsubmit : q.route.isSubmit = true)
    {reason : PostRejection} (hauth : reason ≠ .auth)
    (hlimit : reason = .rateLimit → v.config.postRateLimit ≠ 0) : v.Rejectable q reason := by
  cases reason with
  | auth => exact absurd rfl hauth
  | rateLimit => exact ⟨hq,hsubmit,hlimit rfl⟩
  | format => exact ⟨hq,hsubmit⟩
  | unroutable => exact ⟨hq,hsubmit⟩
  | probe => exact ⟨hq,hsubmit⟩

theorem capacity_of_denied {l l' : RateLimiter} {ip : IpAddr} {now : Nat}
    (h : l.check ip now = some (false,l')) : l.capacity ≠ 0 := by
  intro hzero
  simp [RateLimiter.check,hzero] at h

theorem inPlace_turns (hs : v.Configured s) (hp : v.InPlace q p) (h : Turns v s q p s' p') :
    v.InPlace q p' := by
  cases h with
  | count => trivial
  | refuse gate => exact ⟨rfl,gate⟩
  | permit gate => exact gate
  | reply _ neutral => exact answerable_neutral hp neutral
  | overflow => exact hp
  | submit route _ => exact ⟨hp,by rw [route]; rfl⟩
  | decline reason route check limited other =>
    refine ⟨rfl,rejectable_submit hp (by rw [route]; rfl) other (fun hr => ?_)⟩
    rw [limited hr] at check
    exact hs ▸ capacity_of_denied check
  | lookup route => exact ⟨hp,by rw [route]; rfl⟩
  | remove route => exact ⟨hp,by rw [route]; rfl⟩
  | cached _ neutral => exact answerable_neutral hp neutral
  | missed route => exact route
  | check route => exact route
  | summarize route => exact route
  | reject => exact hp
  | tally =>
    obtain ⟨rfl,hr⟩ := hp
    exact answerable_reason hr
  | probe => exact hp
  | probed => exact hp
  | unprobed => exact ⟨rfl,hp⟩
  | accept => exact answerable_plain hp.1 (fun _ => rfl)
  | found => exact answerable_plain hp.1 (fun _ => rfl)
  | unfound neutral => exact answerable_neutral hp.1 neutral
  | unfiltered => exact hp.1
  | removed neutral => exact answerable_neutral hp.1 neutral
  | scan => exact hp
  | collect => exact hp
  | uncollected neutral => exact answerable_neutral (admits_open hp) neutral
  | unmatched => exact admits_open hp
  | put neutral => exact answerable_neutral (admits_open hp) neutral
  | report neutral => exact answerable_neutral (admits_open hp) neutral
  | summed => exact hp
  | unsummed neutral => exact answerable_neutral (admits_metrics hp) neutral
  | load _ => exact hp
  | loaded _ => exact answerable_plain (admits_metrics hp) (fun _ => rfl)

theorem configured_turns (hs : v.Configured s) (h : Turns v s q p s' p') : v.Configured s' := by
  cases h with
  | submit _ check => exact (RateLimiter.check_config check).2.trans hs
  | decline _ _ check _ _ => exact (RateLimiter.check_config check).2.trans hs
  | _ => exact hs

theorem keeps_ok (v : Gateway) : v.server.Keeps v.Configured v.Ok where
  accept _ := trivial
  turn s t i s' t' hs ht h := by
    obtain ⟨hq,hturns⟩ := turns_of_server h
    exact ⟨configured_turns hs hturns,by unfold Ok; rw [hq]; exact inPlace_turns hs ht hturns⟩
  ambient _ _ hs := hs

def credit (v : Gateway) (q : HttpRequest) : Bool := q.route.gated && authenticated q.apiKey v.apiKey

def visible (s : Shared) : RateLimiter × Db := (s.limiter,s.db)

theorem Route.gated_of_isSubmit {r : Route} (h : r.isSubmit = true) : r.gated = true := by
  cases r with
  | submit _ => rfl
  | _ => cases h

theorem Route.gated_of_isDelete {r : Route} (h : r.isDelete = true) : r.gated = true := by
  cases r with
  | delete _ => rfl
  | _ => cases h

theorem credit_of_admits (hq : v.admits q = true) (hgated : q.route.gated = true) : v.credit q = true := by
  simpa [admits,credit,hgated] using hq

theorem visible_uncredited (hp : v.InPlace q p) (hq : v.credit q = false) (h : Turns v s q p s' p') :
    visible s' = visible s := by
  have hsubmit : v.admits q = true → q.route.isSubmit = true → False := fun ha hr =>
    Bool.noConfusion (hq.symm.trans (credit_of_admits ha (Route.gated_of_isSubmit hr)))
  cases h with
  | submit route _ => exact (hsubmit hp (by rw [route]; rfl)).elim
  | decline _ route _ _ _ => exact (hsubmit hp (by rw [route]; rfl)).elim
  | probe => exact (hsubmit hp.1 hp.2).elim
  | probed => exact (hsubmit hp.1 hp.2).elim
  | unprobed => exact (hsubmit hp.1 hp.2).elim
  | removed _ =>
    exact Bool.noConfusion (hq.symm.trans (credit_of_admits hp.1 (Route.gated_of_isDelete hp.2)))
  | _ => rfl

theorem dispatch_gated (v : Gateway) (s : Shared) {q : HttpRequest} (hq : q.route.gated = true) (m : Instant)
    (metrics : WebMetrics) (cache : PeersCache Body) :
    v.dispatch { s with metrics,cache } q m =
      ({ (v.dispatch s q m).1 with metrics,cache },(v.dispatch s q m).2) := by
  simp only [dispatch]
  cases hroute : q.route with
  | submit addrPort =>
    cases addrPort with
    | error status => rfl
    | ok addrPort =>
      dsimp only
      cases v.validateSubmission addrPort (v.clientIp q) s.limiter m.instant with
      | none => rfl
      | some r =>
        obtain ⟨outcome,limiter⟩ := r
        cases outcome <;> rfl
  | get path =>
    cases path with
    | error status => rfl
    | ok path =>
      obtain ⟨addrPort,all⟩ := path
      dsimp only
      cases v.fromStr addrPort <;> rfl
  | delete path =>
    cases path with
    | error status => rfl
    | ok addrPort =>
      dsimp only
      cases v.fromStr (trimmed addrPort) <;> rfl
  | _ => simp [hroute,Route.gated] at hq

theorem turn_gated {m : Instant} (hq : q.route.gated = true) (hp : ∀ seen, p ≠ .loading seen)
    (metrics : WebMetrics) (cache : PeersCache Body) (h : v.turn s q m p = some (s',p')) :
    ∃ r', v.turn { s with metrics,cache } q m p = some (r',p') ∧ visible r' = visible s' := by
  cases p with
  | authorized =>
    have hd : v.dispatch s q m = (s',p') := Option.some.inj h
    have hr := dispatch_gated v s hq m metrics cache
    rw [hd] at hr
    exact ⟨_,congrArg some hr,rfl⟩
  | counted =>
    simp only [turn] at h ⊢
    split at h <;> obtain ⟨rfl,rfl⟩ := Prod.mk.inj (Option.some.inj h)
    · next hgate => exact ⟨_,if_pos hgate,rfl⟩
    · next hgate => exact ⟨_,if_neg hgate,rfl⟩
  | probing addr runner =>
    obtain ⟨⟨next,op⟩,hstep,heq⟩ := Option.map_eq_some_iff.mp h
    obtain ⟨rfl,rfl⟩ := Prod.mk.inj heq
    exact ⟨_,Option.map_eq_some_iff.mpr ⟨(next,op),hstep,rfl⟩,rfl⟩
  | removing net =>
    simp only [turn] at h ⊢
    split at h
    · next hfails =>
      obtain ⟨rfl,rfl⟩ := Prod.mk.inj (Option.some.inj h)
      exact ⟨_,if_pos hfails,rfl⟩
    · next hfails =>
      rw [if_neg hfails]
      split at h <;> obtain ⟨rfl,rfl⟩ := Prod.mk.inj (Option.some.inj h)
      · exact ⟨_,rfl,rfl⟩
      · exact ⟨_,rfl,rfl⟩
  | loading seen => exact absurd rfl (hp seen)
  | done response => cases h
  | panicked => cases h
  | _ =>
    obtain ⟨rfl,rfl⟩ := Prod.mk.inj (Option.some.inj h)
    exact ⟨_,rfl,rfl⟩

theorem separates (v : Gateway) : v.server.Separates v.Ok v.credit visible where
  accept _ := rfl
  request _ _ _ _ _ h := (turns_of_server h).1
  uncredited _ _ _ _ _ ht hq h := visible_uncredited ht hq (turns_of_server h).2
  credited s r t i s' t' ht hq hvis h := by
    obtain ⟨⟨u,phase⟩,hturn,heq⟩ := Option.map_eq_some_iff.mp h
    obtain ⟨rfl,rfl⟩ := Prod.mk.inj heq
    have hgated : t.request.route.gated = true := (Bool.and_eq_true_iff.mp hq).1
    have hloading : ∀ seen, t.phase ≠ .loading seen := by
      intro seen hp
      have hroute : t.request.route = .metrics := by simpa [Ok,InPlace,hp] using ht
      rw [hroute] at hgated
      cases hgated
    obtain ⟨r',hr',hvis'⟩ := turn_gated hgated hloading r.metrics r.cache hturn
    obtain ⟨hlimiter,hdb⟩ := Prod.mk.inj hvis
    have hr : r = { s with metrics := r.metrics,cache := r.cache } := by rw [← hlimiter,← hdb]
    exact ⟨r',by rw [hr]; exact Option.map_eq_some_iff.mpr ⟨_,hr',rfl⟩,hvis'⟩
  ambient s r op hvis := by
    obtain ⟨hlimiter,hdb⟩ := Prod.mk.inj hvis
    change (r.limiter,exec v.node.codec r.db op) = (s.limiter,exec v.node.codec s.db op)
    rw [hlimiter,hdb]

theorem auth_gate_noninterference (v : Gateway) (db : Db) (keep : Nat → Bool)
    (es : List (ServerEvent HttpRequest Instant StoreOp))
    (hkeep : ∀ id q, ServerEvent.arrive id q ∈ es → keep id = v.credit q) (s : Served Shared Task)
    (h : run v.server.step (.start (v.boot db)) es = some s) :
    (∃ r, run v.server.step (.start (v.boot db)) (es.filter (TaskServer.kept keep)) = some r ∧
      r.shared.limiter = s.shared.limiter ∧ r.shared.db = s.shared.db ∧
      ∀ id, keep id = true → r.tasks id = s.tasks id) ∧
    ∀ id task response, s.tasks id = some task → task.request.route.gated = true →
      authenticated task.request.apiKey v.apiKey = false → task.phase = .done response →
      response = (ApiError.unauthorized "missing or invalid api key").intoResponse := by
  constructor
  · obtain ⟨r,hr,herased⟩ :=
      TaskServer.erased_run (keeps_ok v) (separates v) hkeep (rfl : v.Configured (v.boot db)) h
    obtain ⟨hlimiter,hdb⟩ := Prod.mk.inj herased.visible
    exact ⟨r,hr,hlimiter,hdb,herased.tasks⟩
  · intro id task response htask hgated hauth hdone
    have hok := (TaskServer.sound_run (keeps_ok v) (rfl : v.Configured (v.boot db)) h).tasks id task htask
    simp only [Ok,InPlace,hdone] at hok
    exact hok.refused (by simp [admits,hgated,hauth])

def sampleGateway : Gateway where
  node := sampleNode
  semver := ⟨fun _ => none⟩
  formats := ⟨Int64,some,0,fun ms => toString ms,fun _ => "id",fun _ => "version"⟩
  config := ⟨16111,false,1,.fromSecs 60,.fromSecs 1800,none,none⟩
  apiKey := "secret"
  fromStr := literalV4
  ipFromStr := fun _ => none

def seededStore : Db := upsert Bincode.standard (seenStub (netFrom samplePeer) 5) .empty

def calling (route : Route) (apiKey : Option String) : HttpRequest := ⟨route,apiKey,none,samplePeer⟩

def atOnce : Instant := ⟨0,9,false,.proceed⟩

def intrusion : List (ServerEvent HttpRequest Instant StoreOp) :=
  [.arrive 0 (calling (.delete (.ok "8.8.8.8:16111")) (some "guess")),
    .arrive 1 (calling (.get (.ok ("8.8.8.8:16111",true))) (some "secret")),
    .arrive 2 (calling (.list (.ok true)) none),.advance 2 atOnce,.advance 0 atOnce,.advance 1 atOnce,
    .advance 1 atOnce,.advance 2 atOnce,.advance 0 atOnce,.advance 0 atOnce,.advance 1 atOnce,.advance 2 atOnce,
    .advance 2 atOnce,.advance 0 atOnce,.advance 2 atOnce,.advance 1 atOnce,.advance 2 atOnce]

theorem auth_gate_noninterference_delete :
    ∃ s r, run sampleGateway.server.step (.start (sampleGateway.boot seededStore)) intrusion = some s ∧
      run sampleGateway.server.step (.start (sampleGateway.boot seededStore))
        (intrusion.filter (TaskServer.kept (· == 1))) = some r ∧
      r.shared.db = s.shared.db ∧ r.tasks 1 = s.tasks 1 ∧
      ∃ task, s.tasks 0 = some task ∧
        task.phase = .done (ApiError.unauthorized "missing or invalid api key").intoResponse := by
  obtain ⟨s,hs⟩ : ∃ s, run sampleGateway.server.step (.start (sampleGateway.boot seededStore)) intrusion =
    some s := ⟨_,rfl⟩
  have hkeep : ∀ id q, ServerEvent.arrive id q ∈ intrusion → (id == 1) = sampleGateway.credit q := by
    intro id q hmem
    simp only [intrusion,List.mem_cons,ServerEvent.arrive.injEq,reduceCtorEq,List.not_mem_nil,
      or_false] at hmem
    rcases hmem with ⟨rfl,rfl⟩ | ⟨rfl,rfl⟩ | ⟨rfl,rfl⟩ <;> decide
  obtain ⟨⟨r,hr,_,hdb,htasks⟩,hgate⟩ := auth_gate_noninterference sampleGateway seededStore (· == 1) intrusion
    hkeep s hs
  obtain ⟨task,response,htask,hphase,hgated,hauth⟩ : ∃ task response, s.tasks 0 = some task ∧
      task.phase = .done response ∧ task.request.route.gated = true ∧
      authenticated task.request.apiKey sampleGateway.apiKey = false := by
    obtain rfl := Option.some.inj hs
    exact ⟨_,_,rfl,rfl,rfl,rfl⟩
  exact ⟨s,r,hs,hr,hdb,htasks 1 rfl,task,htask,hphase.trans
    (congrArg Phase.done (hgate 0 task response htask hgated hauth hphase))⟩

end Gateway

end Web

end DnsSeeder
