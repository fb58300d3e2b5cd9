import DnsSeeder.Crawler.System
import DnsSeeder.Lib.Tasks
import DnsSeeder.RateLimit
import DnsSeeder.Web.Health
import DnsSeeder.Web.Listing

namespace DnsSeeder

open Lib PeerStore

namespace Web

inductive PostRejection where
  | auth
  | rateLimit
  | format
  | unroutable
  | probe
deriving DecidableEq

structure WebMetrics where
  requests : UInt64
  accepted : UInt64
  rejected : UInt64
  postRejectedAuth : UInt64
  postRejectedRatelimit : UInt64
  postRejectedFormat : UInt64
  postRejectedUnroutable : UInt64
  postRejectedProbe : UInt64

namespace WebMetrics

def new : WebMetrics := ⟨0,0,0,0,0,0,0,0⟩

def recordRequest (m : WebMetrics) : WebMetrics := { m with requests := m.requests + 1 }

def recordAccepted (m : WebMetrics) : WebMetrics := { m with accepted := m.accepted + 1 }

def addRejected (m : WebMetrics) : WebMetrics := { m with rejected := m.rejected + 1 }

def addReason (m : WebMetrics) : PostRejection → WebMetrics
  | .auth => { m with postRejectedAuth := m.postRejectedAuth + 1 }
  | .rateLimit => { m with postRejectedRatelimit := m.postRejectedRatelimit + 1 }
  | .format => { m with postRejectedFormat := m.postRejectedFormat + 1 }
  | .unroutable => { m with postRejectedUnroutable := m.postRejectedUnroutable + 1 }
  | .probe => { m with postRejectedProbe := m.postRejectedProbe + 1 }

def counter (m : WebMetrics) : PostRejection → UInt64
  | .auth => m.postRejectedAuth
  | .rateLimit => m.postRejectedRatelimit
  | .format => m.postRejectedFormat
  | .unroutable => m.postRejectedUnroutable
  | .probe => m.postRejectedProbe

def loads (m : WebMetrics) (limiter : RateLimiter) : List UInt64 :=
  [m.requests,m.accepted,m.rejected,m.postRejectedAuth,m.postRejectedRatelimit,m.postRejectedFormat,
    m.postRejectedUnroutable,m.postRejectedProbe,limiter.ops]

end WebMetrics

inductive ApiError where
  | badRequest (message : String)
  | notFound (message : String)
  | unauthorized (message : String)
  | rateLimited (message : String)
  | badGateway (message : String)
  | internal (message : String)
deriving DecidableEq

def ApiError.status : ApiError → Nat
  | .badRequest _ => 400
  | .notFound _ => 404
  | .unauthorized _ => 401
  | .rateLimited _ => 429
  | .badGateway _ => 502
  | .internal _ => 500

def ApiError.message : ApiError → String
  | .badRequest m => m
  | .notFound m => m
  | .unauthorized m => m
  | .rateLimited m => m
  | .badGateway m => m
  | .internal m => m

inductive HttpBody where
  | empty
  | rejection
  | error (status : Nat) (error : String)
  | peer (dto : PeerDto)
  | peers (body : Body)
  | health (body : HealthResponse)
  | snapshot (loads : List UInt64)

structure HttpResponse where
  status : Nat
  body : HttpBody

def ApiError.intoResponse (e : ApiError) : HttpResponse := ⟨e.status,.error e.status e.message⟩

def HttpResponse.isError (r : HttpResponse) (e : ApiError) : Bool :=
  match r.body with
  | .error status error => r.status == e.status && status == e.status && error == e.message
  | _ => false

def PostRejection.apiError : PostRejection → ApiError
  | .auth => .unauthorized "missing or invalid api key"
  | .rateLimit => .rateLimited "rate limited"
  | .format => .badRequest "invalid ip:port"
  | .unroutable => .badRequest "address is not publicly routable or uses a disallowed port"
  | .probe => .badGateway "probe failed"

def PostRejection.all : List PostRejection := [.auth,.rateLimit,.format,.unroutable,.probe]

def HttpResponse.neutral (r : HttpResponse) : Bool :=
  match r.body with
  | .peer _ => false
  | .snapshot _ => false
  | _ => PostRejection.all.all (fun reason => !r.isError reason.apiError)

theorem HttpResponse.isError_neutral {r : HttpResponse} (h : r.neutral = true) (reason : PostRejection) :
    r.isError reason.apiError = false := by
  unfold HttpResponse.neutral at h
  split at h
  · cases h
  · cases h
  · simpa using List.all_eq_true.mp h reason (by cases reason <;> decide)

theorem isError_reason (reason reason' : PostRejection) :
    reason.apiError.intoResponse.isError reason'.apiError = decide (reason = reason') := by
  cases reason <;> cases reason' <;> decide

inductive SubmitRejection where
  | rateLimit
  | format
  | unroutable

def SubmitRejection.asPostRejection : SubmitRejection → PostRejection
  | .rateLimit => .rateLimit
  | .format => .format
  | .unroutable => .unroutable

def SubmitRejection.intoApiError : SubmitRejection → ApiError
  | .rateLimit => .rateLimited "rate limited"
  | .format => .badRequest "invalid ip:port"
  | .unroutable => .badRequest "address is not publicly routable or uses a disallowed port"

inductive Route where
  | submit (addrPort : Except Nat String)
  | get (path : Except Nat (String × Bool))
  | delete (addrPort : Except Nat String)
  | list (query : Except Nat Bool)
  | health
  | metrics
  | other (status : Nat)

def Route.gated : Route → Bool
  | .submit _ => true
  | .get _ => true
  | .delete _ => true
  | .list _ => false
  | .health => false
  | .metrics => false
  | .other _ => false

def Route.isSubmit : Route → Bool
  | .submit (.ok _) => true
  | _ => false

structure HttpRequest where
  route : Route
  apiKey : Option String
  forwardedFor : Option String
  remote : SocketAddr

inductive Phase where
  | arrived
  | counted
  | authorized
  | rejecting (reason : PostRejection) (error : ApiError)
  | tallying (reason : PostRejection) (error : ApiError)
  | probing (addr : SocketAddr) (runner : Runner)
  | accepting (rec : PeerRecord)
  | lookup (addr : SocketAddr) (all : Bool) (now : Int64)
  | removing (net : NetAddress)
  | listing (key : Key)
  | scanning (key : Key) (now : Int64)
  | listed (key : Key) (body : Body)
  | checking (now : Int64)
  | summarizing
  | loading (seen : List UInt64)
  | done (response : HttpResponse)
  -- the process ends here; letting the other requests go on only adds runs
  | panicked

structure Task where
  request : HttpRequest
  phase : Phase

structure Shared where
  metrics : WebMetrics
  limiter : RateLimiter
  cache : PeersCache Body
  db : Db

structure Instant where
  instant : Nat
  clock : Int64
  fails : Bool
  runner : RunnerEvent

structure Gateway where
  node : Node
  semver : Semver
  formats : Formats
  config : WebConfig
  apiKey : String
  fromStr : String → Option SocketAddr
  ipFromStr : String → Option IpAddr

namespace Gateway

variable (v : Gateway)

def clientIp (request : HttpRequest) : IpAddr :=
  match request.forwardedFor.bind (fun raw =>
    v.ipFromStr (String.ofList (trim (raw.toList.takeWhile (· ≠ ','))))) with
  | some ip => ip
  | none => request.remote.ip

def validateSubmission (addrPort : String) (client : IpAddr) (limiter : RateLimiter) (instant : Nat) :
    Option (Except SubmitRejection SocketAddr × RateLimiter) :=
  (limiter.check client instant).map (fun (allowed,limiter) =>
    if allowed = false then (.error .rateLimit,limiter)
    else match v.fromStr (trimmed addrPort) with
      | none => (.error .format,limiter)
      | some addr =>
          if isAcceptableAddress v.node.routable (netFrom addr) v.config.networkDefaultPort v.config.strictPort
          then (.ok (netFrom addr).socketAddr,limiter)
          else (.error .unroutable,limiter))

def probeFailed : Phase := .rejecting .probe (.badGateway "probe failed")

def afterRunner (addr : SocketAddr) (fails : Bool) : Runner → Runner → Phase
  | .upserting rec _,.done => if fails then probeFailed else .accepting rec
  | _,.done => probeFailed
  | .reading _,runner => if fails then probeFailed else .probing addr runner
  | _,runner => .probing addr runner

def listServer : ListServer := ⟨v.node.codec,v.semver,v.formats,v.config,v.apiKey⟩

def list (s : Shared) (request : HttpRequest) (all : Bool) (m : Instant) : Shared × Phase :=
  let key : Key := ⟨all,authenticated request.apiKey v.apiKey⟩
  match s.cache.get key m.instant with
  | (some body,cache) => ({ s with cache },.done ⟨200,.peers body⟩)
  | (none,cache) => ({ s with cache },.listing key)

def dispatch (s : Shared) (request : HttpRequest) (m : Instant) : Shared × Phase :=
  match request.route with
  | .submit (.error status) => (s,.done ⟨status,.rejection⟩)
  | .submit (.ok addrPort) =>
      match v.validateSubmission addrPort (v.clientIp request) s.limiter m.instant with
      | none => (s,.panicked)
      | some (.ok addr,limiter) => ({ s with limiter },.probing addr .probing)
      | some (.error rejection,limiter) =>
          ({ s with limiter },.rejecting rejection.asPostRejection rejection.intoApiError)
  | .get (.error status) => (s,.done ⟨status,.rejection⟩)
  | .get (.ok (addrPort,all)) =>
      match v.fromStr addrPort with
      | none => (s,.done (ApiError.badRequest "addr must be ip:port").intoResponse)
      | some addr => (s,.lookup addr all m.clock)
  | .delete (.error status) => (s,.done ⟨status,.rejection⟩)
  | .delete (.ok addrPort) =>
      match v.fromStr (trimmed addrPort) with
      | none => (s,.done (ApiError.badRequest "addr must be ip:port").intoResponse)
      | some addr => (s,.removing (netFrom addr))
  | .list (.error status) => (s,.done ⟨status,.rejection⟩)
  | .list (.ok all) => v.list s request all m
  | .health => (s,.checking m.clock)
  | .metrics => (s,.summarizing)
  | .other status => (s,.done ⟨status,.rejection⟩)

def found (db : Db) (addr : SocketAddr) (all : Bool) (now : Int64) : Phase :=
  match get v.node.codec v.semver v.config all now addr db with
  | none => .panicked
  | some (.found rec) => .done ⟨200,.peer (PeerDto.fromRecord v.semver v.formats rec true)⟩
  | some .notFound => .done (ApiError.notFound "peer not found").intoResponse
  | some .storeError => .done (ApiError.internal "store error").intoResponse

def storeError : Phase := .done (ApiError.internal "store error").intoResponse

def collected (db : Db) (key : Key) (now : Int64) : Phase :=
  match v.listServer.computeListBody key now db with
  | some body => .listed key body
  | none => .panicked

def healthResponse (now : Int64) (scan : Except Error Db) : HttpResponse :=
  ⟨(health v.node.codec v.semver v.config now scan).code,
    .health (health v.node.codec v.semver v.config now scan).body⟩

def turn (s : Shared) (request : HttpRequest) (m : Instant) : Phase → Option (Shared × Phase)
  | .arrived => some ({ s with metrics := s.metrics.recordRequest },.counted)
  | .counted =>
      if request.route.gated && !authenticated request.apiKey v.apiKey then
        some (s,.rejecting .auth (.unauthorized "missing or invalid api key"))
      else some (s,.authorized)
  | .authorized => some (v.dispatch s request m)
  | .rejecting reason error => some ({ s with metrics := s.metrics.addRejected },.tallying reason error)
  | .tallying reason error =>
      some ({ s with metrics := s.metrics.addReason reason },.done error.intoResponse)
  | .probing addr runner =>
      (runner.step v.node .submission addr s.db m.clock m.runner).map (fun (next,op) =>
        ({ s with db := if m.fails then s.db else System.transact v.node.codec s.db op },
          afterRunner addr m.fails runner next))
  | .accepting rec =>
      some ({ s with metrics := s.metrics.recordAccepted },
        .done ⟨200,.peer (PeerDto.fromRecord v.semver v.formats rec true)⟩)
  | .lookup addr all now => some (s,if m.fails then storeError else v.found s.db addr all now)
  | .removing net =>
      if m.fails then some (s,storeError)
      else match delete v.node.codec net s.db with
        | (true,db) => some ({ s with db },.done ⟨204,.empty⟩)
        | (false,db) => some ({ s with db },.done (ApiError.notFound "peer not found").intoResponse)
  | .listing key => some (s,.scanning key m.clock)
  | .scanning key now => some (s,if m.fails then storeError else v.collected s.db key now)
  | .listed key body =>
      some ({ s with cache := s.cache.put key body m.instant },.done ⟨200,.peers body⟩)
  | .checking now => some (s,.done (v.healthResponse now (if m.fails then .error .storage else .ok s.db)))
  | .summarizing => some (s,if m.fails then storeError else .loading [])
  | .loading seen =>
      match (s.metrics.loads s.limiter)[seen.length]? with
      | some load => some (s,.loading (seen ++ [load]))
      | none => some (s,.done ⟨200,.snapshot seen⟩)
  | .done _ => none
  | .panicked => none

def server : TaskServer Shared HttpRequest Task Instant StoreOp where
  accept request := ⟨request,.arrived⟩
  request := Task.request
  turn s task m := (v.turn s task.request m task.phase).map (fun (s',phase) => (s',⟨task.request,phase⟩))
  ambient s op := { s with db := exec v.node.codec s.db op }

def boot (db : Db) : Shared :=
  ⟨.new,.new v.config.postRateLimit v.config.rateLimitWindow,.new peersCacheTtl,db⟩

def admits (request : HttpRequest) : Bool := !request.route.gated || authenticated request.apiKey v.apiKey

inductive Turns (s : Shared) (q : HttpRequest) : Phase → Shared → Phase → Prop
  | count : Turns s q .arrived { s with metrics := s.metrics.recordRequest } .counted
  | refuse (gate : v.admits q = false) :
      Turns s q .counted s (.rejecting .auth PostRejection.auth.apiError)
  | permit (gate : v.admits q = true) : Turns s q .counted s .authorized
  | reply {response : HttpResponse} (route : q.route.isSubmit = false) (neutral : response.neutral = true) :
      Turns s q .authorized s (.done response)
  | overflow : Turns s q .authorized s .panicked
  | submit {addrPort : String} {client : IpAddr} {instant : Nat} {limiter : RateLimiter} {addr : SocketAddr}
      (route : q.route = .submit (.ok addrPort))
      (check : s.limiter.check client instant = some (true,limiter)) :
      Turns s q .authorized { s with limiter } (.probing addr .probing)
  | decline {addrPort : String} {client : IpAddr} {instant : Nat} {allowed : Bool} {limiter : RateLimiter}
      (reason : PostRejection) (route : q.route = .submit (.ok addrPort))
      (check : s.limiter.check client instant = some (allowed,limiter))
      (limited : reason = .rateLimit → allowed = false) (other : reason ≠ .auth) :
      Turns s q .authorized { s with limiter } (.rejecting reason reason.apiError)
  | lookup {path : Except Nat (String × Bool)} {addr : SocketAddr} {all : Bool} {now : Int64}
      (route : q.route = .get path) : Turns s q .authorized s (.lookup addr all now)
  | remove {path : Except Nat String} {net : NetAddress} (route : q.route = .delete path) :
      Turns s q .authorized s (.removing net)
  | cached {cache : PeersCache Body} {response : HttpResponse} (route : q.route.gated = false)
      (neutral : response.neutral = true) : Turns s q .authorized { s with cache } (.done response)
  | missed {cache : PeersCache Body} {key : Key} (route : q.route.gated = false) :
      Turns s q .authorized { s with cache } (.listing key)
  | check {now : Int64} (route : q.route.gated = false) : Turns s q .authorized s (.checking now)
  | summarize (route : q.route = .metrics) : Turns s q .authorized s .summarizing
  | reject {reason : PostRejection} {error : ApiError} : Turns s q (.rejecting reason error)
      { s with metrics := s.metrics.addRejected } (.tallying reason error)
  | tally {reason : PostRejection} {error : ApiError} : Turns s q (.tallying reason error)
      { s with metrics := s.metrics.addReason reason } (.done error.intoResponse)
  | probe {addr : SocketAddr} {runner next : Runner} {db : Db} :
      Turns s q (.probing addr runner) { s with db } (.probing addr next)
  | probed {addr : SocketAddr} {runner : Runner} {db : Db} {rec : PeerRecord} :
      Turns s q (.probing addr runner) { s with db } (.accepting rec)
  | unprobed {addr : SocketAddr} {runner : Runner} {db : Db} :
      Turns s q (.probing addr runner) { s with db } (.rejecting .probe PostRejection.probe.apiError)
  | accept {rec : PeerRecord} {dto : PeerDto} : Turns s q (.accepting rec)
      { s with metrics := s.metrics.recordAccepted } (.done ⟨200,.peer dto⟩)
  | found {addr : SocketAddr} {all : Bool} {now : Int64} {dto : PeerDto} :
      Turns s q (.lookup addr all now) s (.done ⟨200,.peer dto⟩)
  | unfound {addr : SocketAddr} {all : Bool} {now : Int64} {response : HttpResponse}
      (neutral : response.neutral = true) : Turns s q (.lookup addr all now) s (.done response)
  | unfiltered {addr : SocketAddr} {all : Bool} {now : Int64} :
      Turns s q (.lookup addr all now) s .panicked
  | removed {net : NetAddress} {db : Db} {response : HttpResponse} (neutral : response.neutral = true) :
      Turns s q (.removing net) { s with db } (.done response)
  | scan {key : Key} {now : Int64} : Turns s q (.listing key) s (.scanning key now)
  | collect {key : Key} {now : Int64} {body : Body} : Turns s q (.scanning key now) s (.listed key body)
  | uncollected {key : Key} {now : Int64} {response : HttpResponse} (neutral : response.neutral = true) :
      Turns s q (.scanning key now) s (.done response)
  | unmatched {key : Key} {now : Int64} : Turns s q (.scanning key now) s .panicked
  | put {key : Key} {body : Body} {cache : PeersCache Body} {response : HttpResponse}
      (neutral : response.neutral = true) : Turns s q (.listed key body) { s with cache } (.done response)
  | report {now : Int64} {response : HttpResponse} (neutral : response.neutral = true) :
      Turns s q (.checking now) s (.done response)
  | summed : Turns s q .summarizing s (.loading [])
  | unsummed {response : HttpResponse} (neutral : response.neutral = true) :
      Turns s q .summarizing s (.done response)
  | load {seen : List UInt64} {load : UInt64}
      (next : (s.metrics.loads s.limiter)[seen.length]? = some load) :
      Turns s q (.loading seen) s (.loading (seen ++ [load]))
  | loaded {seen : List UInt64} (last : (s.metrics.loads s.limiter)[seen.length]? = none) :
      Turns s q (.loading seen) s (.done ⟨200,.snapshot seen⟩)

variable {v} {s s' : Shared} {q : HttpRequest} {m : Instant} {p p' : Phase}

theorem turns_validated {addrPort : String} {limiter : RateLimiter}
    {outcome : Except SubmitRejection SocketAddr}
    (hroute : q.route = .submit (.ok addrPort))
    (h : v.validateSubmission addrPort (v.clientIp q) s.limiter m.instant = some (outcome,limiter)) :
    (∀ addr, outcome = .ok addr → Turns v s q .authorized { s with limiter } (.probing addr .probing)) ∧
    ∀ rejection, outcome = .error rejection → Turns v s q .authorized { s with limiter }
      (.rejecting rejection.asPostRejection rejection.intoApiError) := by
  obtain ⟨⟨allowed,limiter'⟩,hcheck,heq⟩ := Option.map_eq_some_iff.mp h
  cases allowed with
  | false =>
    obtain ⟨rfl,rfl⟩ := Prod.mk.inj heq
    refine ⟨fun addr ho => (by cases ho),fun rejection ho => ?_⟩
    obtain rfl := Except.error.inj ho
    exact .decline .rateLimit hroute hcheck (fun _ => rfl) (by decide)
  | true =>
    simp only [Bool.true_eq_false,if_false] at heq
    split at heq
    · obtain ⟨rfl,rfl⟩ := Prod.mk.inj heq
      refine ⟨fun addr ho => (by cases ho),fun rejection ho => ?_⟩
      obtain rfl := Except.error.inj ho
      exact .decline .format hroute hcheck (fun he => by cases he) (by decide)
    · split at heq <;> obtain ⟨rfl,rfl⟩ := Prod.mk.inj heq
      · exact ⟨fun addr _ => .submit hroute hcheck,fun rejection ho => by cases ho⟩
      · refine ⟨fun addr ho => (by cases ho),fun rejection ho => ?_⟩
        obtain rfl := Except.error.inj ho
        exact .decline .unroutable hroute hcheck (fun he => by cases he) (by decide)

theorem turns_list {all : Bool} (hroute : q.route.gated = false) (h : v.list s q all m = (s',p')) :
    Turns v s q .authorized s' p' := by
  simp only [list] at h
  split at h <;> obtain ⟨rfl,rfl⟩ := Prod.mk.inj h
  · exact .cached hroute rfl
  · exact .missed hroute

theorem turns_dispatch (h : v.dispatch s q m = (s',p')) : Turns v s q .authorized s' p' := by
  unfold dispatch at h
  split at h
  · next hroute =>
    obtain ⟨rfl,rfl⟩ := Prod.mk.inj h
    exact .reply (by rw [hroute]; rfl) rfl
  · next hroute =>
    split at h <;> obtain ⟨rfl,rfl⟩ := Prod.mk.inj h
    · exact .overflow
    · next hvalid => exact (turns_validated hroute hvalid).1 _ rfl
    · next hvalid => exact (turns_validated hroute hvalid).2 _ rfl
  · next hroute =>
    obtain ⟨rfl,rfl⟩ := Prod.mk.inj h
    exact .reply (by rw [hroute]; rfl) rfl
  · next hroute =>
    split at h <;> obtain ⟨rfl,rfl⟩ := Prod.mk.inj h
    · exact .reply (by rw [hroute]; rfl) (by decide)
    · exact .lookup hroute
  · next hroute =>
    obtain ⟨rfl,rfl⟩ := Prod.mk.inj h
    exact .reply (by rw [hroute]; rfl) rfl
  · next hroute =>
    split at h <;> obtain ⟨rfl,rfl⟩ := Prod.mk.inj h
    · exact .reply (by rw [hroute]; rfl) (by decide)
    · exact .remove hroute
  · next hroute =>
    obtain ⟨rfl,rfl⟩ := Prod.mk.inj h
    exact .reply (by rw [hroute]; rfl) rfl
  · next hroute => exact turns_list (by rw [hroute]; rfl) h
  · next hroute =>
    obtain ⟨rfl,rfl⟩ := Prod.mk.inj h
    exact .check (by rw [hroute]; rfl)
  · next hroute =>
    obtain ⟨rfl,rfl⟩ := Prod.mk.inj h
    exact .summarize hroute
  · next hroute =>
    obtain ⟨rfl,rfl⟩ := Prod.mk.inj h
    exact .reply (by rw [hroute]; rfl) rfl

theorem turns_afterRunner (addr : SocketAddr) (fails : Bool) (runner next : Runner) (db : Db) :
    Turns v s q (.probing addr runner) { s with db } (afterRunner addr fails runner next) := by
  unfold afterRunner
  split
  · cases fails
    · exact .probed
    · exact .unprobed
  · exact .unprobed
  · cases fails
    · exact .probe
    · exact .unprobed
  · exact .probe

theorem turns_found (db : Db) (addr : SocketAddr) (all : Bool) (now : Int64) :
    Turns v s q (.lookup addr all now) s (v.found db addr all now) := by
  unfold found
  split
  · exact .unfiltered
  · exact .found
  · exact .unfound (by decide)
  · exact .unfound (by decide)

theorem turns_collected (db : Db) (key : Key) (now : Int64) :
    Turns v s q (.scanning key now) s (v.collected db key now) := by
  unfold collected
  split
  · exact .collect
  · exact .unmatched

theorem turns_of_turn (h : v.turn s q m p = some (s',p')) : Turns v s q p s' p' := by
  cases p with
  | arrived =>
    obtain ⟨rfl,rfl⟩ := Prod.mk.inj (Option.some.inj h)
    exact .count
  | counted =>
    simp only [turn] at h
    split at h <;> obtain ⟨rfl,rfl⟩ := Prod.mk.inj (Option.some.inj h)
    · next hgate => exact .refuse (by simpa [admits] using hgate)
    · next hgate => exact .permit (by simpa [admits,Bool.or_eq_true,imp_iff_not_or] using hgate)
  | authorized => exact turns_dispatch (Option.some.inj h)
  | rejecting reason error =>
    obtain ⟨rfl,rfl⟩ := Prod.mk.inj (Option.some.inj h)
    exact .reject
  | tallying reason error =>
    obtain ⟨rfl,rfl⟩ := Prod.mk.inj (Option.some.inj h)
    exact .tally
  | probing addr runner =>
    obtain ⟨⟨next,op⟩,_,heq⟩ := Option.map_eq_some_iff.mp h
    obtain ⟨rfl,rfl⟩ := Prod.mk.inj heq
    exact turns_afterRunner addr m.fails runner next _
  | accepting rec =>
    obtain ⟨rfl,rfl⟩ := Prod.mk.inj (Option.some.inj h)
    exact .accept
  | lookup addr all now =>
    obtain ⟨rfl,rfl⟩ := Prod.mk.inj (Option.some.inj h)
    split
    · exact .unfound (by decide)
    · exact turns_found _ _ _ _
  | removing net =>
    simp only [turn] at h
    split at h
    · obtain ⟨rfl,rfl⟩ := Prod.mk.inj (Option.some.inj h)
      exact .removed (by decide)
    · split at h <;> obtain ⟨rfl,rfl⟩ := Prod.mk.inj (Option.some.inj h)
      · exact .removed (by decide)
      · exact .removed (by decide)
  | listing key =>
    obtain ⟨rfl,rfl⟩ := Prod.mk.inj (Option.some.inj h)
    exact .scan
  | scanning key now =>
    obtain ⟨rfl,rfl⟩ := Prod.mk.inj (Option.some.inj h)
    split
    · exact .uncollected (by decide)
    · exact turns_collected _ _ _
  | listed key body =>
    obtain ⟨rfl,rfl⟩ := Prod.mk.inj (Option.some.inj h)
    exact .put rfl
  | checking now =>
    obtain ⟨rfl,rfl⟩ := Prod.mk.inj (Option.some.inj h)
    exact .report rfl
  | summarizing =>
    obtain ⟨rfl,rfl⟩ := Prod.mk.inj (Option.some.inj h)
    split
    · exact .unsummed (by decide)
    · exact .summed
  | loading seen =>
    simp only [turn] at h
    split at h <;> obtain ⟨rfl,rfl⟩ := Prod.mk.inj (Option.some.inj h)
    · next hload => exact .load hload
    · next hlast => exact .loaded hlast
  | done response => cases h
  | panicked => cases h

theorem turns_of_server {t t' : Task} (h : v.server.turn s t m = some (s',t')) :
    t'.request = t.request ∧ Turns v s t.request t.phase s' t'.phase := by
  obtain ⟨⟨r,phase⟩,hturn,heq⟩ := Option.map_eq_some_iff.mp h
  obtain ⟨rfl,rfl⟩ := Prod.mk.inj heq
  exact ⟨rfl,turns_of_turn hturn⟩

end Gateway

end Web

end DnsSeeder
