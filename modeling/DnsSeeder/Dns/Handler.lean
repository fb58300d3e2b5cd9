import DnsSeeder.Dns.ServingCache
import DnsSeeder.RateLimit

namespace DnsSeeder

inductive MessageType where
  | query
  | response
deriving DecidableEq

inductive OpCode where
  | query
  | status
  | notify
  | update
  | unknown (code : UInt8)
deriving DecidableEq

inductive DnsClass where
  | internet
  | other (code : UInt16)
deriving DecidableEq

inductive RecordType where
  | a
  | aaaa
  | ns
  | soa
  | other (code : UInt16)
deriving DecidableEq

inductive ResponseCode where
  | noError
  | refused
deriving DecidableEq

structure Question (N : Type) where
  name : N
  queryType : RecordType
  queryClass : DnsClass

structure Request (N : Type) where
  src : SocketAddr
  messageType : MessageType
  opCode : OpCode
  queries : List (Question N)

inductive RData (N : Type) where
  | a (ip : BitVec 32)
  | aaaa (ip : BitVec 128)
  | ns (name : N)
  | soa (mname rname : N) (serial : UInt32) (refresh retry expire : Int32) (minimum : UInt32)

structure Record (N : Type) where
  name : N
  ttl : UInt32
  data : RData N

structure Response (N : Type) where
  code : ResponseCode
  authoritative : Bool
  answers : List (Record N)
  ns : List (Record N)
  soa : List (Record N)

structure DnsMetrics where
  answered : UInt64
  empty : UInt64
  refused : UInt64
  denied : UInt64
  a : UInt64
  aaaa : UInt64

namespace DnsMetrics

def new : DnsMetrics := ⟨0,0,0,0,0,0⟩

def recordAnswered (m : DnsMetrics) (qtypeIsA qtypeIsAaaa : Bool) (answerCount : Nat) : DnsMetrics :=
  let m := if answerCount = 0 then { m with empty := m.empty + 1 } else { m with answered := m.answered + 1 }
  if qtypeIsA then { m with a := m.a + 1 }
  else if qtypeIsAaaa then { m with aaaa := m.aaaa + 1 } else m

def recordRefused (m : DnsMetrics) : DnsMetrics := { m with refused := m.refused + 1 }

def recordDenied (m : DnsMetrics) : DnsMetrics := { m with denied := m.denied + 1 }

end DnsMetrics

def muslAaaaSentinel : BitVec 128 := 0x0100#128 <<< 112
def soaRefresh : Int32 := 900
def soaRetry : Int32 := 300
def soaExpire : Int32 := 604800
def aTtlSeconds : UInt32 := 30
def nsTtlSeconds : UInt32 := 86400

structure Moment where
  instant : Nat
  unixSecs : UInt64
  snapshot : Snapshot
  sample : List IpAddr → Nat → List IpAddr

structure SeederHandler (N : Type) where
  config : DnsConfig
  apex : N
  nameserver : N
  hostmaster : N
  rateLimit : RateLimiter
  metrics : DnsMetrics

structure QueryPlan (N : Type) where
  qtype : RecordType
  qname : N

structure Answer (N : Type) where
  answers : List (Record N)
  ns : List (Record N)
  soa : List (Record N)

def isAllowedType : RecordType → Bool
  | .a => true
  | .aaaa => true
  | .ns => true
  | .soa => true
  | .other _ => false

def requestInfo {N : Type} (request : Request N) : Option (Question N) :=
  match request.queries with
  | [query] => some query
  | _ => none

def parseBasic {N : Type} (request : Request N) : Option (Question N) :=
  if request.messageType ≠ .query ∨ request.opCode ≠ .query then none else requestInfo request

def refuse (N : Type) : Response N := ⟨.refused,false,[],[],[]⟩

namespace SeederHandler

variable {N : Type} (h : SeederHandler N) (moment : Moment)

def new (config : DnsConfig) (apex nameserver hostmaster : N) : SeederHandler N where
  config := config
  apex := apex
  nameserver := nameserver
  hostmaster := hostmaster
  rateLimit := .new config.queriesPerIpPerSecond config.rateLimitWindow
  metrics := .new

def addressRecord (data : RData N) : Record N := ⟨h.apex,aTtlSeconds,data⟩

def nsRecord : Record N := ⟨h.apex,nsTtlSeconds,.ns h.nameserver⟩

def soaRecord : Record N :=
  ⟨h.apex,aTtlSeconds,.soa h.nameserver h.hostmaster moment.unixSecs.toUInt32 soaRefresh soaRetry soaExpire
    aTtlSeconds⟩

def addressData : IpAddr → RData N
  | .v4 ip => .a ip
  | .v6 ip => .aaaa ip

def sampleAddressRecords (family : Family) : List (Record N) :=
  let pool := match family with
    | .v4 => moment.snapshot.v4
    | .v6 => moment.snapshot.v6
  (moment.sample pool h.config.maxRecords).map (fun ip => h.addressRecord (addressData ip))

def buildAnswers (qtype : RecordType) : List (Record N) :=
  match qtype with
  | .a => h.sampleAddressRecords moment .v4
  | .aaaa =>
      match h.sampleAddressRecords moment .v6 with
      | [] => [h.addressRecord (.aaaa muslAaaaSentinel)]
      | out => out
  | .ns => [h.nsRecord]
  | .soa => [h.soaRecord moment]
  | .other _ => []

def buildAnswer (qtype : RecordType) : Answer N :=
  let answers := h.buildAnswers moment qtype
  { answers := answers
    ns := if qtype = .a ∨ qtype = .aaaa then [h.nsRecord] else []
    soa := if answers.isEmpty ∧ qtype ≠ .soa then [h.soaRecord moment] else [] }

def classify [BEq N] (info : Question N) : Option (QueryPlan N) :=
  if info.queryClass ≠ .internet then none
  else if !isAllowedType info.queryType then none
  else if info.name != h.apex then none
  else some ⟨info.queryType,info.name⟩

def refused : SeederHandler N := { h with metrics := h.metrics.recordRefused }

def reply [BEq N] (info : Question N) : Response N × SeederHandler N :=
  match h.classify info with
  | none => (refuse N,h.refused)
  | some plan =>
      let answer := h.buildAnswer moment plan.qtype
      (⟨.noError,true,answer.answers,answer.ns,answer.soa⟩,{ h with
        metrics := h.metrics.recordAnswered (plan.qtype = .a) (plan.qtype = .aaaa) answer.answers.length })

def handleRequest [BEq N] (request : Request N) : Option (Option (Response N) × SeederHandler N) :=
  match parseBasic request with
  | none => some (some (refuse N),h.refused)
  | some info =>
      match h.rateLimit.check request.src.ip moment.instant with
      | none => none
      | some (false,limiter) =>
          some (none,{ h with rateLimit := limiter, metrics := h.metrics.recordDenied })
      | some (true,limiter) =>
          let (response,h) := { h with rateLimit := limiter }.reply moment info
          some (some response,h)

end SeederHandler

end DnsSeeder
