import DnsSeeder.Lib.Run
import DnsSeeder.Lib.Slots
import DnsSeeder.Web.PeerDto
import DnsSeeder.Web.Peers
import DnsSeeder.Web.PeersCache

namespace DnsSeeder

open Lib

namespace Web

abbrev Body := List PeerDto

def peersCacheTtl : Duration := .fromSecs 5

def authenticated (header : Option String) (apiKey : String) : Bool := header == some apiKey

structure ListServer where
  codec : Codec
  semver : Semver
  formats : Formats
  config : WebConfig
  apiKey : String

inductive ListPhase where
  | computing
  | scanning (now : Int64)
  | computed (body : Body)
  | hit (body : Body) (instant : Nat)
  | stored (body : Body) (instant : Nat)
  | failed (message : String)
  | panicked
  | dropped

inductive ListResponse where
  | ok (body : Body)
  | internal (message : String)

def ListPhase.response : ListPhase → Option ListResponse
  | .hit body _ => some (.ok body)
  | .stored body _ => some (.ok body)
  | .failed message => some (.internal message)
  | _ => none

structure ListRequest where
  key : Key
  phase : ListPhase

structure ListState where
  cache : PeersCache Body
  requests : List ListRequest

inductive ListEvent where
  | request (all : Bool) (header : Option String) (instant : Nat)
  | filter (i : Nat) (now : Int64)
  | collect (i : Nat) (scan : Except Error Db)
  | put (i : Nat) (instant : Nat)
  | disconnect (i : Nat)

namespace ListServer

variable (v : ListServer)

def start : ListState := ⟨.new peersCacheTtl,[]⟩

def computeListBody (key : Key) (now : Int64) (db : Db) : Option Body :=
  (listRecords v.codec v.semver v.config key.all now db).map (fun records =>
    records.map (fun rec => PeerDto.fromRecord v.semver v.formats rec key.expose))

def afterGet (instant : Nat) : Option Body → ListPhase
  | some body => .hit body instant
  | none => .computing

def afterScan (key : Key) (now : Int64) : Except Error Db → ListPhase
  | .error _ => .failed "store error"
  | .ok db =>
      match v.computeListBody key now db with
      | some body => .computed body
      | none => .panicked

def setRequest (s : ListState) (i : Nat) (key : Key) (phase : ListPhase) : ListState :=
  { s with requests := s.requests.set i ⟨key,phase⟩ }

def step (s : ListState) : ListEvent → Option ListState
  | .request all header instant =>
      let key : Key := ⟨all,authenticated header v.apiKey⟩
      let (hit,cache) := s.cache.get key instant
      some ⟨cache,s.requests ++ [⟨key,afterGet instant hit⟩]⟩
  | .filter i now =>
      match s.requests[i]? with
      | some ⟨key,.computing⟩ => some (setRequest s i key (.scanning now))
      | _ => none
  | .collect i scan =>
      match s.requests[i]? with
      | some ⟨key,.scanning now⟩ => some (setRequest s i key (v.afterScan key now scan))
      | _ => none
  | .put i instant =>
      match s.requests[i]? with
      | some ⟨key,.computed body⟩ =>
          some { setRequest s i key (.stored body instant) with cache := s.cache.put key body instant }
      | _ => none
  | .disconnect i =>
      match s.requests[i]? with
      | some ⟨key,.scanning _⟩ => some (setRequest s i key .dropped)
      | _ => none

def uncapped (s : ListState) : ListEvent → Bool
  | .collect i (.ok db) =>
      match s.requests[i]? with
      | some ⟨key,.scanning now⟩ =>
          (PeerStore.collectMatching v.codec v.semver (listFilter v.config key.all now) db).all
            (fun records => (retained key.all records).length ≤ maxListResponse)
      | _ => true
  | _ => true

inductive Moves (s : ListState) : ListEvent → ListState → Prop
  | request (all : Bool) (header : Option String) (instant : Nat) {key : Key}
      (hkey : key = ⟨all,authenticated header v.apiKey⟩) :
      Moves s (.request all header instant) ⟨(s.cache.get key instant).2,
        s.requests ++ [⟨key,afterGet instant (s.cache.get key instant).1⟩]⟩
  | filter {i : Nat} (now : Int64) {key : Key} (hi : s.requests[i]? = some ⟨key,.computing⟩) :
      Moves s (.filter i now) (setRequest s i key (.scanning now))
  | collect {i : Nat} (scan : Except Error Db) {key : Key} {now : Int64}
      (hi : s.requests[i]? = some ⟨key,.scanning now⟩) :
      Moves s (.collect i scan) (setRequest s i key (v.afterScan key now scan))
  | put {i : Nat} (instant : Nat) {key : Key} {body : Body} (hi : s.requests[i]? = some ⟨key,.computed body⟩) :
      Moves s (.put i instant)
        { setRequest s i key (.stored body instant) with cache := s.cache.put key body instant }
  | disconnect {i : Nat} {key : Key} {now : Int64} (hi : s.requests[i]? = some ⟨key,.scanning now⟩) :
      Moves s (.disconnect i) (setRequest s i key .dropped)

variable {v} {s t : ListState} {e : ListEvent}

theorem step_eq_some : v.step s e = some t ↔ Moves v s e t := by
  constructor
  · intro h
    cases e with
    | request all header instant =>
      obtain rfl := Option.some.inj h
      exact .request all header instant rfl
    | filter i now =>
      simp only [step] at h
      split at h
      · next hi => exact Option.some.inj h ▸ .filter now hi
      · cases h
    | collect i scan =>
      simp only [step] at h
      split at h
      · next hi => exact Option.some.inj h ▸ .collect scan hi
      · cases h
    | put i instant =>
      simp only [step] at h
      split at h
      · next hi => exact Option.some.inj h ▸ .put instant hi
      · cases h
    | disconnect i =>
      simp only [step] at h
      split at h
      · next hi => exact Option.some.inj h ▸ .disconnect hi
      · cases h
  · intro h
    cases h with
    | request all header instant hkey => rw [hkey]; rfl
    | filter now hi => simp only [step,hi]
    | collect scan hi => simp only [step,hi]
    | put instant hi => simp only [step,hi]
    | disconnect hi => simp only [step,hi]

end ListServer

end Web

end DnsSeeder
