import DnsSeeder.Store.Due
import DnsSeeder.Crawler.Model
import DnsSeeder.Time

namespace DnsSeeder

open PeerStore

structure SchedulerConfig where
  defaultPort : UInt16
  threads : UInt64
  staleGood : Duration
  staleBad : Duration
  deadAfter : Duration
  strictPort : Bool

structure Node where
  codec : Codec
  routable : IpAddr → Bool
  config : SchedulerConfig

namespace Node

variable (d : Node)

def acceptable (net : NetAddress) : Bool :=
  isAcceptableAddress d.routable net d.config.defaultPort d.config.strictPort

def acceptBootstrap (addrs : List SocketAddr) : List NetAddress :=
  addrs.filterMap (fun addr => if d.acceptable (netFrom addr) then some (netFrom addr) else none)

def acceptDiscovered (addresses : List (IpAddr × UInt16)) : List NetAddress :=
  (addresses.map (fun entry =>
    let port := if entry.2 = 0 then d.config.defaultPort else entry.2
    (⟨canonicalizeIp entry.1,port⟩ : NetAddress))).filter (fun net => d.acceptable net)

def acceptSubmission (addr : SocketAddr) : Option SocketAddr :=
  if d.acceptable (netFrom addr) then some (netFrom addr).socketAddr else none

def Admitted (net : NetAddress) : Prop := net.Canonical ∧ d.acceptable net = true

variable {d}

theorem admitted_bootstrap {addrs : List SocketAddr} {net : NetAddress}
    (h : net ∈ d.acceptBootstrap addrs) : d.Admitted net := by
  obtain ⟨addr,_,ha⟩ := List.mem_filterMap.mp h
  split at ha
  · next hacc =>
    obtain rfl := Option.some.inj ha
    exact ⟨netFrom_canonical addr,hacc⟩
  · simp at ha

theorem admitted_discovered {addresses : List (IpAddr × UInt16)} {net : NetAddress}
    (h : net ∈ d.acceptDiscovered addresses) : d.Admitted net := by
  obtain ⟨hm,hacc⟩ := List.mem_filter.mp h
  obtain ⟨entry,_,rfl⟩ := List.mem_map.mp hm
  exact ⟨canonicalizeIp_not_mapped entry.1,hacc⟩

theorem admitted_submission {addr addr' : SocketAddr} (h : d.acceptSubmission addr = some addr') :
    ∃ net, d.Admitted net ∧ addr' = net.socketAddr := by
  unfold acceptSubmission at h
  split at h
  · next hacc => exact ⟨netFrom addr,⟨netFrom_canonical addr,hacc⟩,(Option.some.inj h).symm⟩
  · simp at h

end Node

inductive Caller where
  | worker
  | submission

inductive Runner where
  | probing
  | reading (result : ProbeResult)
  | stamping (result : ProbeResult) (existing : Option PeerRecord)
  | upserting (record : PeerRecord) (addresses : List (IpAddr × UInt16))
  | gossiping (addresses : List (IpAddr × UInt16))
  | seeding (accepted : List NetAddress) (now : Int64)
  | failing
  | recording (now : Int64)
  | done

inductive RunnerEvent where
  | probed (outcome : Option ProbeResult)
  | proceed

namespace Runner

def afterApply (caller : Caller) (addresses : List (IpAddr × UInt16)) : Runner :=
  match caller with
  | .worker => .gossiping addresses
  | .submission => .done

def afterFailure : Caller → Runner
  | .worker => .done
  | .submission => .failing

def step (d : Node) (caller : Caller) (addr : SocketAddr) (db : Db) (clock : Int64) :
    Runner → RunnerEvent → Option (Runner × Option StoreOp)
  | .probing,.probed (some result) => some (.reading result,none)
  | .probing,.probed none => some (afterFailure caller,none)
  | .reading result,.proceed =>
      match PeerStore.get d.codec (netFrom addr) db with
      | .ok existing => some (.stamping result existing,none)
      | .error _ => some (afterApply caller result.addresses,none)
  | .stamping result existing,.proceed =>
      some (.upserting (peerRecordFromVersion addr result.version clock existing) result.addresses,none)
  | .upserting record addresses,.proceed => some (afterApply caller addresses,some (.upsert record))
  | .gossiping addresses,.proceed => some (.seeding (d.acceptDiscovered addresses) clock,none)
  | .seeding accepted now,.proceed => some (.done,some (.insertOrRefreshSeenBatch accepted now))
  | .failing,.proceed =>
      match caller with
      | .submission => some (.recording clock,none)
      | .worker => none
  | .recording now,.proceed => some (.done,some (.recordAttempt (netFrom addr) now))
  | _,_ => none

end Runner

end DnsSeeder
