import DnsSeeder.Crawler.Custody
import DnsSeeder.NetworkGate

namespace DnsSeeder

open Lib PeerStore NetworkGate

def resolveExplicitSeeders (fromStr : String → Option SocketAddr) (seeders : List String) :
    List SocketAddr :=
  seeders.filterMap (fun raw => fromStr (trimmed raw))

def bootstrapAddrs (fromStr : String → Option SocketAddr) (seeders : List String)
    (dnsSeeded : List SocketAddr) : List SocketAddr :=
  if seeders.isEmpty then dnsSeeded else resolveExplicitSeeders fromStr seeders

namespace Node

variable (d : Node)

def insertBootstrapStubs (addrs : List SocketAddr) (now : Int64) (db : Db) : Nat × Db :=
  match insertOrRefreshSeenBatch d.codec (d.acceptBootstrap addrs) now db with
  | .ok acc => acc
  | .error _ => (0,db)

def bootstrap (fromStr : String → Option SocketAddr) (seeders : List String) (dnsSeeded : List SocketAddr)
    (now : Int64) (db : Db) : Nat × Db :=
  d.insertBootstrapStubs (bootstrapAddrs fromStr seeders dnsSeeded) now db

variable {d} {addr : SocketAddr} {addrs : List SocketAddr} {now : Int64} {db : Db}

theorem insertBootstrapStubs_db :
    (d.insertBootstrapStubs addrs now db).2 =
      exec d.codec db (.insertOrRefreshSeenBatch (d.acceptBootstrap addrs) now) := by
  rw [insertBootstrapStubs,exec]
  cases insertOrRefreshSeenBatch d.codec (d.acceptBootstrap addrs) now db <;> rfl

theorem bootstrap_run {s : System} (h : s.sched = .idle) (fromStr : String → Option SocketAddr)
    (seeders : List String) (dnsSeeded : List SocketAddr) :
    run (System.step d) s [.seed (bootstrapAddrs fromStr seeders dnsSeeded),.sched] =
      some { s with db := (d.bootstrap fromStr seeders dnsSeeded s.clock s.db).2 } := by
  rw [bootstrap,insertBootstrapStubs_db]
  simp [run,System.step,System.move,System.schedMove,System.transact,h]

theorem view_insertBootstrapStubs (hx : Exact d.codec db) (addrs : List SocketAddr) (now : Int64)
    (net : NetAddress) :
    view d.codec (d.insertBootstrapStubs addrs now db).2 net =
      if net ∈ d.acceptBootstrap addrs then some (seenRecord net now (view d.codec db net))
      else view d.codec db net := by
  rw [insertBootstrapStubs_db,view_exec hx]
  rfl

theorem mem_acceptBootstrap_singleton {net : NetAddress} :
    net ∈ d.acceptBootstrap [addr] ↔ net = netFrom addr ∧ d.acceptable (netFrom addr) = true := by
  rw [acceptBootstrap,List.filterMap_cons,List.filterMap_nil]
  cases d.acceptable (netFrom addr) <;> simp

variable {fromStr : String → Option SocketAddr} {raw : String}

theorem bootstrap_explicit (hparse : fromStr (trimmed raw) = some addr) (dnsSeeded : List SocketAddr)
    (now : Int64) (db : Db) :
    d.bootstrap fromStr [raw] dnsSeeded now db = d.insertBootstrapStubs [addr] now db := by
  simp [bootstrap,bootstrapAddrs,resolveExplicitSeeders,hparse]

def Seeds (d : Node) (fromStr : String → Option SocketAddr) (seeders : List String) (net : NetAddress) :
    Prop :=
  ∀ db now dnsSeeded, Exact d.codec db →
    view d.codec (d.bootstrap fromStr seeders dnsSeeded now db).2 net =
      some (seenRecord net now (view d.codec db net))

theorem seeds_iff (hparse : fromStr (trimmed raw) = some addr) :
    d.Seeds fromStr [raw] (netFrom addr) ↔ d.acceptable (netFrom addr) = true := by
  constructor
  · intro h
    have hempty := h .empty 0 [] exact_empty
    rw [bootstrap_explicit hparse,view_insertBootstrapStubs exact_empty] at hempty
    split at hempty
    · next hmem => exact (mem_acceptBootstrap_singleton.mp hmem).2
    · rw [System.view_empty] at hempty
      cases hempty
  · intro hacc db now dnsSeeded hx
    rw [bootstrap_explicit hparse,view_insertBootstrapStubs hx,
      if_pos (mem_acceptBootstrap_singleton.mpr ⟨rfl,hacc⟩)]

end Node

section Wiring

variable {N : Type} [DecidableEq N]

def wired (nets : Networks N) (fromStr : String → Option SocketAddr) (network : N) (seeder : Option String)
    (d : Node) : Node :=
  { d with config := { d.config with
      defaultPort := effectiveDefaultPort nets fromStr network seeder } }

theorem wired_acceptable_iff {nets : Networks N} {fromStr : String → Option SocketAddr} {network : N}
    {seeder : Option String} {addr : SocketAddr} {d : Node} (hunknown : isSupported nets network = false)
    (hvalid : validateSeederFormat fromStr seeder = .ok addr)
    (hroutable : d.routable (netFrom addr).ip = true) (hcast : (netFrom addr).ip.isMulticast = false) :
    (wired nets fromStr network seeder d).acceptable (netFrom addr) = true ↔
      addr.port ≠ 0 ∧ (d.config.strictPort = true ∨ addr.port < ephemeralPortFloor) := by
  have hport : (netFrom addr).port = effectiveDefaultPort nets fromStr network seeder :=
    (effectiveDefaultPort_unknown hunknown hvalid).symm
  have hnet : (netFrom addr).port = addr.port := rfl
  rw [Node.acceptable,isAcceptableAddress_iff]
  simp only [wired,← hport,hroutable,hcast,hnet,implies_true,true_and,and_true]
  cases d.config.strictPort <;> simp

theorem accepted_seeder_bootstraps_iff (nets : Networks N) (fromStr : String → Option SocketAddr) (network : N)
    (raw : String) (d : Node) (hunknown : isSupported nets network = false)
    (hgate : requireSeederForUnknownNetwork nets fromStr network (some raw) = .ok ()) :
    (∃ addr, fromStr (trimmed raw) = some addr ∧
      (d.routable (netFrom addr).ip = true → (netFrom addr).ip.isMulticast = false →
        ((wired nets fromStr network (some raw) d).Seeds fromStr [raw] (netFrom addr) ↔
          addr.port ≠ 0 ∧ (d.config.strictPort = true ∨ addr.port < ephemeralPortFloor)))) ∧
    ∀ net defaultPort, isAcceptableAddress d.routable net defaultPort true = true →
      (isAcceptableAddress d.routable net defaultPort false = true ↔ net.port < ephemeralPortFloor) := by
  constructor
  · obtain ⟨addr,hvalid⟩ := (require_ok_iff hunknown).mp hgate
    obtain ⟨_,hraw,hparse⟩ := validate_ok_iff.mp hvalid
    obtain rfl := Option.some.inj hraw
    refine ⟨addr,hparse,?_⟩
    intro hroutable hcast
    rw [Node.seeds_iff hparse,wired_acceptable_iff hunknown hvalid hroutable hcast]
  · intro net defaultPort hstrict
    obtain ⟨hport,_,_,hcast,hroutable⟩ := isAcceptableAddress_iff.mp hstrict
    rw [isAcceptableAddress_iff]
    simp [hport,hcast,hroutable]

end Wiring

inductive Chain where
  | mainnet
  | devnet
deriving DecidableEq

def sampleNetworks : Networks Chain where
  iter := [.mainnet,.devnet]
  dnsSeeders
    | .mainnet => ["seed.example.org"]
    | .devnet => []
  defaultP2pPort
    | .mainnet => 16111
    | .devnet => 16611
  display
    | .mainnet => "mainnet"
    | .devnet => "devnet"

def decimal (chars : List Char) : Option Nat :=
  if chars ≠ [] ∧ chars.all Char.isDigit then
    some (chars.foldl (fun n ch => n * 10 + (ch.toNat - 48)) 0)
  else none

def octet (chars : List Char) : Option Nat :=
  (decimal chars).filter (fun n => n < 256 ∧ (chars.length = 1 ∨ chars.head? ≠ some '0'))

def literalV4 (raw : String) : Option SocketAddr :=
  match raw.toList.splitOn ':' with
  | [host,port] =>
      match (host.splitOn '.').map octet,decimal port with
      | [some a,some b,some c,some d],some p =>
          if p < 65536 then
            some ⟨.v4 (BitVec.ofNat 32 (((a * 256 + b) * 256 + c) * 256 + d)),UInt16.ofNat p⟩
          else none
      | _,_ => none
  | _ => none

def gatedNode (raw : String) (strictPort : Bool) : Node :=
  wired sampleNetworks literalV4 .devnet (some raw)
    { sampleNode with config := { sampleNode.config with strictPort } }

theorem accepted_seeder_bootstraps_iff_padded :
    (gatedNode " 8.8.8.8:16611 " false).Seeds literalV4 [" 8.8.8.8:16611 "] ⟨.v4 0x08080808#32,16611⟩ := by
  obtain ⟨⟨addr,hparse,h⟩,_⟩ := accepted_seeder_bootstraps_iff sampleNetworks literalV4 .devnet
    " 8.8.8.8:16611 " { sampleNode with config := { sampleNode.config with strictPort := false } }
    (by decide) (by decide)
  have haddr : literalV4 (trimmed " 8.8.8.8:16611 ") = some ⟨.v4 0x08080808#32,16611⟩ := by decide
  obtain rfl := Option.some.inj (haddr.symm.trans hparse)
  exact (h rfl rfl).mpr ⟨by decide,Or.inr (by decide)⟩

theorem high_port_seeder_skipped :
    isSupported sampleNetworks .devnet = false ∧
    requireSeederForUnknownNetwork sampleNetworks literalV4 .devnet (some "8.8.8.8:40000") = .ok () ∧
    ((gatedNode "8.8.8.8:40000" true).bootstrap literalV4 ["8.8.8.8:40000"] [] 1 .empty).1 = 1 ∧
    ((gatedNode "8.8.8.8:40000" false).bootstrap literalV4 ["8.8.8.8:40000"] [] 1 .empty).1 = 0 ∧
    view Bincode.standard
      ((gatedNode "8.8.8.8:40000" false).bootstrap literalV4 ["8.8.8.8:40000"] [] 1 .empty).2
      ⟨.v4 0x08080808#32,40000⟩ = none := by
  decide

end DnsSeeder
