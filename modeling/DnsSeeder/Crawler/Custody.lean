import DnsSeeder.Crawler.Held
import DnsSeeder.Store.Bincode

namespace DnsSeeder

open Lib PeerStore

namespace System

variable {d : Node} {s t : System} {t₀ : Int64} {R : Int64 → NetAddress → PeerRecord → Prop}
  {Q : Int64 → Held → Prop}

structure Kept (d : Node) (t₀ : Int64) (R : Int64 → NetAddress → PeerRecord → Prop)
    (Q : Int64 → Held → Prop) (s : System) : Prop where
  clock : t₀ ≤ s.clock
  exact : Exact d.codec s.db
  keyed : Keyed d.codec s.db
  records : ∀ addr rec, view d.codec s.db addr = some rec → R s.clock addr rec
  held : ∀ x ∈ held s, Q s.clock x

structure Custody (d : Node) (t₀ : Int64) (R : Int64 → NetAddress → PeerRecord → Prop)
    (Q : Int64 → Held → Prop) : Prop where
  record_mono : ∀ u u' addr rec, u ≤ u' → R u addr rec → R u' addr rec
  held_mono : ∀ u u' x, u ≤ u' → Q u x → Q u' x
  fresh : ∀ s x, Kept d t₀ R Q s → Fresh d s x → Q s.clock x
  apply : ∀ u op m, (∀ addr rec, m addr = some rec → R u addr rec) → Q u (.op op) →
    ∀ addr rec, apply op m addr = some rec → R u addr rec

theorem kept_step (hc : Custody d t₀ R Q) (h : Kept d t₀ R Q s) {e : Event} (hs : step d s e = some t) :
    Kept d t₀ R Q t := by
  obtain ⟨⟨u,op⟩,hm,rfl⟩ := Option.map_eq_some_iff.mp hs
  have hmoved := moved_move hm
  have hclock : t₀ ≤ u.clock := Int64.le_trans h.clock hmoved.clock
  have hheld : ∀ x ∈ held u, Q u.clock x := by
    intro x hx
    rcases hmoved.held x hx with hx | hx
    · exact hc.held_mono _ _ x hmoved.clock (h.held x hx)
    · exact hc.held_mono _ _ x hmoved.clock (hc.fresh s x h hx)
  have hrec : ∀ addr rec, view d.codec s.db addr = some rec → R u.clock addr rec :=
    fun addr rec hr => hc.record_mono _ _ addr rec hmoved.clock (h.records addr rec hr)
  cases op with
  | none => exact ⟨hclock,h.exact,h.keyed,hrec,hheld⟩
  | some op =>
    refine ⟨hclock,exact_exec h.exact op,keyed_exec h.exact h.keyed op,?_,hheld⟩
    intro addr rec hr
    change view d.codec (exec d.codec s.db op) addr = some rec at hr
    rw [view_exec h.exact] at hr
    rcases hmoved.op op rfl with hop | ⟨addr',_,rfl⟩
    · exact hc.apply _ op _ hrec (hc.held_mono _ _ _ hmoved.clock (h.held _ hop)) addr rec hr
    · cases leaves_of_apply hr with
      | kept hm _ => exact hrec addr rec hm

theorem kept_start {db : Db} (hx : Exact d.codec db) (hk : Keyed d.codec db) {clock : Int64}
    (hclock : t₀ ≤ clock) (hrec : ∀ addr rec, view d.codec db addr = some rec → R clock addr rec) :
    Kept d t₀ R Q (start d db clock) where
  clock := hclock
  exact := hx
  keyed := hk
  records := hrec
  held := by simp [held,start,Sched.held,WorkerPool.heldItems,WorkerPool.nets,WorkerPool.spawn]

theorem kept_run (hc : Custody d t₀ R Q) {db : Db} {clock : Int64} {es : List Event}
    (hx : Exact d.codec db) (hk : Keyed d.codec db) (hclock : t₀ ≤ clock)
    (hrec : ∀ addr rec, view d.codec db addr = some rec → R clock addr rec)
    (hr : run (step d) (start d db clock) es = some s) : Kept d t₀ R Q s :=
  run_invariant (I := Kept d t₀ R Q) (fun _ _ _ hu hs => kept_step hc hu hs) (kept_start hx hk hclock hrec) hr

def OpAdmits (A : NetAddress → Prop) : StoreOp → Prop
  | .upsert rec => A rec.address
  | .recordAttempt addr _ => A addr
  | .insertOrRefreshSeenBatch addrs _ => ∀ addr ∈ addrs, A addr
  | .delete _ => True
  | .pruneDead _ => True

def HeldAdmits (A : NetAddress → Prop) : Held → Prop
  | .target addr => ∃ net, A net ∧ net.socketAddr = addr
  | .op op => OpAdmits A op
  | .tick _ => True
  | .existing _ _ => True

structure Admits (d : Node) (A : NetAddress → Prop) : Prop where
  admitted : ∀ net, d.Admitted net → A net
  canonical : ∀ net, A net → net.Canonical

variable {A : NetAddress → Prop}

theorem apply_admits {op : StoreOp} {m : PeerMap} (hm : ∀ addr rec, m addr = some rec → A addr)
    (hop : OpAdmits A op) (addr : NetAddress) (rec : PeerRecord) (h : apply op m addr = some rec) :
    A addr := by
  cases leaves_of_apply h with
  | upserted ha => exact ha ▸ hop
  | attempted now => exact hop
  | seen now ha => exact hop addr ha
  | kept hkept _ => exact hm addr rec hkept

theorem netFrom_admits (hA : Admits d A) {addr : SocketAddr} (h : HeldAdmits A (.target addr)) :
    A (netFrom addr) := by
  obtain ⟨net,hnet,rfl⟩ := h
  rw [netFrom_socketAddr (hA.canonical net hnet)]
  exact hnet

theorem custody_admits (hA : Admits d A) :
    Custody d t₀ (fun _ addr _ => A addr) (fun _ x => HeldAdmits A x) where
  record_mono _ _ _ _ _ h := h
  held_mono _ _ _ _ h := h
  fresh s x h hx := by
    cases hx with
    | @run caller addr inherited _ _ haddr hin hrun =>
      have hfrom := netFrom_admits hA (h.held _ haddr)
      cases hrun with
      | read _ => trivial
      | stamp version _ => exact hfrom
      | discovered addresses => exact fun net hn => hA.admitted net (Node.admitted_discovered hn)
      | failed _ => exact hfrom
    | bootstrap addrs => exact fun net hn => hA.admitted net (Node.admitted_bootstrap hn)
    | prune => trivial
    | tick => trivial
    | @due now rec _ hdue =>
      obtain ⟨⟨key,hrow⟩,_⟩ := hdue
      have hkey := h.keyed key rec hrow
      exact h.records rec.address rec (by rw [view,← hkey,hrow])
    | submit hsub =>
      obtain ⟨net,hnet,rfl⟩ := Node.admitted_submission hsub
      exact ⟨net,hA.admitted net hnet,rfl⟩
    | @offer net now hheld =>
      have hnet : A net := h.held _ hheld
      exact ⟨net,hnet,rfl⟩
  apply _ op m hm hop addr rec hr := apply_admits hm hop addr rec hr

theorem admits_canonical : Admits d NetAddress.Canonical := ⟨fun _ h => h.1,fun _ h => h⟩

theorem admits_admitted : Admits d d.Admitted := ⟨fun _ h => h,fun _ h => h.1⟩

theorem view_empty (c : Codec) (addr : NetAddress) : view c .empty addr = none := by
  simp [view,row,Db.empty]

theorem stored_addresses_admitted (d : Node) (clock : Int64) (es : List Event) (s : System)
    (hr : run (step d) (start d .empty clock) es = some s) :
    (∀ key v, s.db.peers.get key = some v → ∃ rec, d.codec.decodeRecord v = .ok rec ∧
      key = d.codec.encodeKey rec.address ∧ rec.address.ip.isV4Mapped = false ∧
      isAcceptableAddress d.routable rec.address d.config.defaultPort d.config.strictPort = true) ∧
    (∀ key key' v v' rec rec', s.db.peers.get key = some v → s.db.peers.get key' = some v' →
      d.codec.decodeRecord v = .ok rec → d.codec.decodeRecord v' = .ok rec' →
      canonicalizeIp rec.address.ip = canonicalizeIp rec'.address.ip →
      rec.address.port = rec'.address.port → key = key') := by
  have hs := kept_run (custody_admits admits_admitted) exact_empty keyed_empty
    (Int64.le_refl clock) (fun addr rec h => by simp [view_empty] at h) hr
  have hrow : ∀ key v rec, s.db.peers.get key = some v → d.codec.decodeRecord v = .ok rec →
      key = d.codec.encodeKey rec.address ∧ d.Admitted rec.address := by
    intro key v rec hv hd
    have hrow := row_of_decode hv hd
    have hkey := hs.keyed key rec hrow
    exact ⟨hkey,hs.records rec.address rec (by rw [view,← hkey,hrow])⟩
  constructor
  · intro key v hv
    obtain ⟨rec,hd⟩ := hs.exact.decodes key v hv
    obtain ⟨hkey,hcan,hacc⟩ := hrow key v rec hv hd
    exact ⟨rec,hd,hkey,hcan,hacc⟩
  · intro key key' v v' rec rec' hv hv' hd hd' hip hport
    obtain ⟨hkey,hcan,_⟩ := hrow key v rec hv hd
    obtain ⟨hkey',hcan',_⟩ := hrow key' v' rec' hv' hd'
    rw [canonicalizeIp_of_not_mapped hcan,canonicalizeIp_of_not_mapped hcan'] at hip
    have haddr : rec.address = rec'.address := by
      cases ha : rec.address
      cases ha' : rec'.address
      simp_all
    rw [hkey,hkey',haddr]

end System

def sampleNode : Node where
  codec := Bincode.standard
  routable := fun _ => true
  config := ⟨16111,1,.fromSecs 1800,.fromSecs 7200,.fromSecs 86400,false⟩

def samplePeer : SocketAddr := ⟨.v4 0x08080808#32,16111⟩

def sampleProbe : ProbeResult := ⟨⟨[1],7,0,⟨"/kaspad:1.0.0/",by decide⟩,none⟩,[]⟩

namespace System

def seedMapped : List Event :=
  [.seed [samplePeer,⟨.v6 0xffff08080808#128,16111⟩,⟨.v6 0xffff08080808#128,0⟩],.sched]

theorem stored_addresses_admitted_seed :
    ∃ s, run (step sampleNode) (start sampleNode .empty 1) seedMapped = some s ∧
      s.db.peers.iter.map Prod.fst = [Bincode.standard.encodeKey (netFrom samplePeer)] ∧
      ∀ key v, s.db.peers.get key = some v → ∃ rec, Bincode.standard.decodeRecord v = .ok rec ∧
        key = Bincode.standard.encodeKey rec.address ∧ rec.address.ip.isV4Mapped = false ∧
        isAcceptableAddress sampleNode.routable rec.address 16111 false = true :=
  ⟨_,rfl,by decide,(stored_addresses_admitted sampleNode 1 seedMapped _ rfl).1⟩

end System

end DnsSeeder
