import DnsSeeder.Crawler.Bootstrap
import DnsSeeder.Store.Batch

namespace DnsSeeder

open Lib PeerStore NetworkGate

-- No case for a lookup task that panics: with `panic = "abort"` the process is gone.
inductive Lookup where
  | resolved (list : List SocketAddr)
  | failed
  | timedOut

def Lookup.harvest : Lookup → List SocketAddr
  | .resolved list => list
  | .failed => []
  | .timedOut => []

structure JoinSet where
  tasks : List Lookup
  out : List SocketAddr

def JoinSet.joinNext (joins : JoinSet) (i : Nat) : Option JoinSet :=
  (joins.tasks[i]?).map (fun task => ⟨joins.tasks.eraseIdx i,joins.out ++ task.harvest⟩)

abbrev Resolver := String → UInt16 → Lookup

section seeding
variable {N : Type} [DecidableEq N] (nets : Networks N) (network : N) (resolver : Resolver)

def builtinSeeders : List String := if nets.iter.any (· = network) then nets.dnsSeeders network else []

def lookups : List Lookup :=
  (builtinSeeders nets network).map (fun host => resolver host (nets.defaultP2pPort network))

def dnsSeedMany (order : List Nat) : Option (List SocketAddr) :=
  (run JoinSet.joinNext ⟨lookups nets network resolver,[]⟩ order).bind (fun joins =>
    if joins.tasks.isEmpty then some joins.out else none)

def Offered (d : Node) (net : NetAddress) : Prop :=
  network ∈ nets.iter ∧ ∃ host ∈ nets.dnsSeeders network, ∃ list,
    resolver host (nets.defaultP2pPort network) = .resolved list ∧
      ∃ addr ∈ list, netFrom addr = net ∧ d.acceptable net = true

end seeding

theorem joinNext_perm {s t : JoinSet} {i : Nat} (h : s.joinNext i = some t) :
    (t.out ++ t.tasks.flatMap Lookup.harvest).Perm (s.out ++ s.tasks.flatMap Lookup.harvest) := by
  obtain ⟨task,hi,rfl⟩ := Option.map_eq_some_iff.mp h
  obtain ⟨hlt,rfl⟩ := List.getElem?_eq_some_iff.mp hi
  have hperm := (List.getElem_cons_eraseIdx_perm hlt).flatMap_right Lookup.harvest
  rw [List.flatMap_cons] at hperm
  rw [List.append_assoc]
  exact hperm.append_left s.out

theorem joins_perm {tasks : List Lookup} {order : List Nat} {s : JoinSet}
    (h : run JoinSet.joinNext ⟨tasks,[]⟩ order = some s) :
    (s.out ++ s.tasks.flatMap Lookup.harvest).Perm (tasks.flatMap Lookup.harvest) :=
  run_invariant (I := fun s => (s.out ++ s.tasks.flatMap Lookup.harvest).Perm
    (tasks.flatMap Lookup.harvest)) (fun _ _ _ hs hnext => (joinNext_perm hnext).trans hs)
    (List.Perm.refl _) h

variable {N : Type} [DecidableEq N] {nets : Networks N} {network : N} {resolver : Resolver}

theorem dnsSeedMany_perm {order : List Nat} {out : List SocketAddr}
    (h : dnsSeedMany nets network resolver order = some out) :
    out.Perm ((lookups nets network resolver).flatMap Lookup.harvest) := by
  obtain ⟨s,hs,hout⟩ := Option.bind_eq_some_iff.mp h
  split at hout
  · next hempty =>
    obtain rfl := Option.some.inj hout
    have hperm := joins_perm hs
    rwa [List.isEmpty_iff.mp hempty,List.flatMap_nil,List.append_nil] at hperm
  · cases hout

theorem joins_all (tasks : List Lookup) (out : List SocketAddr) :
    run JoinSet.joinNext ⟨tasks,out⟩ (List.replicate tasks.length 0) =
      some ⟨[],out ++ tasks.flatMap Lookup.harvest⟩ := by
  induction tasks generalizing out with
  | nil => rw [List.flatMap_nil,List.append_nil]; rfl
  | cons task tasks ih =>
    rw [List.length_cons,List.replicate_succ,run_cons]
    change run JoinSet.joinNext ⟨tasks,out ++ task.harvest⟩ _ = _
    rw [ih,List.flatMap_cons,List.append_assoc]

theorem dnsSeedMany_sequential (nets : Networks N) (network : N) (resolver : Resolver) :
    dnsSeedMany nets network resolver (List.replicate (lookups nets network resolver).length 0) =
      some ((lookups nets network resolver).flatMap Lookup.harvest) := by
  rw [dnsSeedMany,joins_all]
  rfl

namespace Node

variable {d : Node} {db db' : Db} {now : Int64} {n : Nat}

theorem mem_acceptBootstrap {addrs : List SocketAddr} {net : NetAddress} :
    net ∈ d.acceptBootstrap addrs ↔ ∃ addr ∈ addrs, netFrom addr = net ∧ d.acceptable net = true := by
  simp only [acceptBootstrap,List.mem_filterMap]
  refine exists_congr (fun addr => and_congr_right (fun _ => ?_))
  split
  · next hacc =>
    rw [Option.some.injEq]
    exact ⟨fun he => ⟨he,he ▸ hacc⟩,And.left⟩
  · next hacc =>
    constructor
    · intro he
      cases he
    · rintro ⟨rfl,hok⟩
      exact absurd hok hacc

theorem insertBootstrapStubs_refreshed (hx : Exact d.codec db) (addrs : List SocketAddr) (now : Int64) :
    Refreshed d.codec now db (d.acceptBootstrap addrs) (d.insertBootstrapStubs addrs now db).1
      (d.insertBootstrapStubs addrs now db).2 := by
  obtain ⟨⟨n,db'⟩,h⟩ := batch_total hx (d.acceptBootstrap addrs) now
  have hstubs : d.insertBootstrapStubs addrs now db = (n,db') := by
    rw [insertBootstrapStubs,h]
  rw [hstubs]
  exact refreshed_batch h

theorem insertBootstrapStubs_perm (hx : Exact d.codec db) {addrs addrs' : List SocketAddr}
    (hperm : addrs'.Perm addrs) (now : Int64) :
    d.insertBootstrapStubs addrs' now db = d.insertBootstrapStubs addrs now db := by
  have hsame : ∀ net, net ∈ d.acceptBootstrap addrs' ↔ net ∈ d.acceptBootstrap addrs := by
    intro net
    simp only [mem_acceptBootstrap,hperm.mem_iff]
  obtain ⟨hn,hdb⟩ := (insertBootstrapStubs_refreshed hx addrs now).unique
    (insertBootstrapStubs_refreshed hx addrs' now) hsame
  exact Prod.ext hn hdb

theorem exact_insertBootstrapStubs (hx : Exact d.codec db) (addrs : List SocketAddr) (now : Int64) :
    Exact d.codec (d.insertBootstrapStubs addrs now db).2 := by
  rw [insertBootstrapStubs_db]
  exact exact_exec hx _

theorem insertBootstrapStubs_again (hx : Exact d.codec db) {addrs addrs' : List SocketAddr}
    (hsub : ∀ addr ∈ addrs', addr ∈ addrs) (now now' : Int64) :
    (d.insertBootstrapStubs addrs' now' (d.insertBootstrapStubs addrs now db).2).1 = 0 := by
  have hx' := exact_insertBootstrapStubs hx addrs now
  rw [(insertBootstrapStubs_refreshed hx' addrs' now').inserted,Finset.card_eq_zero]
  refine Finset.filter_eq_empty_iff.mpr ?_
  intro net hnet hnone
  obtain ⟨addr,haddr,hfrom,hacc⟩ := mem_acceptBootstrap.mp (List.mem_toFinset.mp hnet)
  have hmem : net ∈ d.acceptBootstrap addrs := mem_acceptBootstrap.mpr ⟨addr,hsub addr haddr,hfrom,hacc⟩
  rw [view_insertBootstrapStubs hx,if_pos hmem] at hnone
  cases hnone

end Node

theorem mem_harvest {task : Lookup} {addr : SocketAddr} :
    addr ∈ task.harvest ↔ ∃ list, task = .resolved list ∧ addr ∈ list := by
  cases task <;> simp [Lookup.harvest]

theorem mem_harvests {addr : SocketAddr} :
    addr ∈ (lookups nets network resolver).flatMap Lookup.harvest ↔
      network ∈ nets.iter ∧ ∃ host ∈ nets.dnsSeeders network, ∃ list,
        resolver host (nets.defaultP2pPort network) = .resolved list ∧ addr ∈ list := by
  simp only [lookups,builtinSeeders,List.any_eq_true,decide_eq_true_eq,exists_eq_right]
  split
  · next hmem => simp [hmem,mem_harvest]
  · next hmem => simp [hmem]

theorem offered_iff {d : Node} {net : NetAddress} :
    net ∈ d.acceptBootstrap ((lookups nets network resolver).flatMap Lookup.harvest) ↔
      Offered nets network resolver d net := by
  simp only [Node.mem_acceptBootstrap,mem_harvests,Offered]
  constructor
  · rintro ⟨addr,⟨hnet,host,hhost,list,hlist,haddr⟩,hok⟩
    exact ⟨hnet,host,hhost,list,hlist,addr,haddr,hok⟩
  · rintro ⟨hnet,host,hhost,list,hlist,addr,haddr,hok⟩
    exact ⟨addr,⟨hnet,host,hhost,list,hlist,haddr⟩,hok⟩

theorem seeding_order_independent (nets : Networks N) (network : N) (resolver : Resolver) (d : Node) (db : Db)
    (hx : Exact d.codec db) (now : Int64) :
    (∃ order out, dnsSeedMany nets network resolver order = some out) ∧
    ∃ inserted db', ∀ order out, dnsSeedMany nets network resolver order = some out →
      d.insertBootstrapStubs out now db = (inserted,db') ∧
      (∀ net, Offered nets network resolver d net →
        view d.codec db' net = some (seenRecord net now (view d.codec db net))) ∧
      (∀ net, ¬ Offered nets network resolver d net → view d.codec db' net = view d.codec db net) ∧
      ∀ order' out' now', dnsSeedMany nets network resolver order' = some out' →
        (d.insertBootstrapStubs out' now' db').1 = 0 := by
  refine ⟨⟨_,_,dnsSeedMany_sequential nets network resolver⟩,
    (d.insertBootstrapStubs ((lookups nets network resolver).flatMap Lookup.harvest) now db).1,
    (d.insertBootstrapStubs ((lookups nets network resolver).flatMap Lookup.harvest) now db).2,?_⟩
  intro order out hout
  refine ⟨Node.insertBootstrapStubs_perm hx (dnsSeedMany_perm hout) now,?_,?_,?_⟩
  · intro net hnet
    rw [Node.view_insertBootstrapStubs hx,if_pos (offered_iff.mpr hnet)]
  · intro net hnet
    rw [Node.view_insertBootstrapStubs hx,if_neg (fun hmem => hnet (offered_iff.mp hmem))]
  · intro order' out' now' hout'
    exact Node.insertBootstrapStubs_again hx (fun addr ha => (dnsSeedMany_perm hout').mem_iff.mp ha) now now'

def threeSeeders : Networks Chain :=
  { sampleNetworks with dnsSeeders := fun _ => ["a.example.org","b.example.org","c.example.org"] }

def partialResolver : Resolver := fun host port =>
  if host = "a.example.org" then .resolved [⟨.v4 0x08080808#32,port⟩,⟨.v4 0xe0000001#32,port⟩]
  else if host = "b.example.org" then .timedOut
  else .resolved [⟨.v4 0x08080404#32,port⟩,⟨.v4 0x08080808#32,port⟩]

theorem seeding_order_independent_three :
    ((dnsSeedMany threeSeeders .mainnet partialResolver [2,1,0]).map
      (fun out => ((sampleNode.insertBootstrapStubs out 5 .empty).1,
        (sampleNode.insertBootstrapStubs out 9 (sampleNode.insertBootstrapStubs out 5 .empty).2).1))) =
      some (2,0) ∧
    ∃ inserted db', ∀ order out, dnsSeedMany threeSeeders .mainnet partialResolver order = some out →
      sampleNode.insertBootstrapStubs out 5 .empty = (inserted,db') := by
  obtain ⟨_,inserted,db',h⟩ := seeding_order_independent threeSeeders .mainnet partialResolver sampleNode .empty
    exact_empty 5
  exact ⟨by decide,inserted,db',fun order out hout => (h order out hout).1⟩

end DnsSeeder
