import DnsSeeder.Crawler.Classify
import DnsSeeder.Crawler.Fading
import DnsSeeder.Crawler.OldestFirst

namespace DnsSeeder

open Lib PeerStore

namespace PeerStore

variable {c : Codec} {db : Db}

def population (c : Codec) (db : Db) : Finset NetAddress :=
  ((records c db).map PeerRecord.address).toFinset

theorem mem_population (hk : Keyed c db) {addr : NetAddress} :
    addr ∈ population c db ↔ ∃ rec, view c db addr = some rec := by
  simp only [population,List.mem_toFinset,List.mem_map]
  constructor
  · rintro ⟨rec,hrec,rfl⟩
    exact ⟨rec,(mem_records hk rec).mp hrec⟩
  · rintro ⟨rec,hrec⟩
    have haddr := view_address hk hrec
    exact ⟨rec,(mem_records hk rec).mpr (by rw [haddr]; exact hrec),haddr⟩

theorem card_population (hk : Keyed c db) : (population c db).card = (records c db).length := by
  rw [population,List.toFinset_card_of_nodup (records_address_nodup hk),List.length_map]

theorem population_exec (hx : Exact c db) (hk : Keyed c db) (op : StoreOp) :
    population c (exec c db op) ⊆ population c db ∪ op.targets.toFinset := by
  intro addr h
  obtain ⟨rec,hrec⟩ := (mem_population (keyed_exec hx hk op)).mp h
  rw [view_exec hx] at hrec
  rw [Finset.mem_union,List.mem_toFinset,mem_population hk]
  cases leaves_of_apply hrec with
  | upserted ha => exact Or.inr (List.mem_singleton.mpr ha)
  | attempted now => exact Or.inr (List.mem_singleton.mpr rfl)
  | seen now ha => exact Or.inr ha
  | kept hkept _ => exact Or.inl ⟨rec,hkept⟩

end PeerStore

def Caller.gossips : Caller → Nat → Nat
  | .worker,n => n
  | .submission,_ => 0

namespace Runner

def owes (caller : Caller) : Runner → Nat
  | .probing => 0
  | .reading result => 1 + caller.gossips result.addresses.length
  | .stamping result _ => 1 + caller.gossips result.addresses.length
  | .upserting _ addresses => 1 + caller.gossips addresses.length
  | .gossiping addresses => addresses.length
  | .seeding accepted _ => accepted.length
  | .failing => 1
  | .recording _ => 1
  | .done => 0

def charge (caller : Caller) : RunnerEvent → Nat
  | .probed (some result) => 1 + caller.gossips result.addresses.length
  | .probed none => (afterFailure caller).owes caller
  | .proceed => 0

end Runner

def Worker.owes : Worker Runner → Nat
  | ⟨_,.running r⟩ => r.owes .worker
  | _ => 0

def Post.owes (post : Post) : Nat := post.runner.owes .submission

namespace Sched

def roll (sched : Sched) : Finset NetAddress := (sched.pending.getD []).toFinset

variable {now : Int64} {net addr : NetAddress} {recs : List PeerRecord}

theorem mem_roll_scanning :
    addr ∈ (Sched.scanning now recs).roll ↔ ∃ rec ∈ recs, rec.address = addr := by
  simp [roll,pending]

theorem mem_roll_offering :
    addr ∈ (Sched.offering now net recs).roll ↔ addr = net ∨ ∃ rec ∈ recs, rec.address = addr := by
  simp [roll,pending]

theorem mem_roll_recording :
    addr ∈ (Sched.recording now net recs).roll ↔ addr = net ∨ ∃ rec ∈ recs, rec.address = addr := by
  simp [roll,pending]

def owes : Sched → Nat
  | .seeding accepted _ => accepted.length
  | _ => 0

end Sched

def Event.charge : Event → Nat
  | .seed addrs => addrs.length
  | .work _ e => Runner.charge .worker e
  | .post _ e => Runner.charge .submission e
  | _ => 0

def Event.answered : Event → Bool
  | .work _ (.probed (some _)) => true
  | _ => false

def Event.submitted : Event → Bool
  | .post _ (.probed _) => true
  | _ => false

def Event.bootstrapped : Event → Nat
  | .seed addrs => addrs.length
  | _ => 0

def written : Option StoreOp → List NetAddress
  | some op => op.targets
  | none => []

namespace Runner

theorem owes_afterApply (caller : Caller) (addresses : List (IpAddr × UInt16)) :
    (afterApply caller addresses).owes caller = caller.gossips addresses.length := by
  cases caller <;> rfl

theorem length_acceptDiscovered (d : Node) (addresses : List (IpAddr × UInt16)) :
    (d.acceptDiscovered addresses).length ≤ addresses.length := by
  unfold Node.acceptDiscovered
  exact (List.length_filter_le _ _).trans (List.length_map _).le

theorem owes_step {d : Node} {caller : Caller} {addr : SocketAddr} {db : Db} {u : Int64} {r r' : Runner}
    {e : RunnerEvent} {op : Option StoreOp} (h : r.step d caller addr db u e = some (r',op)) :
    r'.owes caller + (written op).length ≤ r.owes caller + charge caller e := by
  unfold step at h
  split at h
  · obtain ⟨rfl,rfl⟩ := Prod.mk.inj (Option.some.inj h)
    exact (Nat.zero_add _).ge
  · obtain ⟨rfl,rfl⟩ := Prod.mk.inj (Option.some.inj h)
    exact (Nat.zero_add _).ge
  · split at h
    · obtain ⟨rfl,rfl⟩ := Prod.mk.inj (Option.some.inj h)
      exact Nat.le_refl _
    · obtain ⟨rfl,rfl⟩ := Prod.mk.inj (Option.some.inj h)
      rw [owes_afterApply,owes]
      exact (Nat.le_add_left _ _).trans (Nat.le_add_right _ _)
  · obtain ⟨rfl,rfl⟩ := Prod.mk.inj (Option.some.inj h)
    exact Nat.le_refl _
  · obtain ⟨rfl,rfl⟩ := Prod.mk.inj (Option.some.inj h)
    rw [owes_afterApply,owes,Nat.add_comm]
    exact Nat.le_refl _
  · next addresses =>
    obtain ⟨rfl,rfl⟩ := Prod.mk.inj (Option.some.inj h)
    exact length_acceptDiscovered d addresses
  · obtain ⟨rfl,rfl⟩ := Prod.mk.inj (Option.some.inj h)
    exact (Nat.zero_add _).le
  · split at h
    · obtain ⟨rfl,rfl⟩ := Prod.mk.inj (Option.some.inj h)
      exact Nat.le_refl _
    · cases h
  · obtain ⟨rfl,rfl⟩ := Prod.mk.inj (Option.some.inj h)
    exact Nat.le_refl _
  · cases h

end Runner

namespace WorkerPool

variable {W : Type} {p q : WorkerPool W} {f : Worker W → Nat}

theorem sum_workers_step {e : PoolEvent W}
    (hidle : ∀ addr phase, (∀ r, phase ≠ .running r) → f ⟨addr,phase⟩ = 0)
    (hquiet : ∀ i r, e = .start i r ∨ e = .work i r → ∀ addr, f ⟨addr,.running r⟩ = 0)
    (hs : step p e = some q) : (q.workers.map f).sum ≤ (p.workers.map f).sum := by
  have hset : ∀ i addr phase phase', p.workers[i]? = some ⟨addr,phase⟩ → f ⟨addr,phase'⟩ = 0 →
      ((p.workers.set i ⟨addr,phase'⟩).map f).sum ≤ (p.workers.map f).sum := by
    intro i addr phase phase' hi hzero
    have hsum := sum_set f hi ⟨addr,phase'⟩
    omega
  cases e with
  | spawn =>
    simp only [step] at hs
    split at hs
    · obtain rfl := Option.some.inj hs
      rw [List.map_append,List.sum_append,List.map_singleton,List.sum_singleton,hidle _ _ (by simp)]
      exact Nat.le_refl _
    · cases hs
  | start i task =>
    simp only [step,setPhase] at hs
    split at hs
    · next hi =>
      obtain rfl := Option.some.inj hs
      exact hset i _ _ _ hi (hquiet i task (Or.inl rfl) _)
    · cases hs
  | work i task =>
    simp only [step,setPhase] at hs
    split at hs
    · next hi =>
      obtain rfl := Option.some.inj hs
      exact hset i _ _ _ hi (hquiet i task (Or.inr rfl) _)
    · cases hs
  | finish i panicked =>
    simp only [step,setPhase] at hs
    split at hs
    · next hi =>
      obtain rfl := Option.some.inj hs
      exact hset i _ _ _ hi (hidle _ _ (by simp))
    · cases hs
  | release i =>
    simp only [step,setPhase] at hs
    split at hs
    · next hi =>
      obtain rfl := Option.some.inj hs
      exact hset i _ _ _ hi (hidle _ _ (by simp))
    · cases hs
  | abort i =>
    simp only [step,setPhase] at hs
    split at hs
    · next hi =>
      split at hs
      · obtain rfl := Option.some.inj hs
        exact hset i _ _ _ hi (hidle _ _ (by simp))
      · cases hs
    · cases hs
  | join i =>
    simp only [step] at hs
    split at hs
    · next hi =>
      obtain rfl := Option.some.inj hs
      have hsum := sum_eraseIdx f hi
      simp only
      omega
    · cases hs
  | _ =>
    simp only [step] at hs
    repeat' split at hs
    all_goals first
      | (obtain rfl := Option.some.inj hs; exact Nat.le_refl _)
      | cases hs

end WorkerPool

namespace ProbeInitializer

theorem length_collected {order : HashOrder} {n : UInt8} {script : Nat → Round} {out : List PeerAddress}
    (h : collectAddresses order n script = .ok out) : out.length ≤ maxAddressesReceive := by
  unfold collectAddresses at h
  cases hrun : collectRounds script (rounds n) 0 ∅ with
  | error err =>
    rw [hrun] at h
    cases h
  | ok addressSet =>
    rw [hrun] at h
    obtain rfl := Except.ok.inj h
    obtain ⟨k,hk⟩ := collected_of_ok (by simp) rfl (Nat.zero_le _) hrun
    exact (length_toVec order addressSet).trans_le hk.fits

theorem length_probed {order : HashOrder} {config : ProbeInitializerConfig} {transcript : Transcript}
    {result : ProbeResult} (h : doProbe order config transcript = .ok result) :
    result.addresses.length ≤ maxAddressesReceive := by
  obtain ⟨version,_,h⟩ := except_bind_ok h
  split at h
  · cases h
  · obtain ⟨_,_,h⟩ := except_bind_ok h
    obtain ⟨_,_,h⟩ := except_bind_ok h
    obtain ⟨_,_,h⟩ := except_bind_ok h
    obtain ⟨_,_,h⟩ := except_bind_ok h
    obtain ⟨_,_,h⟩ := except_bind_ok h
    obtain ⟨_,_,h⟩ := except_bind_ok h
    obtain ⟨_,_,h⟩ := except_bind_ok h
    obtain ⟨addresses,haddresses,h⟩ := except_bind_ok h
    obtain rfl := Except.ok.inj h
    exact length_collected haddresses

end ProbeInitializer

namespace System

variable {d : Node} {s u : System}

def spread (d : Node) (s : System) : Nat := (population d.codec s.db ∪ s.sched.roll).card

def debts (s : System) : Nat :=
  s.sched.owes + (s.pool.workers.map Worker.owes).sum + (s.posts.map Post.owes).sum

theorem spread_transact (hx : Exact d.codec s.db) (hk : Keyed d.codec s.db) {op : Option StoreOp}
    (hroll : u.sched.roll ⊆ population d.codec s.db ∪ s.sched.roll) :
    spread d { u with db := transact d.codec s.db op } ≤
      spread d s + ((written op).toFinset \ s.sched.roll).card := by
  have hpop : population d.codec (transact d.codec s.db op) ⊆
      population d.codec s.db ∪ (written op).toFinset := by
    cases op with
    | none => exact Finset.subset_union_left
    | some op => exact population_exec hx hk op
  refine (Finset.card_le_card (t := (population d.codec s.db ∪ s.sched.roll) ∪
    ((written op).toFinset \ s.sched.roll)) ?_).trans (Finset.card_union_le _ _)
  intro addr h
  have hroll' := @hroll addr
  have hpop' := @hpop addr
  simp only [Finset.mem_union,Finset.mem_sdiff] at h hroll' hpop' ⊢
  tauto

theorem owes_idle (addr : SocketAddr) (phase : WorkerPhase Runner) (h : ∀ r, phase ≠ .running r) :
    Worker.owes ⟨addr,phase⟩ = 0 := by
  cases phase with
  | running r => exact absurd rfl (h r)
  | _ => rfl

theorem card_unpaid (op : Option StoreOp) (roll : Finset NetAddress) :
    ((written op).toFinset \ roll).card ≤ (written op).length :=
  (Finset.card_le_card Finset.sdiff_subset).trans (List.toFinset_card_le _)

structure Charged (d : Node) (s u : System) (op : Option StoreOp) (charge : Nat) : Prop where
  roll : u.sched.roll ⊆ population d.codec s.db ∪ s.sched.roll
  debts : debts u + ((written op).toFinset \ s.sched.roll).card ≤ debts s + charge

theorem charged_unwritten {op : Option StoreOp} {charge : Nat} (hop : written op = [])
    (hroll : u.sched.roll ⊆ population d.codec s.db ∪ s.sched.roll) (hdebts : u.debts ≤ s.debts + charge) :
    Charged d s u op charge := by
  refine ⟨hroll,?_⟩
  rw [hop,List.toFinset_nil,Finset.empty_sdiff,Finset.card_empty]
  exact hdebts

theorem charged_sched {p : WorkerPool Runner} {sched : Sched} {op : Option StoreOp}
    (hroll : sched.roll ⊆ population d.codec s.db ∪ s.sched.roll)
    (hpool : (p.workers.map Worker.owes).sum ≤ (s.pool.workers.map Worker.owes).sum)
    (howes : sched.owes + ((written op).toFinset \ s.sched.roll).card ≤ s.sched.owes) :
    Charged d s { s with pool := p, sched := sched } op 0 := by
  refine ⟨hroll,?_⟩
  simp only [debts]
  omega

theorem owes_pool {e : PoolEvent Runner} {p : WorkerPool Runner} (hp : s.pool.step e = some p)
    (hquiet : ∀ i r, e = .start i r ∨ e = .work i r → r = .probing) :
    (p.workers.map Worker.owes).sum ≤ (s.pool.workers.map Worker.owes).sum := by
  refine WorkerPool.sum_workers_step owes_idle (fun i r her addr => ?_) hp
  rw [hquiet i r her]
  rfl

theorem charged_idle {p : WorkerPool Runner} {sched : Sched} (howes : sched.owes = 0)
    (hpool : (p.workers.map Worker.owes).sum ≤ (s.pool.workers.map Worker.owes).sum)
    (hroll : sched.roll ⊆ population d.codec s.db ∪ s.sched.roll) :
    Charged d s { s with pool := p, sched := sched } none 0 := by
  refine charged_unwritten rfl hroll ?_
  simp only [debts,howes]
  omega

theorem roll_query {now : Int64} {candidates : List PeerRecord} {q : DueQuery} {max : Nat}
    (hk : Keyed d.codec s.db) (hdue : dueForProbe d.codec q max s.db = some candidates) :
    (Sched.scanning now candidates).roll ⊆ population d.codec s.db := by
  intro addr h
  obtain ⟨rec,hrec,rfl⟩ := Sched.mem_roll_scanning.mp h
  obtain ⟨⟨key,hrow⟩,_⟩ := due_of_dueForProbe hdue rec hrec
  rw [mem_population hk]
  exact ⟨rec,by rw [view,← hk key rec hrow,hrow]⟩

theorem charged_schedMoves {op : Option StoreOp} (hk : Keyed d.codec s.db) (hm : SchedMoves d s u op) :
    Charged d s u op 0 := by
  have hsame := Nat.le_refl (s.pool.workers.map Worker.owes).sum
  cases hm with
  | @seed accepted now hs =>
    refine charged_sched (Finset.empty_subset _) hsame ?_
    rw [hs]
    exact (Nat.zero_add _).le.trans (card_unpaid (some (.insertOrRefreshSeenBatch accepted now)) _)
  | @prune cutoff hs =>
    refine charged_sched (Finset.empty_subset _) hsame ?_
    rw [hs]
    exact (Nat.zero_add _).le.trans (card_unpaid (some (.pruneDead cutoff)) _)
  | query hs hdue => exact charged_idle rfl hsame ((roll_query hk hdue).trans Finset.subset_union_left)
  | panic => exact charged_idle rfl hsame (Finset.empty_subset _)
  | finish hs => exact charged_idle rfl hsame (Finset.empty_subset _)
  | skip hs =>
    refine charged_idle rfl hsame (fun addr h => Finset.mem_union_right _ ?_)
    rw [hs]
    exact Sched.mem_roll_scanning.mpr ((Sched.mem_roll_scanning.mp h).imp (fun _ hrec => hrec.imp_left
      (List.mem_cons_of_mem _)))
  | insert hs hp he =>
    refine charged_idle rfl (owes_pool hp (by simp)) (fun addr h => Finset.mem_union_right _ ?_)
    rw [WorkerPool.inserted_eq hp he] at h
    rw [hs]
    rcases Sched.mem_roll_offering.mp h with rfl | ⟨rec,hrec,rfl⟩
    · exact Sched.mem_roll_scanning.mpr ⟨_,List.mem_cons_self,rfl⟩
    · exact Sched.mem_roll_scanning.mpr ⟨rec,List.mem_cons_of_mem _ hrec,rfl⟩
  | duplicate hs hp =>
    refine charged_idle rfl (owes_pool hp (by simp)) (fun addr h => Finset.mem_union_right _ ?_)
    rw [hs]
    exact Sched.mem_roll_scanning.mpr ((Sched.mem_roll_scanning.mp h).imp (fun _ hrec => hrec.imp_left
      (List.mem_cons_of_mem _)))
  | accept hs he hp =>
    refine charged_idle rfl (owes_pool hp (by simp)) (fun addr h => Finset.mem_union_right _ ?_)
    rw [hs]
    exact Sched.mem_roll_offering.mpr (Sched.mem_roll_recording.mp h)
  | reject hs he hp _ =>
    refine charged_idle (by rw [hs]; rfl) (owes_pool hp (by simp)) Finset.subset_union_right
  | rollback hp => exact charged_idle rfl (owes_pool hp (by simp)) (Finset.empty_subset _)
  | @record now net rest hs =>
    have hrest : (Sched.scanning now rest).roll ⊆ s.sched.roll := by
      intro addr h
      rw [hs]
      exact Sched.mem_roll_recording.mpr (Or.inr (Sched.mem_roll_scanning.mp h))
    have hnet : (written (some (.recordAttempt net now))).toFinset ⊆ s.sched.roll := by
      intro addr h
      rw [hs]
      exact Sched.mem_roll_recording.mpr (Or.inl (List.mem_singleton.mp (List.mem_toFinset.mp h)))
    refine charged_sched (hrest.trans Finset.subset_union_right) hsame ?_
    rw [Finset.sdiff_eq_empty_iff_subset.mpr hnet]
    exact Nat.zero_le _

theorem charged_work {i : Nat} {e : RunnerEvent} {addr : SocketAddr} {r r' : Runner} {p : WorkerPool Runner}
    {op : Option StoreOp} (hi : s.pool.workers[i]? = some ⟨addr,.running r⟩)
    (hr : r.step d .worker addr s.db s.clock e = some (r',op)) (hp : s.pool.step (.work i r') = some p) :
    Charged d s { s with pool := p } op (Runner.charge .worker e) := by
  refine ⟨Finset.subset_union_right,?_⟩
  have howes := Runner.owes_step hr
  have hpaid := card_unpaid op s.sched.roll
  simp only [WorkerPool.step,hi,WorkerPool.setPhase,Option.some.injEq] at hp
  obtain rfl := hp
  have hsum := sum_set Worker.owes hi ⟨addr,.running r'⟩
  simp only [Worker.owes] at hsum
  simp only [debts]
  omega

theorem charged_post {j : Nat} {e : RunnerEvent} {post : Post} {r : Runner} {op : Option StoreOp}
    (hj : s.posts[j]? = some post)
    (hr : post.runner.step d .submission post.addr s.db s.clock e = some (r,op)) :
    Charged d s { s with posts := s.posts.set j ⟨post.addr,r⟩ } op (Runner.charge .submission e) := by
  refine ⟨Finset.subset_union_right,?_⟩
  have howes := Runner.owes_step hr
  have hpaid := card_unpaid op s.sched.roll
  have hsum := sum_set Post.owes hj ⟨post.addr,r⟩
  simp only [Post.owes] at hsum
  simp only [debts]
  omega

theorem charged_moves {e : Event} {op : Option StoreOp} (hk : Keyed d.codec s.db) (hm : Moves d s e u op) :
    Charged d s u op e.charge := by
  have hsame := Nat.le_refl (s.pool.workers.map Worker.owes).sum
  cases hm with
  | sched h => exact charged_schedMoves hk h
  | work hi hr hp => exact charged_work hi hr hp
  | post hj hr => exact charged_post hj hr
  | advance _ => exact charged_unwritten rfl Finset.subset_union_right (Nat.le_refl _)
  | delete addr => exact charged_unwritten rfl Finset.subset_union_right (Nat.le_refl _)
  | prune hs => exact charged_idle rfl hsame (Finset.empty_subset _)
  | tick hs => exact charged_idle rfl hsame (Finset.empty_subset _)
  | @seed addrs hs =>
    refine charged_unwritten rfl (Finset.empty_subset _) ?_
    have hlen : (d.acceptBootstrap addrs).length ≤ addrs.length := List.length_filterMap_le _ _
    simp only [debts,Sched.owes,Event.charge]
    omega
  | pool he hp =>
    refine charged_unwritten rfl Finset.subset_union_right ?_
    have hsum := owes_pool hp (poolEvent_cases he).2.2
    simp only [debts]
    omega
  | submit h =>
    refine charged_unwritten rfl Finset.subset_union_right ?_
    simp only [debts,List.map_append,List.sum_append,List.map_singleton,List.sum_singleton,Post.owes,
      Runner.owes]
    omega
  | @disconnect j =>
    refine charged_unwritten rfl Finset.subset_union_right ?_
    have hsum : ((s.posts.eraseIdx j).map Post.owes).sum ≤ (s.posts.map Post.owes).sum :=
      ((List.eraseIdx_sublist s.posts j).map Post.owes).sum_le_sum (fun _ _ => Nat.zero_le _)
    simp only [debts]
    omega

structure Tended (d : Node) (s : System) : Prop where
  exact : Exact d.codec s.db
  keyed : Keyed d.codec s.db

theorem stake_step {t : System} {e : Event} (h : Tended d s) (hs : step d s e = some t) :
    Tended d t ∧ spread d t + debts t ≤ spread d s + debts s + e.charge := by
  obtain ⟨⟨u,op⟩,hm,rfl⟩ := Option.map_eq_some_iff.mp hs
  have hcharged := charged_moves h.keyed (moves_of_move hm)
  have hspread : spread d { u with db := transact d.codec s.db op } ≤ _ :=
    spread_transact h.exact h.keyed hcharged.roll
  have hdebts : debts { u with db := transact d.codec s.db op } = debts u := rfl
  obtain ⟨hexact,hkeyed⟩ := kept_transact h.exact h.keyed op
  refine ⟨⟨hexact,hkeyed⟩,?_⟩
  have hpaid := hcharged.debts
  dsimp only at hspread hdebts ⊢
  omega

theorem stake_start {db : Db} (u : Int64) (hk : Keyed d.codec db) :
    Tended d (start d (openStore d.codec (.compatible db)) u) ∧
    spread d (start d (openStore d.codec (.compatible db)) u) +
      debts (start d (openStore d.codec (.compatible db)) u) = (records d.codec db).length := by
  have hopen := keyed_open hk
  have hpop : population d.codec (openStore d.codec (.compatible db)) = population d.codec db := by
    ext addr
    rw [mem_population hopen,mem_population hk,view_open]
  refine ⟨⟨exact_open _,hopen⟩,?_⟩
  have hspread : spread d (start d (openStore d.codec (.compatible db)) u) = (records d.codec db).length := by
    rw [← card_population hk,← hpop]
    exact congrArg Finset.card (Finset.union_empty (population d.codec _))
  have hdebts : debts (start d (openStore d.codec (.compatible db)) u) = 0 := rfl
  omega

theorem charge_le {e : Event} (h : ∀ i result, e = .work i (.probed (some result)) →
    result.addresses.length ≤ maxAddressesReceive) :
    e.charge ≤ (1 + maxAddressesReceive) * e.answered.toNat + e.submitted.toNat + e.bootstrapped := by
  cases e with
  | seed addrs => exact (Nat.zero_add _).ge
  | work i e =>
    cases e with
    | proceed => exact Nat.zero_le _
    | probed result =>
      cases result with
      | none => exact Nat.zero_le _
      | some result => exact Nat.add_le_add_left (h i result rfl) 1
  | post j e =>
    cases e with
    | proceed => exact Nat.zero_le _
    | probed result => cases result <;> exact Nat.le_refl 1
  | _ => exact Nat.zero_le _

theorem sum_charge_le {es : List Event} (h : ∀ i result, .work i (.probed (some result)) ∈ es →
    result.addresses.length ≤ maxAddressesReceive) :
    (es.map Event.charge).sum ≤ (1 + maxAddressesReceive) * es.countP Event.answered +
      es.countP Event.submitted + (es.map Event.bootstrapped).sum := by
  induction es with
  | nil => exact Nat.zero_le _
  | cons e es ih =>
    have hhead := charge_le (fun i result he => h i result (he ▸ List.mem_cons_self))
    have htail := ih (fun i result hmem => h i result (List.mem_cons_of_mem e hmem))
    have hcount : ∀ p : Event → Bool, (e :: es).countP p = es.countP p + (p e).toNat := by
      intro p
      rw [List.countP_cons]
      cases p e <;> rfl
    rw [List.map_cons,List.sum_cons,List.map_cons,List.sum_cons,hcount,hcount,Nat.mul_add]
    omega

theorem store_growth_bounded (d : Node) (db : Db) (hk : Keyed d.codec db) (u : Int64) (es : List Event)
    (t : System) (hrun : run (step d) (start d (openStore d.codec (.compatible db)) u) es = some t)
    (hprobed : ∀ i result, Event.work i (.probed (some result)) ∈ es →
      ∃ order config transcript, ProbeInitializer.doProbe order config transcript = .ok result) :
    (records d.codec t.db).length ≤ (records d.codec db).length +
      (1 + maxAddressesReceive) * es.countP Event.answered + es.countP Event.submitted +
      (es.map Event.bootstrapped).sum := by
  obtain ⟨htended,hstart⟩ := stake_start u hk
  have hstep : ∀ s e v, Tended d s → step d s e = some v →
      Tended d v ∧ spread d v + debts v ≤ spread d s + debts s + e.charge := fun _ _ _ h => stake_step h
  obtain ⟨hend,hstake⟩ := run_charges hstep htended hrun
  have hcharge := sum_charge_le (fun i result hmem =>
    (hprobed i result hmem).elim fun _ ⟨_,_,h⟩ => ProbeInitializer.length_probed h)
  have hrecords : (records d.codec t.db).length ≤ spread d t :=
    (card_population hend.keyed).ge.trans (Finset.card_le_card Finset.subset_union_left)
  omega

section Witness

open ProbeInitializer KaspadProbe

def talkative : ProbeResult := ⟨(answer 7).version,[gossip 1]⟩

theorem talkative_probed : doProbe sortedOrder mainnet healthy = .ok talkative := by
  have hsort : sortedOrder.toVec {gossip 1} = [gossip 1] := Finset.sort_singleton _ _
  rw [talkative,← hsort]
  rfl

def talked : List Event :=
  [.seed [samplePeer],.sched,.tick,.sched,.sched,.sched,.pool .receive,.pool .spawn,.pool (.start 0),
    .work 0 (.probed (some talkative)),.work 0 .proceed,.work 0 .proceed,.work 0 .proceed,.work 0 .proceed,
    .work 0 .proceed]

theorem store_growth_bounded_gossip : ∃ t,
    run (step sampleNode) (start sampleNode (openStore Bincode.standard (.compatible .empty)) 8000000) talked =
      some t ∧ (records Bincode.standard t.db).length = 2 ∧
    (records Bincode.standard t.db).length ≤ 0 + (1 + maxAddressesReceive) * 1 + 0 + 1 := by
  obtain ⟨t,ht,htwo⟩ : ∃ t, run (step sampleNode)
      (start sampleNode (openStore Bincode.standard (.compatible .empty)) 8000000) talked = some t ∧
      (records Bincode.standard t.db).length = 2 := ⟨_,rfl,by decide⟩
  refine ⟨t,ht,htwo,store_growth_bounded sampleNode .empty keyed_empty 8000000 talked t ht ?_⟩
  intro i result hmem
  obtain ⟨_,rfl⟩ : i = 0 ∧ result = talkative := by simpa [talked] using hmem
  exact ⟨sortedOrder,mainnet,healthy,talkative_probed⟩

end Witness

end System

end DnsSeeder
