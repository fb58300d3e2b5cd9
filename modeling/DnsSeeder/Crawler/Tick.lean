import DnsSeeder.Crawler.Probe
import DnsSeeder.Crawler.System
import DnsSeeder.Store.FullScan

namespace DnsSeeder

open Lib PeerStore

structure Tick where
  pool : WorkerPool Runner
  db : Db
  metrics : CrawlerMetrics
  dispatched : Nat

namespace Tick

def offer (d : Node) (now : Int64) : List PeerRecord → Tick → Tick
  | [],t => t
  | rec :: rest,t =>
      if d.acceptable rec.address = false then offer d now rest t
      else
        match t.pool.tryEnqueue rec.address with
        | (.accepted,pool) => offer d now rest { t with
            pool := pool
            db := exec d.codec t.db (.recordAttempt rec.address now)
            dispatched := t.dispatched + 1 }
        | (.duplicate,pool) => offer d now rest { t with pool := pool }
        | (.full,pool) => { t with
            pool := pool
            metrics := t.metrics.recordSkippedBackpressure (1 + UInt64.ofNat rest.length) }
        | (.closed,pool) => { t with pool := pool }

def enqueueProbes (d : Node) (now : Int64) (pool : WorkerPool Runner) (metrics : CrawlerMetrics) (db : Db) :
    Option Tick :=
  (dueForProbe d.codec (System.dueQuery d now) (System.fetchTarget d) db).map (fun candidates =>
    offer d now candidates ⟨pool,db,metrics,0⟩)

variable {d : Node} {now : Int64} {recs : List PeerRecord} {t : Tick}

theorem offer_unacceptable {rec : PeerRecord} (h : d.acceptable rec.address = false) :
    offer d now (rec :: recs) t = offer d now recs t := by
  rw [offer,if_pos h]

theorem le_dispatched_offer {n : Nat} (h : n ≤ t.dispatched) : n ≤ (offer d now recs t).dispatched := by
  induction recs generalizing t with
  | nil => exact h
  | cons rec recs ih =>
    rw [offer]
    split
    · exact ih h
    · split
      · exact ih (h.trans (Nat.le_succ _))
      · exact ih h
      · exact h
      · exact h

theorem offer_none_acceptable (h : ∀ rec ∈ recs, d.acceptable rec.address = false) :
    offer d now recs t = t := by
  induction recs with
  | nil => rfl
  | cons rec recs ih =>
    rw [offer_unacceptable (h rec List.mem_cons_self)]
    exact ih (fun r hr => h r (List.mem_cons_of_mem _ hr))

structure Vacant (pool : WorkerPool Runner) : Prop where
  isOpen : pool.rxDropped = false
  inFlight : pool.inFlight = ∅
  channel : pool.channel = []
  threads : 1 ≤ pool.threads

theorem Vacant.accepts {pool : WorkerPool Runner} (h : Vacant pool) (net : NetAddress) :
    ∃ pool', pool.tryEnqueue net = (.accepted,pool') := by
  have hcap : pool.channel.length < pool.capacity := by
    have := h.threads
    rw [h.channel,List.length_nil,WorkerPool.capacity,WorkerPool.channelPerThread]
    omega
  have hfree : net.socketAddr ∉ pool.inFlight := by
    rw [h.inFlight]
    exact Finset.notMem_empty _
  rcases WorkerPool.tryEnqueue_cases net pool with ⟨hin,_⟩ | ⟨_,hclosed,_⟩ | ⟨_,_,_,haccept⟩ | ⟨_,_,hfull,_⟩
  · exact absurd hin hfree
  · cases h.isOpen.symm.trans hclosed
  · exact ⟨_,haccept⟩
  · exact absurd hcap hfull

theorem dispatched_pos_iff (hpool : Vacant t.pool) (hzero : t.dispatched = 0) :
    0 < (offer d now recs t).dispatched ↔ ∃ rec ∈ recs, d.acceptable rec.address = true := by
  induction recs with
  | nil => simp [offer,hzero]
  | cons rec recs ih =>
    cases hacc : d.acceptable rec.address with
    | false => simp [offer_unacceptable hacc,ih,hacc]
    | true =>
      obtain ⟨pool',haccept⟩ := hpool.accepts rec.address
      have hpos : 0 < (offer d now (rec :: recs) t).dispatched := by
        rw [offer,if_neg (by simp [hacc]),haccept]
        exact le_dispatched_offer (Nat.succ_pos _)
      exact ⟨fun _ => ⟨rec,List.mem_cons_self,hacc⟩,fun _ => hpos⟩

theorem fetchTarget_pos (d : Node) : 0 < System.fetchTarget d := by
  rw [System.fetchTarget]
  omega

theorem dueQuery_nonneg (d : Node) (now : Int64) :
    0 ≤ (System.dueQuery d now).staleGoodMs.toInt ∧ 0 ≤ (System.dueQuery d now).staleBadMs.toInt :=
  ⟨durationToMs_nonneg _,durationToMs_nonneg _⟩

theorem fetch_fits {db : Db} (hx : Indexed d.codec db)
    (hfit : 4 * (durationToMs d.config.staleGood).toInt < 2^63) :
    dueForProbe d.codec (System.dueQuery d now) (System.fetchTarget d) db =
      some (((fullScan d.codec db (System.dueQuery d now)).take (System.fetchTarget d)).map Prod.snd) := by
  have hfit' : 4 * (System.dueQuery d now).staleGoodMs.toInt < 2^63 := by
    rw [System.dueQuery]
    exact hfit
  exact dueForProbe_take hx (dueQuery_nonneg d now).1 hfit' (dueQuery_nonneg d now).2

theorem fetch_overflows (db : Db) (hover : ¬ 4 * (durationToMs d.config.staleGood).toInt < 2^63) :
    dueForProbe d.codec (System.dueQuery d now) (System.fetchTarget d) db = none := by
  have hover' : ¬ 4 * (System.dueQuery d now).staleGoodMs.toInt < 2^63 := by
    rw [System.dueQuery]
    exact hover
  exact dueForProbe_overflows (fetchTarget_pos d).ne' hover'

theorem enqueueProbes_fits {pool : WorkerPool Runner} {metrics : CrawlerMetrics} {db : Db}
    (hx : Indexed d.codec db) (hfit : 4 * (durationToMs d.config.staleGood).toInt < 2^63) :
    enqueueProbes d now pool metrics db = some (offer d now
      (((fullScan d.codec db (System.dueQuery d now)).take (System.fetchTarget d)).map Prod.snd)
      ⟨pool,db,metrics,0⟩) := by
  rw [enqueueProbes,fetch_fits hx hfit,Option.map_some]

theorem enqueueProbes_overflows {pool : WorkerPool Runner} {metrics : CrawlerMetrics} {db : Db}
    (hover : ¬ 4 * (durationToMs d.config.staleGood).toInt < 2^63) :
    enqueueProbes d now pool metrics db = none := by
  rw [enqueueProbes,fetch_overflows db hover,Option.map_none]

theorem tick_dispatches_iff {pool : WorkerPool Runner} {db : Db} (hx : Indexed d.codec db)
    (hpool : Vacant pool) (hdue : ∃ key rec, row d.codec db key = some rec ∧
      (System.dueQuery d now).eligible rec = some true ∧ d.acceptable rec.address = true)
    (metrics : CrawlerMetrics) :
    (∃ t, enqueueProbes d now pool metrics db = some t ∧ 0 < t.dispatched) ↔
      4 * (durationToMs d.config.staleGood).toInt < 2^63 ∧
      ((fullScan d.codec db (System.dueQuery d now)).takeWhile
        (fun entry => !d.acceptable entry.2.address)).length < System.fetchTarget d := by
  by_cases hfit : 4 * (durationToMs d.config.staleGood).toInt < 2^63
  · rw [enqueueProbes_fits hx hfit]
    simp only [Option.some.injEq,exists_eq_left',hfit,true_and]
    rw [dispatched_pos_iff hpool rfl]
    simp only [List.mem_map,exists_exists_and_eq_and]
    rw [exists_mem_take_iff,and_iff_right]
    obtain ⟨key,rec,hrow,helig,hacc⟩ := hdue
    exact ⟨(key,rec),mem_fullScan.mpr ⟨hrow,helig⟩,hacc⟩
  · refine ⟨?_,fun h => absurd h.1 hfit⟩
    rintro ⟨t,ht,_⟩
    cases (enqueueProbes_overflows hfit).symm.trans ht

def settled (s : System) (t : Tick) : System := { s with sched := .idle, pool := t.pool, db := t.db }

theorem run_sched_succ {s u v : System} {k : Nat} (hs : System.step d s .sched = some u)
    (hrun : run (System.step d) u (List.replicate k .sched) = some v) :
    run (System.step d) s (List.replicate (k+1) .sched) = some v := by
  rw [List.replicate_succ,run_cons,hs]
  exact hrun

section enqueue
variable {s : System} {net : NetAddress} {rest : List PeerRecord}

def claimed (p : WorkerPool Runner) (net : NetAddress) (enqueue : Enqueue) : WorkerPool Runner :=
  { p with inFlight := insert net.socketAddr p.inFlight, enqueue := enqueue }

def offering (s : System) (now : Int64) (net : NetAddress) (rest : List PeerRecord) (enqueue : Enqueue) :
    System :=
  { s with pool := claimed s.pool net enqueue, sched := .offering now net rest }

def queued (p : WorkerPool Runner) (net : NetAddress) : WorkerPool Runner :=
  { p with inFlight := insert net.socketAddr p.inFlight, channel := p.channel ++ [net] }

def recorded (d : Node) (s : System) (now : Int64) (net : NetAddress) (rest : List PeerRecord) : System :=
  { s with
    pool := queued s.pool net, db := exec d.codec s.db (.recordAttempt net now), sched := .scanning now rest }

theorem step_duplicate {rec : PeerRecord} (hsched : s.sched = .scanning now (rec :: rest))
    (hidle : s.pool.enqueue = .idle) (hacc : d.acceptable rec.address = true)
    (hin : rec.address.socketAddr ∈ s.pool.inFlight) :
    System.step d s .sched = some { s with sched := .scanning now rest } := by
  simp only [System.step,System.move,System.schedMove,hsched,hacc,if_true,WorkerPool.step,hidle,if_pos hin,
    Option.map_some]
  rfl

theorem step_claim {rec : PeerRecord} (hsched : s.sched = .scanning now (rec :: rest))
    (hidle : s.pool.enqueue = .idle) (hacc : d.acceptable rec.address = true)
    (hfree : rec.address.socketAddr ∉ s.pool.inFlight) :
    System.step d s .sched = some (offering s now rec.address rest (.inserted rec.address)) := by
  simp only [System.step,System.move,System.schedMove,hsched,hacc,if_true,WorkerPool.step,hidle,if_neg hfree,
    Option.map_some]
  rfl

theorem send_rejected {p : WorkerPool Runner} (net : NetAddress)
    (hreject : p.rxDropped = true ∨ ¬ p.channel.length < p.capacity) :
    ∃ outcome, (claimed p net (.inserted net)).step .send = some (claimed p net (.rejected net outcome)) := by
  by_cases hdropped : p.rxDropped = true
  · exact ⟨.closed,if_pos hdropped⟩
  · exact ⟨.full,(if_neg hdropped).trans (if_neg (hreject.resolve_left hdropped))⟩

theorem send_accepted {p : WorkerPool Runner} (hidle : p.enqueue = .idle) (hopen : p.rxDropped = false)
    (hroom : p.channel.length < p.capacity) :
    (claimed p net (.inserted net)).step .send = some (queued p net) := by
  have hopen' : ¬ p.rxDropped = true := by simp [hopen]
  refine ((if_neg hopen').trans (if_pos hroom)).trans ?_
  rw [queued,← hidle]
  rfl

theorem rollback_claimed {p : WorkerPool Runner} {outcome : EnqueueOutcome} (hidle : p.enqueue = .idle)
    (hfree : net.socketAddr ∉ p.inFlight) :
    (claimed p net (.rejected net outcome)).step .rollback = some p := by
  simp only [WorkerPool.step,claimed,Finset.erase_insert hfree,← hidle]

theorem run_reject (hidle : s.pool.enqueue = .idle) (hfree : net.socketAddr ∉ s.pool.inFlight)
    (hreject : s.pool.rxDropped = true ∨ ¬ s.pool.channel.length < s.pool.capacity) :
    run (System.step d) (offering s now net rest (.inserted net)) [.sched,.sched] =
      some { s with sched := .idle } := by
  obtain ⟨outcome,hsend⟩ := send_rejected net hreject
  have hstep : System.step d (offering s now net rest (.inserted net)) .sched =
      some (offering s now net rest (.rejected net outcome)) := by
    change (((claimed s.pool net (.inserted net)).step .send).map _).map _ = _
    rw [hsend]
    rfl
  have hback : System.step d (offering s now net rest (.rejected net outcome)) .sched =
      some { s with sched := .idle } := by
    have hmove : System.schedMove d (offering s now net rest (.rejected net outcome)) =
        ((claimed s.pool net (.rejected net outcome)).step .rollback).map
          (fun p => ({ s with pool := p, sched := .idle },none)) := rfl
    rw [System.step,System.move,hmove,rollback_claimed hidle hfree]
    rfl
  rw [run_cons,hstep,Option.bind_some,run_cons,hback]
  rfl

theorem run_accept (now : Int64) (net : NetAddress) (rest : List PeerRecord)
    (hidle : s.pool.enqueue = .idle) (hopen : s.pool.rxDropped = false)
    (hroom : s.pool.channel.length < s.pool.capacity) :
    run (System.step d) (offering s now net rest (.inserted net)) [.sched,.sched] =
      some (recorded d s now net rest) := by
  have hstep : System.step d (offering s now net rest (.inserted net)) .sched =
      some { s with pool := queued s.pool net, sched := .recording now net rest } := by
    change (((claimed s.pool net (.inserted net)).step .send).map _).map _ = _
    rw [send_accepted hidle hopen hroom]
    simp only [Option.map_some,queued,hidle]
    rfl
  rw [run_cons,hstep]
  rfl

end enqueue

theorem run_offer {s : System} (metrics : CrawlerMetrics) (n : Nat) (hsched : s.sched = .scanning now recs)
    (hidle : s.pool.enqueue = .idle) :
    ∃ k, run (System.step d) s (List.replicate k .sched) =
      some (settled s (offer d now recs ⟨s.pool,s.db,metrics,n⟩)) := by
  induction recs generalizing s n with
  | nil =>
    refine ⟨1,run_sched_succ (u := settled s ⟨s.pool,s.db,metrics,n⟩) ?_ rfl⟩
    simp only [System.step,System.move,System.schedMove,hsched]
    rfl
  | cons rec recs ih =>
    obtain ⟨k,hskip⟩ := ih (s := { s with sched := .scanning now recs }) n rfl hidle
    cases hacc : d.acceptable rec.address with
    | false =>
      refine ⟨k+1,run_sched_succ (u := { s with sched := .scanning now recs }) ?_ ?_⟩
      · simp only [System.step,System.move,System.schedMove,hsched,hacc]
        rfl
      · rw [offer_unacceptable hacc]
        exact hskip
    | true =>
      rw [offer,if_neg (by simp [hacc])]
      rcases WorkerPool.tryEnqueue_cases rec.address s.pool with
        ⟨hin,h⟩ | ⟨hfree,hdropped,h⟩ | ⟨hfree,hopen,hroom,h⟩ | ⟨hfree,hopen,hfull,h⟩
      · refine ⟨k+1,run_sched_succ (step_duplicate hsched hidle hacc hin) ?_⟩
        rw [h]
        exact hskip
      · refine ⟨3,run_sched_succ (step_claim hsched hidle hacc hfree) ?_⟩
        rw [h]
        exact run_reject hidle hfree (Or.inl hdropped)
      · obtain ⟨j,hrest⟩ := ih (s := recorded d s now rec.address recs) (n + 1) rfl hidle
        refine ⟨j+2+1,run_sched_succ (step_claim hsched hidle hacc hfree) ?_⟩
        rw [h,Nat.add_comm,List.replicate_add,run_append]
        exact run_accept (d := d) now rec.address recs hidle hopen hroom ▸ hrest
      · refine ⟨3,run_sched_succ (step_claim hsched hidle hacc hfree) ?_⟩
        rw [h]
        exact run_reject hidle hfree (Or.inr hfull)

theorem run_enqueueProbes {s : System} {metrics : CrawlerMetrics} (hsched : s.sched = .idle)
    (hidle : s.pool.enqueue = .idle) (ht : enqueueProbes d s.clock s.pool metrics s.db = some t) :
    ∃ k, run (System.step d) s (.tick :: List.replicate k .sched) = some (settled s t) := by
  obtain ⟨candidates,hdue,rfl⟩ := Option.map_eq_some_iff.mp ht
  have htick : System.step d s .tick = some { s with sched := .ticking s.clock } := by
    simp only [System.step,System.move,hsched]
    rfl
  have hscan : System.step d { s with sched := .ticking s.clock } .sched =
      some { s with sched := .scanning s.clock candidates } := by
    simp only [System.step,System.move,System.schedMove,hdue]
    rfl
  obtain ⟨k,hk⟩ := run_offer (d := d) (s := { s with sched := .scanning s.clock candidates })
    metrics 0 rfl hidle
  refine ⟨k+1,?_⟩
  rw [run_cons,htick]
  exact run_sched_succ hscan hk

theorem starved_tick_unchanged {pool : WorkerPool Runner} {metrics : CrawlerMetrics} {db : Db}
    (hpool : Vacant pool) (ht : enqueueProbes d now pool metrics db = some t) (hzero : t.dispatched = 0) :
    t = ⟨pool,db,metrics,0⟩ := by
  obtain ⟨candidates,_,rfl⟩ := Option.map_eq_some_iff.mp ht
  refine offer_none_acceptable (fun rec hrec => ?_)
  by_contra hacc
  have hpos : 0 < (offer d now candidates ⟨pool,db,metrics,0⟩).dispatched :=
    (dispatched_pos_iff hpool rfl).mpr ⟨rec,hrec,by simpa using hacc⟩
  omega

theorem vacant_spawn (threads : UInt64) : Vacant (.spawn threads) :=
  ⟨rfl,rfl,rfl,le_max_right _ _⟩

def strictNode : Node where
  codec := Bincode.standard
  routable := fun _ => true
  config := ⟨16111,1,.fromSecs 1800,.fromSecs 7200,.fromSecs 86400,true⟩

theorem tick_dispatches_iff_one_foreign :
    ∃ t, enqueueProbes strictNode 10000000 (.spawn 1) .new
      (filled Bincode.standard [triedAt 1 16112 0,triedAt 2 16111 1000]) = some t ∧ 0 < t.dispatched := by
  refine (tick_dispatches_iff (exact_filled _ _).index (vacant_spawn 1) ?_ .new).mpr ?_
  · exact ⟨Bincode.standard.encodeKey (triedAt 2 16111 1000).address,triedAt 2 16111 1000,
      by decide,by decide,by decide⟩
  · decide

def foreignPorts : List PeerRecord :=
  (List.range 8).map (fun n => triedAt n 16112 0)

theorem foreign_ports_starve_tick :
    ∃ t, enqueueProbes strictNode 10000000 (.spawn 1) .new
        (filled Bincode.standard (triedAt 9 16111 1000 :: foreignPorts)) = some t ∧ t.dispatched = 0 ∧
      row Bincode.standard (filled Bincode.standard (triedAt 9 16111 1000 :: foreignPorts))
        (Bincode.standard.encodeKey (triedAt 9 16111 1000).address) = some (triedAt 9 16111 1000) ∧
      (System.dueQuery strictNode 10000000).eligible (triedAt 9 16111 1000) = some true ∧
      strictNode.acceptable (triedAt 9 16111 1000).address = true := by
  have hcount : (enqueueProbes strictNode 10000000 (.spawn 1) .new
      (filled Bincode.standard (triedAt 9 16111 1000 :: foreignPorts))).map Tick.dispatched = some 0 := by
    decide
  obtain ⟨t,ht,hzero⟩ := Option.map_eq_some_iff.mp hcount
  exact ⟨t,ht,hzero,by decide,by decide,by decide⟩

end Tick

end DnsSeeder
