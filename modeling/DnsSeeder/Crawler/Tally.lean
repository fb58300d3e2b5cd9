import Mathlib.Data.UInt
import DnsSeeder.Crawler.Custody
import DnsSeeder.Crawler.Held
import DnsSeeder.Crawler.Probe

namespace DnsSeeder

open Lib PeerStore

namespace CrawlerMetrics

def failures (m : CrawlerMetrics) : UInt64 :=
  m.failedConnect + m.failedHandshake + m.failedAddresses + m.failedTimeout + m.failedTooManyAddresses

theorem failures_recordFailedKind (m : CrawlerMetrics) (err : ProbeError) :
    (m.recordFailedKind err).failures = m.failures + 1 := by
  cases err <;>
    simp only [recordFailedKind,failures] <;> ac_rfl

theorem ended_recordFailedKind (m : CrawlerMetrics) (err : ProbeError) :
    (m.recordFailedKind err).ok = m.ok ∧ (m.recordFailedKind err).failed = m.failed := by
  cases err <;> exact ⟨rfl,rfl⟩

end CrawlerMetrics

def Worker.unprobed : Worker Runner → Nat
  | ⟨_,.spawned⟩ => 1
  | ⟨_,.running .probing⟩ => 1
  | _ => 0

namespace WorkerPool

def outstanding (p : WorkerPool Runner) : Nat :=
  p.channel.length + p.received.toList.length + (p.workers.map Worker.unprobed).sum

variable {p q : WorkerPool Runner}

theorem insert_frame {net : NetAddress} (h : p.step (.insert net) = some q) :
    q.outstanding = p.outstanding ∧ q.workers = p.workers := by
  simp only [step] at h
  repeat' split at h
  all_goals first
    | (obtain rfl := Option.some.inj h; exact ⟨rfl,rfl⟩)
    | cases h

theorem rollback_frame (h : p.step .rollback = some q) :
    q.outstanding = p.outstanding ∧ q.workers = p.workers := by
  simp only [step] at h
  split at h
  · obtain rfl := Option.some.inj h
    exact ⟨rfl,rfl⟩
  · cases h

theorem send_frame (h : p.step .send = some q) :
    q.outstanding = p.outstanding + (match q.enqueue with | .idle => 1 | _ => 0) ∧ q.workers = p.workers := by
  simp only [step] at h
  split at h
  · split at h
    · obtain rfl := Option.some.inj h
      exact ⟨rfl,rfl⟩
    · split at h
      · obtain rfl := Option.some.inj h
        refine ⟨?_,rfl⟩
        simp only [outstanding,List.length_append,List.length_singleton]
        omega
      · obtain rfl := Option.some.inj h
        exact ⟨rfl,rfl⟩
  · cases h

theorem outstanding_set {i : Nat} {addr : SocketAddr} {phase phase' : WorkerPhase Runner}
    (hi : p.workers[i]? = some ⟨addr,phase⟩) :
    (p.setPhase i addr phase').outstanding + Worker.unprobed ⟨addr,phase⟩ =
      p.outstanding + Worker.unprobed ⟨addr,phase'⟩ := by
  have hsum := sum_set Worker.unprobed hi ⟨addr,phase'⟩
  simp only [outstanding,setPhase]
  omega

end WorkerPool

def RunnerEvent.outcomes : RunnerEvent → Nat
  | .probed _ => 1
  | .proceed => 0

def Event.outcomes : Event → Nat
  | .work _ e => e.outcomes
  | _ => 0

theorem unprobed_step {d : Node} {addr : SocketAddr} {db : Db} {u : Int64} {r r' : Runner} {e : RunnerEvent}
    {op : Option StoreOp} (h : r.step d .worker addr db u e = some (r',op)) :
    Worker.unprobed ⟨addr,.running r⟩ = e.outcomes ∧ Worker.unprobed ⟨addr,.running r'⟩ = 0 := by
  unfold Runner.step at h
  split at h
  all_goals first
    | (obtain ⟨rfl,rfl⟩ := Prod.mk.inj (Option.some.inj h); exact ⟨rfl,rfl⟩)
    | (split at h <;> obtain ⟨rfl,rfl⟩ := Prod.mk.inj (Option.some.inj h) <;> exact ⟨rfl,rfl⟩)
    | cases h

namespace System

variable {d : Node} {s u : System}

inductive PoolMoves (p : WorkerPool Runner) : PoolMove → WorkerPool Runner → Prop
  | receive {net : NetAddress} {rest : List NetAddress} (hreceived : p.received = none)
      (hchannel : p.channel = net :: rest) :
      PoolMoves p .receive { p with channel := rest, received := some net }
  | spawn {net : NetAddress} (hreceived : p.received = some net) : PoolMoves p .spawn
      { p with received := none, workers := p.workers ++ [⟨net.socketAddr,.spawned⟩] }
  | start {i : Nat} {addr : SocketAddr} (hi : p.workers[i]? = some ⟨addr,.spawned⟩) : PoolMoves p (.start i)
      { p.setPhase i addr (.running .probing) with gauge := p.gauge + 1 }
  | finish {i : Nat} {addr : SocketAddr} (hi : p.workers[i]? = some ⟨addr,.running .done⟩) :
      PoolMoves p (.finish i) { p.setPhase i addr .releasing with gauge := p.gauge - 1 }
  | panic {i : Nat} {addr : SocketAddr} {r : Runner} (hi : p.workers[i]? = some ⟨addr,.running r⟩) :
      PoolMoves p (.panic i) { p.setPhase i addr .releasing with gauge := p.gauge - 1 }
  | release {i : Nat} {addr : SocketAddr} (hi : p.workers[i]? = some ⟨addr,.releasing⟩) :
      PoolMoves p (.release i) { p.setPhase i addr .finished with inFlight := p.inFlight.erase addr }
  | join {i : Nat} {addr : SocketAddr} (hi : p.workers[i]? = some ⟨addr,.finished⟩) :
      PoolMoves p (.join i) { p with workers := p.workers.eraseIdx i }

theorem poolMoves_of_step {p q : WorkerPool Runner} {m : PoolMove} {e : PoolEvent Runner}
    (he : poolEvent p m = some e) (h : p.step e = some q) : PoolMoves p m q := by
  cases m with
  | receive =>
    obtain rfl := Option.some.inj he
    simp only [WorkerPool.step] at h
    split at h
    · next hreceived hchannel =>
      split at h
      · exact Option.some.inj h ▸ .receive hreceived hchannel
      · cases h
    · cases h
  | spawn =>
    obtain rfl := Option.some.inj he
    simp only [WorkerPool.step] at h
    split at h
    · next hreceived => exact Option.some.inj h ▸ .spawn hreceived
    · cases h
  | start i =>
    obtain rfl := Option.some.inj he
    simp only [WorkerPool.step] at h
    split at h
    · next hi => exact Option.some.inj h ▸ .start hi
    · cases h
  | finish i =>
    simp only [poolEvent] at he
    split at he
    · next hi =>
      obtain rfl := Option.some.inj he
      simp only [WorkerPool.step,hi] at h
      exact Option.some.inj h ▸ .finish hi
    · cases he
  | panic i =>
    obtain rfl := Option.some.inj he
    simp only [WorkerPool.step] at h
    split at h
    · next hi => exact Option.some.inj h ▸ .panic hi
    · cases h
  | release i =>
    obtain rfl := Option.some.inj he
    simp only [WorkerPool.step] at h
    split at h
    · next hi => exact Option.some.inj h ▸ .release hi
    · cases h
  | join i =>
    obtain rfl := Option.some.inj he
    simp only [WorkerPool.step] at h
    split at h
    · next hi => exact Option.some.inj h ▸ .join hi
    · cases h

theorem outstanding_pool {p q : WorkerPool Runner} {m : PoolMove} (hm : ∀ i, m ≠ .panic i)
    (h : PoolMoves p m q) : q.outstanding = p.outstanding := by
  cases h with
  | receive hreceived hchannel =>
    simp only [WorkerPool.outstanding,hreceived,hchannel,List.length_cons,Option.toList,List.length_nil]
  | spawn hreceived =>
    simp only [WorkerPool.outstanding,hreceived,List.map_append,List.sum_append,Option.toList]
    simp only [Worker.unprobed,List.map_cons,List.map_nil,List.sum_cons,List.sum_nil,List.length_nil,
      List.length_cons]
    omega
  | start hi => exact Nat.add_right_cancel (WorkerPool.outstanding_set hi)
  | finish hi => exact WorkerPool.outstanding_set hi
  | @panic i _ _ _ => exact absurd rfl (hm i)
  | release hi => exact WorkerPool.outstanding_set hi
  | join hi =>
    exact congrArg (p.channel.length + p.received.toList.length + ·) (sum_eraseIdx Worker.unprobed hi)

theorem outstanding_work {p q : WorkerPool Runner} {i : Nat} {addr : SocketAddr} {r r' : Runner}
    {e : RunnerEvent} {op : Option StoreOp} {db : Db} {clock : Int64}
    (hi : p.workers[i]? = some ⟨addr,.running r⟩) (hr : r.step d .worker addr db clock e = some (r',op))
    (h : p.step (.work i r') = some q) : q.outstanding + e.outcomes = p.outstanding := by
  obtain ⟨hbefore,hafter⟩ := unprobed_step hr
  simp only [WorkerPool.step,hi] at h
  obtain rfl := Option.some.inj h
  have hset : (p.setPhase i addr (.running r')).outstanding + _ = _ := WorkerPool.outstanding_set hi
  omega

def dispatches (s u : System) : Nat :=
  match s.sched,u.sched with
  | .offering _ _ _,.recording _ _ _ => 1
  | _,_ => 0

theorem undispatched {n : Nat} (h : u.sched = s.sched) (hout : u.pool.outstanding + n = s.pool.outstanding) :
    u.pool.outstanding + n = s.pool.outstanding + dispatches s u := by
  have hnone : dispatches s u = 0 := by
    unfold dispatches
    rw [h]
    split
    · next h₁ h₂ => cases h₁.symm.trans h₂
    · rfl
  rw [hnone]
  exact hout

theorem outstanding_sched {op : Option StoreOp} (h : schedMove d s = some (u,op)) :
    u.pool.outstanding = s.pool.outstanding + dispatches s u := by
  unfold schedMove at h
  split at h
  · cases h
  · cases h
  · next hs =>
    obtain ⟨rfl,rfl⟩ := Prod.mk.inj (Option.some.inj h)
    simp [dispatches,hs]
  · next hs =>
    obtain ⟨rfl,rfl⟩ := Prod.mk.inj (Option.some.inj h)
    simp [dispatches,hs]
  · next hs =>
    split at h
    · obtain ⟨rfl,rfl⟩ := Prod.mk.inj (Option.some.inj h)
      simp [dispatches,hs]
    · obtain ⟨rfl,rfl⟩ := Prod.mk.inj (Option.some.inj h)
      simp [dispatches,hs]
  · next hs =>
    obtain ⟨rfl,rfl⟩ := Prod.mk.inj (Option.some.inj h)
    simp [dispatches,hs]
  · next hs =>
    split at h
    · obtain ⟨p,hp,h⟩ := Option.map_eq_some_iff.mp h
      have hsame := (WorkerPool.insert_frame hp).1
      split at h
      · obtain ⟨rfl,rfl⟩ := Prod.mk.inj h
        simpa [dispatches,hs] using hsame
      · obtain ⟨rfl,rfl⟩ := Prod.mk.inj h
        simpa [dispatches,hs] using hsame
    · obtain ⟨rfl,rfl⟩ := Prod.mk.inj (Option.some.inj h)
      simp [dispatches,hs]
  · next hs =>
    split at h
    · obtain ⟨p,hp,h⟩ := Option.map_eq_some_iff.mp h
      have hsent := (WorkerPool.send_frame hp).1
      split at h
      · next hidle =>
        obtain ⟨rfl,rfl⟩ := Prod.mk.inj h
        rw [hidle] at hsent
        simpa [dispatches,hs] using hsent
      · next hbusy =>
        obtain ⟨rfl,rfl⟩ := Prod.mk.inj h
        split at hsent
        · next hidle => exact absurd hidle hbusy
        · simpa [dispatches,hs] using hsent
    · obtain ⟨p,hp,h⟩ := Option.map_eq_some_iff.mp h
      obtain ⟨rfl,rfl⟩ := Prod.mk.inj h
      simpa [dispatches,hs] using (WorkerPool.rollback_frame hp).1
    · cases h
  · next hs =>
    obtain ⟨rfl,rfl⟩ := Prod.mk.inj (Option.some.inj h)
    simp [dispatches,hs]

-- `unnamed` keeps, worker by worker, the error it has counted in `failed` and not yet in one of the kinds
structure Metered where
  system : System
  metrics : CrawlerMetrics
  dispatched : Nat
  unnamed : List (Option ProbeError)

inductive MeterEvent where
  | step (e : Event) (err : ProbeError)
  | name (i : Nat)

def skipped (s : System) : UInt64 :=
  match s.sched,s.pool.enqueue with
  | .offering _ _ rest,.rejected _ .full => UInt64.ofNat (1 + rest.length)
  | _,_ => 0

def record (m : CrawlerMetrics) (s : System) : Event → CrawlerMetrics
  | .work _ (.probed (some _)) => m.recordOk
  | .work _ (.probed none) => m.recordFailed
  | .sched => m.recordSkippedBackpressure (skipped s)
  | _ => m

def mark (err : ProbeError) (unnamed : List (Option ProbeError)) : Event → List (Option ProbeError)
  | .pool .spawn => unnamed ++ [none]
  | .pool (.join i) => unnamed.eraseIdx i
  | .work i (.probed none) => unnamed.set i (some err)
  | _ => unnamed

def returns (unnamed : List (Option ProbeError)) : Event → Bool
  | .pool (.finish i) => unnamed[i]?.all Option.isNone
  -- a panicking worker takes the process with it
  | .pool (.panic _) => false
  | _ => true

def metered (d : Node) (m : Metered) : MeterEvent → Option Metered
  | .step e err =>
      if returns m.unnamed e then
        (step d m.system e).map (fun u =>
          ⟨u,record m.metrics m.system e,m.dispatched + dispatches m.system u,mark err m.unnamed e⟩)
      else none
  | .name i =>
      match m.unnamed[i]? with
      | some (some err) =>
          some { m with metrics := m.metrics.recordFailedKind err,unnamed := m.unnamed.set i none }
      | _ => none

theorem outstanding_step {e : Event} {unnamed : List (Option ProbeError)} (hreturns : returns unnamed e = true)
    (hs : step d s e = some u) : u.pool.outstanding + e.outcomes = s.pool.outstanding + dispatches s u := by
  obtain ⟨⟨v,op⟩,hm,rfl⟩ := Option.map_eq_some_iff.mp hs
  change v.pool.outstanding + e.outcomes = s.pool.outstanding + dispatches s v
  cases e with
  | sched => exact outstanding_sched hm
  | pool m =>
    cases moves_of_move hm with
    | pool he hp =>
      have hpanic : ∀ i, m ≠ .panic i := by
        rintro i rfl
        cases hreturns
      exact undispatched rfl (outstanding_pool hpanic (poolMoves_of_step he hp))
  | work i e =>
    cases moves_of_move hm with
    | work hi hr hp => exact undispatched rfl (outstanding_work hi hr hp)
  | seed addrs =>
    cases moves_of_move hm with
    | seed _ _ => simp [dispatches,Event.outcomes]
  | prune =>
    cases moves_of_move hm with
    | prune _ => simp [dispatches,Event.outcomes]
  | tick =>
    cases moves_of_move hm with
    | tick _ => simp [dispatches,Event.outcomes]
  | _ =>
    cases moves_of_move hm
    exact undispatched rfl rfl

theorem record_ended (m : CrawlerMetrics) (s : System) (e : Event) :
    (record m s e).ok + (record m s e).failed = m.ok + m.failed + UInt64.ofNat e.outcomes := by
  cases e with
  | work i e =>
    cases e with
    | probed result =>
      cases result with
      | none => exact (UInt64.add_assoc ..).symm
      | some result =>
        change m.ok + 1 + m.failed = m.ok + m.failed + 1
        ac_rfl
    | proceed => exact (UInt64.add_zero _).symm
  | sched =>
    simp only [record,CrawlerMetrics.recordSkippedBackpressure]
    split <;> exact (UInt64.add_zero _).symm
  | _ => exact (UInt64.add_zero _).symm

def failing : Event → Nat
  | .work _ (.probed none) => 1
  | _ => 0

theorem record_failed (m : CrawlerMetrics) (s : System) (e : Event) :
    (record m s e).failed = m.failed + UInt64.ofNat (failing e) ∧ (record m s e).failures = m.failures := by
  cases e with
  | work i e =>
    cases e with
    | probed result =>
      cases result with
      | none => exact ⟨rfl,rfl⟩
      | some result => exact ⟨(UInt64.add_zero _).symm,rfl⟩
    | proceed => exact ⟨(UInt64.add_zero _).symm,rfl⟩
  | sched =>
    simp only [record,CrawlerMetrics.recordSkippedBackpressure]
    split <;> exact ⟨(UInt64.add_zero _).symm,rfl⟩
  | _ => exact ⟨(UInt64.add_zero _).symm,rfl⟩

def Marked (w : Worker Runner) (err : Option ProbeError) : Prop := err = none ∨ w.phase = .running .done

theorem workers_sched {op : Option StoreOp} (h : SchedMoves d s u op) : u.pool.workers = s.pool.workers := by
  cases h with
  | insert _ hp _ => exact (WorkerPool.insert_frame hp).2
  | duplicate _ hp => exact (WorkerPool.insert_frame hp).2
  | accept _ _ hp => exact (WorkerPool.send_frame hp).2
  | reject _ _ hp _ => exact (WorkerPool.send_frame hp).2
  | rollback hp => exact (WorkerPool.rollback_frame hp).2
  | _ => rfl

section marks
variable {p q : WorkerPool Runner} {unnamed : List (Option ProbeError)}
variable (hmarks : List.Forall₂ Marked p.workers unnamed)
include hmarks

theorem unmarked {i : Nat} {addr : SocketAddr} {phase : WorkerPhase Runner}
    (hi : p.workers[i]? = some ⟨addr,phase⟩) (hphase : phase ≠ .running .done) : unnamed[i]? = some none := by
  obtain ⟨err,herr,hmark⟩ := forall₂_getElem? hmarks hi
  rcases hmark with rfl | hdone
  · exact herr
  · exact absurd hdone hphase

theorem marked_pool {m : PoolMove} (err : ProbeError) (hreturns : returns unnamed (.pool m) = true)
    (h : PoolMoves p m q) :
    List.Forall₂ Marked q.workers (mark err unnamed (.pool m)) ∧
      (mark err unnamed (.pool m)).countP Option.isSome = unnamed.countP Option.isSome := by
  have hset : ∀ {i addr phase phase'}, p.workers[i]? = some ⟨addr,phase⟩ → phase ≠ .running .done →
      List.Forall₂ Marked (p.setPhase i addr phase').workers unnamed := fun hi hphase =>
    forall₂_set_left hmarks (unmarked hmarks hi hphase) (Or.inl rfl)
  cases h with
  | receive _ _ => exact ⟨hmarks,rfl⟩
  | spawn _ =>
    refine ⟨List.rel_append hmarks (.cons (Or.inl rfl) .nil),?_⟩
    simp [mark]
  | start hi => exact ⟨hset hi (by simp),rfl⟩
  | finish hi =>
    obtain ⟨err',herr,_⟩ := forall₂_getElem? hmarks hi
    have hnone : err' = none := by simpa [returns,herr] using hreturns
    exact ⟨forall₂_set_left hmarks herr (Or.inl hnone),rfl⟩
  | panic _ => cases hreturns
  | release hi => exact ⟨hset hi (by simp),rfl⟩
  | @join i _ hi =>
    exact ⟨forall₂_eraseIdx hmarks i,countP_eraseIdx Option.isSome (unmarked hmarks hi (by simp))⟩

theorem marked_work {i : Nat} {addr : SocketAddr} {r r' : Runner} {e : RunnerEvent} {op : Option StoreOp}
    {db : Db} {clock : Int64} (err : ProbeError) (hi : p.workers[i]? = some ⟨addr,.running r⟩)
    (hr : r.step d .worker addr db clock e = some (r',op)) (h : p.step (.work i r') = some q) :
    List.Forall₂ Marked q.workers (mark err unnamed (.work i e)) ∧
      (mark err unnamed (.work i e)).countP Option.isSome =
        unnamed.countP Option.isSome + failing (.work i e) := by
  simp only [WorkerPool.step,hi] at h
  obtain rfl := Option.some.inj h
  have hnone : unnamed[i]? = some none := unmarked hmarks hi (by
    rintro ⟨⟩
    cases hr)
  have hkept : List.Forall₂ Marked (p.workers.set i ⟨addr,.running r'⟩) unnamed :=
    forall₂_set_left hmarks hnone (Or.inl rfl)
  cases e with
  | proceed => exact ⟨hkept,rfl⟩
  | probed outcome =>
    cases outcome with
    | some result => exact ⟨hkept,rfl⟩
    | none =>
      have hdone : r' = .done := by
        cases r <;> cases hr
        rfl
      exact ⟨forall₂_set hmarks i (Or.inr (by rw [hdone])),countP_set Option.isSome hnone (some err)⟩

end marks

theorem marked_step {e : Event} {unnamed : List (Option ProbeError)} (err : ProbeError)
    (hmarks : List.Forall₂ Marked s.pool.workers unnamed) (hreturns : returns unnamed e = true)
    (hs : step d s e = some u) :
    List.Forall₂ Marked u.pool.workers (mark err unnamed e) ∧
      (mark err unnamed e).countP Option.isSome = unnamed.countP Option.isSome + failing e := by
  obtain ⟨⟨v,op⟩,hm,rfl⟩ := Option.map_eq_some_iff.mp hs
  change List.Forall₂ Marked v.pool.workers _ ∧ _
  cases moves_of_move hm with
  | sched h => exact ⟨workers_sched h ▸ hmarks,rfl⟩
  | pool he hp => exact marked_pool hmarks err hreturns (poolMoves_of_step he hp)
  | work hi hr hp => exact marked_work hmarks err hi hr hp
  | _ => exact ⟨hmarks,rfl⟩

structure Balanced (m : Metered) : Prop where
  places : m.metrics.ok + m.metrics.failed + UInt64.ofNat m.system.pool.outstanding = UInt64.ofNat m.dispatched
  kinds : m.metrics.failed = m.metrics.failures + UInt64.ofNat (m.unnamed.countP Option.isSome)
  marks : List.Forall₂ Marked m.system.pool.workers m.unnamed

theorem balanced_step {m : Metered} {e : Event} {err : ProbeError} (h : Balanced m)
    (hreturns : returns m.unnamed e = true) (hu : step d m.system e = some u) :
    Balanced ⟨u,record m.metrics m.system e,m.dispatched + dispatches m.system u,mark err m.unnamed e⟩ := by
  obtain ⟨hmarks,hcount⟩ := marked_step err h.marks hreturns hu
  obtain ⟨hfailed,hfailures⟩ := record_failed m.metrics m.system e
  refine ⟨?_,?_,hmarks⟩
  · have hwords : UInt64.ofNat e.outcomes + UInt64.ofNat u.pool.outstanding =
        UInt64.ofNat m.system.pool.outstanding + UInt64.ofNat (dispatches m.system u) := by
      rw [← UInt64.ofNat_add,← UInt64.ofNat_add,Nat.add_comm,outstanding_step hreturns hu]
    change (record m.metrics m.system e).ok + (record m.metrics m.system e).failed + _ = UInt64.ofNat (_ + _)
    rw [record_ended,UInt64.add_assoc,hwords,← UInt64.add_assoc,h.places,UInt64.ofNat_add]
  · change (record m.metrics m.system e).failed = (record m.metrics m.system e).failures + _
    rw [hcount,hfailed,hfailures,h.kinds,UInt64.ofNat_add,UInt64.add_assoc]

theorem balanced_name {m : Metered} {i : Nat} {err : ProbeError} (h : Balanced m)
    (hi : m.unnamed[i]? = some (some err)) :
    Balanced { m with metrics := m.metrics.recordFailedKind err,unnamed := m.unnamed.set i none } := by
  obtain ⟨hok,hfailed⟩ := CrawlerMetrics.ended_recordFailedKind m.metrics err
  refine ⟨?_,?_,?_⟩
  · change (m.metrics.recordFailedKind err).ok + (m.metrics.recordFailedKind err).failed + _ = _
    rw [hok,hfailed]
    exact h.places
  · have hcount : (m.unnamed.set i none).countP Option.isSome + 1 = m.unnamed.countP Option.isSome :=
      countP_set Option.isSome hi none
    change (m.metrics.recordFailedKind err).failed = (m.metrics.recordFailedKind err).failures + _
    rw [hfailed,h.kinds,← hcount,CrawlerMetrics.failures_recordFailedKind,UInt64.ofNat_add,UInt64.add_assoc,
      UInt64.add_comm 1]
    rfl
  · exact forall₂_set_right h.marks i (fun _ => Or.inl rfl)

theorem balanced_metered {m m' : Metered} {e : MeterEvent} (h : Balanced m) (hs : metered d m e = some m') :
    Balanced m' := by
  cases e with
  | step e err =>
    simp only [metered] at hs
    split at hs
    · next hreturns =>
      obtain ⟨u,hu,rfl⟩ := Option.map_eq_some_iff.mp hs
      exact balanced_step h hreturns hu
    · cases hs
  | name i =>
    simp only [metered] at hs
    split at hs
    · next err hi =>
      obtain rfl := Option.some.inj hs
      exact balanced_name h hi
    · cases hs

theorem probes_accounted_for (d : Node) (db : Db) (u : Int64) (es : List MeterEvent) (t : Metered)
    (hrun : run (metered d) ⟨start d db u,.new,0,[]⟩ es = some t) :
    t.metrics.ok + t.metrics.failed + UInt64.ofNat t.system.pool.outstanding = UInt64.ofNat t.dispatched ∧
    t.metrics.failed = t.metrics.failures + UInt64.ofNat (t.unnamed.countP Option.isSome) ∧
    List.Forall₂ Marked t.system.pool.workers t.unnamed := by
  have hstart : Balanced ⟨start d db u,.new,0,[]⟩ := ⟨rfl,rfl,.nil⟩
  have hend := run_invariant (fun _ _ _ h hs => balanced_metered h hs) hstart hrun
  exact ⟨hend.places,hend.kinds,hend.marks⟩

def timingOut : List MeterEvent :=
  [.seed [samplePeer],.sched,.tick,.sched,.sched,.sched,.sched,.pool .receive,.pool .spawn,.pool (.start 0),
    .work 0 (.probed none)].map (fun e => .step e .timeout)

theorem probes_accounted_for_timeout :
    ∃ t t', run (metered sampleNode) ⟨start sampleNode .empty 8000000,.new,0,[]⟩ timingOut = some t ∧
      t.metrics.failed = 1 ∧ t.metrics.failures = 0 ∧
      run (metered sampleNode) t [.name 0,.step (.pool (.finish 0)) .timeout] = some t' ∧
      t'.metrics.failedTimeout = 1 ∧
      t'.metrics.ok + t'.metrics.failed + UInt64.ofNat t'.system.pool.outstanding =
        UInt64.ofNat t'.dispatched ∧
      t.metrics.failed = t.metrics.failures + UInt64.ofNat (t.unnamed.countP Option.isSome) := by
  obtain ⟨t,t',ht,hfailed,hfailures,ht',htimeout⟩ : ∃ t t',
      run (metered sampleNode) ⟨start sampleNode .empty 8000000,.new,0,[]⟩ timingOut = some t ∧
      t.metrics.failed = 1 ∧ t.metrics.failures = 0 ∧
      run (metered sampleNode) t [.name 0,.step (.pool (.finish 0)) .timeout] = some t' ∧
      t'.metrics.failedTimeout = 1 := ⟨_,_,rfl,rfl,rfl,rfl,rfl⟩
  have hall := (run_append _ timingOut _).trans ((congrArg (Option.bind · _) ht).trans ht')
  exact ⟨t,t',ht,hfailed,hfailures,ht',htimeout,(probes_accounted_for sampleNode .empty 8000000 _ t' hall).1,
    (probes_accounted_for sampleNode .empty 8000000 timingOut t ht).2.1⟩

end System

end DnsSeeder
