import DnsSeeder.Crawler.WorkerPool

namespace DnsSeeder

open Lib

structure Dispatcher (W : Type) where
  pool : WorkerPool W
  aborted : Bool

inductive DrainEvent (W : Type) where
  | receive
  | spawn
  | start (i : Nat) (task : W)
  | work (i : Nat) (task : W)
  | finish (i : Nat)
  | release (i : Nat)
  | join (i : Nat)
  | leave
  | abort (i : Nat)
  | dropReceiver

namespace DrainEvent

variable {W : Type}

def settles : DrainEvent W → Bool
  | .work _ _ => false
  | _ => true

end DrainEvent

namespace Dispatcher

variable {W : Type}

def poolStep (s : Dispatcher W) (e : PoolEvent W) : Option (Dispatcher W) :=
  (s.pool.step e).map (fun p => { s with pool := p })

-- abort_all drops the futures that have not run yet; the receiver lives until the last worker is joined
def step (s : Dispatcher W) : DrainEvent W → Option (Dispatcher W)
  | .receive => if s.aborted then none else s.poolStep .receive
  | .spawn => s.poolStep .spawn
  | .start i task => s.poolStep (.start i task)
  | .work i task => s.poolStep (.work i task)
  | .finish i => s.poolStep (.finish i false)
  | .release i => s.poolStep (.release i)
  | .join i => s.poolStep (.join i)
  | .leave =>
      if s.aborted = false ∧ s.pool.cancelled = true ∧ s.pool.received = none then
        some { s with aborted := true }
      else none
  | .abort i =>
      match s.pool.workers[i]? with
      | some ⟨addr,.spawned⟩ =>
          if s.aborted then some { s with pool := s.pool.setPhase i addr .finished } else none
      | _ => none
  | .dropReceiver =>
      if s.aborted = true ∧ s.pool.workers = [] ∧ s.pool.rxDropped = false then
        some { s with pool := { s.pool with rxDropped := true, channel := [] } }
      else none

def cancel (p : WorkerPool W) : Dispatcher W := ⟨{ p with cancelled := true },false⟩

inductive Turns : DrainEvent W → Nat → WorkerPhase W → WorkerPhase W → (UInt64 → UInt64) → Prop
  | start (i : Nat) (task : W) : Turns (.start i task) i .spawned (.running task) (· + 1)
  | work (i : Nat) (old task : W) : Turns (.work i task) i (.running old) (.running task) id
  | finish (i : Nat) (task : W) : Turns (.finish i) i (.running task) .releasing (· - 1)
  | release (i : Nat) : Turns (.release i) i .releasing .finished id
  | abort (i : Nat) : Turns (.abort i) i .spawned .finished id

inductive Moves (s : Dispatcher W) : DrainEvent W → Dispatcher W → Prop
  | receive {net : NetAddress} {rest : List NetAddress} (hloop : s.aborted = false)
      (hr : s.pool.received = none) (hc : s.pool.channel = net :: rest)
      (hlt : s.pool.workers.length < s.pool.threads) :
      Moves s .receive { s with pool := { s.pool with channel := rest, received := some net } }
  | spawn {net : NetAddress} (hr : s.pool.received = some net) :
      Moves s .spawn { s with pool := { s.pool with
        received := none, workers := s.pool.workers ++ [⟨net.socketAddr,.spawned⟩] } }
  | turn {e : DrainEvent W} {i : Nat} {addr : SocketAddr} {phase phase' : WorkerPhase W}
      {tick : UInt64 → UInt64} {p : WorkerPool W} (ht : Turns e i phase phase' tick)
      (hi : s.pool.workers[i]? = some ⟨addr,phase⟩)
      (hp : p.workers = s.pool.workers.set i ⟨addr,phase'⟩ ∧ p.gauge = tick s.pool.gauge)
      (hrest : p.threads = s.pool.threads ∧ p.channel = s.pool.channel ∧ p.received = s.pool.received ∧
        p.cancelled = s.pool.cancelled ∧ p.rxDropped = s.pool.rxDropped) :
      Moves s e { s with pool := p }
  | join {i : Nat} {addr : SocketAddr} (hi : s.pool.workers[i]? = some ⟨addr,.finished⟩) :
      Moves s (.join i) { s with pool := { s.pool with workers := s.pool.workers.eraseIdx i } }
  | leave (hloop : s.aborted = false) (hr : s.pool.received = none) : Moves s .leave { s with aborted := true }
  | dropReceiver (ha : s.aborted = true) (hw : s.pool.workers = []) (hopen : s.pool.rxDropped = false) :
      Moves s .dropReceiver { s with pool := { s.pool with rxDropped := true, channel := [] } }

variable {s t : Dispatcher W} {e : DrainEvent W}

theorem moves_of_step (h : step s e = some t) : Moves s e t := by
  cases e with
  | receive =>
    simp only [step] at h
    split at h
    · cases h
    · next hloop =>
      obtain ⟨p,hp,rfl⟩ := Option.map_eq_some_iff.mp h
      simp only [WorkerPool.step] at hp
      split at hp
      · next hr hc =>
        split at hp
        · next hlt =>
          obtain rfl := Option.some.inj hp
          exact .receive (by simpa using hloop) hr hc hlt.1
        · cases hp
      · cases hp
  | spawn =>
    obtain ⟨p,hp,rfl⟩ := Option.map_eq_some_iff.mp h
    simp only [WorkerPool.step] at hp
    split at hp
    · next hr =>
      obtain rfl := Option.some.inj hp
      exact .spawn hr
    · cases hp
  | start i task =>
    obtain ⟨p,hp,rfl⟩ := Option.map_eq_some_iff.mp h
    simp only [WorkerPool.step] at hp
    split at hp
    · next hi =>
      obtain rfl := Option.some.inj hp
      exact .turn (.start i task) hi ⟨rfl,rfl⟩ ⟨rfl,rfl,rfl,rfl,rfl⟩
    · cases hp
  | work i task =>
    obtain ⟨p,hp,rfl⟩ := Option.map_eq_some_iff.mp h
    simp only [WorkerPool.step] at hp
    split at hp
    · next hi =>
      obtain rfl := Option.some.inj hp
      exact .turn (.work i _ task) hi ⟨rfl,rfl⟩ ⟨rfl,rfl,rfl,rfl,rfl⟩
    · cases hp
  | finish i =>
    obtain ⟨p,hp,rfl⟩ := Option.map_eq_some_iff.mp h
    simp only [WorkerPool.step] at hp
    split at hp
    · next hi =>
      obtain rfl := Option.some.inj hp
      exact .turn (.finish i _) hi ⟨rfl,rfl⟩ ⟨rfl,rfl,rfl,rfl,rfl⟩
    · cases hp
  | release i =>
    obtain ⟨p,hp,rfl⟩ := Option.map_eq_some_iff.mp h
    simp only [WorkerPool.step] at hp
    split at hp
    · next hi =>
      obtain rfl := Option.some.inj hp
      exact .turn (.release i) hi ⟨rfl,rfl⟩ ⟨rfl,rfl,rfl,rfl,rfl⟩
    · cases hp
  | join i =>
    obtain ⟨p,hp,rfl⟩ := Option.map_eq_some_iff.mp h
    simp only [WorkerPool.step] at hp
    split at hp
    · next hi =>
      obtain rfl := Option.some.inj hp
      exact .join hi
    · cases hp
  | leave =>
    simp only [step] at h
    split at h
    · next hc =>
      obtain rfl := Option.some.inj h
      exact .leave hc.1 hc.2.2
    · cases h
  | abort i =>
    simp only [step] at h
    split at h
    · next hi =>
      split at h
      · obtain rfl := Option.some.inj h
        exact .turn (.abort i) hi ⟨rfl,rfl⟩ ⟨rfl,rfl,rfl,rfl,rfl⟩
      · cases h
    · cases h
  | dropReceiver =>
    simp only [step] at h
    split at h
    · next hc =>
      obtain rfl := Option.some.inj h
      exact .dropReceiver hc.1 hc.2.1 hc.2.2
    · cases h

def weight : Worker W → Nat
  | ⟨_,.spawned⟩ => 4
  | ⟨_,.running _⟩ => 3
  | ⟨_,.releasing⟩ => 2
  | ⟨_,.finished⟩ => 1

def backlog (s : Dispatcher W) : Nat :=
  6 * s.pool.channel.length + 5 * s.pool.received.toList.length + (s.pool.workers.map weight).sum +
    (if s.aborted then 0 else 1) + if s.pool.rxDropped then 0 else 1

structure Draining (s : Dispatcher W) : Prop where
  cancelled : s.pool.cancelled = true
  gauge : s.pool.gauge.toNat = s.pool.started
  workers : s.pool.workers.length + s.pool.received.toList.length ≤ s.pool.threads
  threads : s.pool.threads < 2^64
  left : s.aborted = true → s.pool.received = none

theorem turn_weight {i : Nat} {phase phase' : WorkerPhase W} {tick : UInt64 → UInt64}
    (ht : Turns e i phase phase' tick) (addr : SocketAddr) :
    weight ⟨addr,phase'⟩ + (if e.settles then 1 else 0) ≤ weight ⟨addr,phase⟩ := by
  cases ht <;> simp [weight,DrainEvent.settles]

theorem turn_gauge {i : Nat} {phase phase' : WorkerPhase W} {tick : UInt64 → UInt64} {g : UInt64} {n : Nat}
    (ht : Turns e i phase phase' tick) (addr : SocketAddr) (hg : g.toNat = n)
    (hpos : (if WorkerPool.isRunning ⟨addr,phase⟩ then 1 else 0) ≤ n) (hlt : n + 1 < 2^64 ∨
      WorkerPool.isRunning ⟨addr,phase⟩ = true) :
    (tick g).toNat + (if WorkerPool.isRunning ⟨addr,phase⟩ then 1 else 0) =
      n + if WorkerPool.isRunning ⟨addr,phase'⟩ then 1 else 0 := by
  cases ht with
  | start task =>
    have hn : n + 1 < 2^64 := hlt.resolve_right (by simp [WorkerPool.isRunning])
    simp only [WorkerPool.isRunning,if_true,Bool.false_eq_true,if_false,UInt64.toNat_add,hg]
    exact Nat.mod_eq_of_lt hn
  | finish task =>
    have hone : 1 ≤ n := by simpa [WorkerPool.isRunning] using hpos
    have hsub := UInt64.toNat_sub_of_le g 1 (UInt64.le_iff_toNat_le.mpr (by rw [hg]; exact hone))
    simp only [WorkerPool.isRunning,if_true,Bool.false_eq_true,if_false,Nat.add_zero,hsub,hg]
    exact Nat.sub_add_cancel hone
  | _ => simp [WorkerPool.isRunning,hg]

theorem draining_turn {i : Nat} {addr : SocketAddr} {phase phase' : WorkerPhase W} {tick : UInt64 → UInt64}
    {p : WorkerPool W} (h : Draining s) (ht : Turns e i phase phase' tick)
    (hi : s.pool.workers[i]? = some ⟨addr,phase⟩)
    (hp : p.workers = s.pool.workers.set i ⟨addr,phase'⟩ ∧ p.gauge = tick s.pool.gauge)
    (hrest : p.threads = s.pool.threads ∧ p.channel = s.pool.channel ∧ p.received = s.pool.received ∧
      p.cancelled = s.pool.cancelled ∧ p.rxDropped = s.pool.rxDropped) :
    Draining { s with pool := p } := by
  obtain ⟨hw,hgauge⟩ := hp
  obtain ⟨hthreads,_,hreceived,hcancelled,_⟩ := hrest
  have hcount := countP_set WorkerPool.isRunning hi ⟨addr,phase'⟩
  have hstarted : s.pool.workers.countP WorkerPool.isRunning ≤ s.pool.workers.length := List.countP_le_length
  have hbound := h.workers
  have hlt := h.threads
  refine ⟨hcancelled ▸ h.cancelled,?_,?_,hthreads ▸ hlt,fun ha => hreceived.trans (h.left ha)⟩
  · have hmem : (⟨addr,phase⟩ : Worker W) ∈ s.pool.workers := List.mem_of_getElem? hi
    have hpos : (if WorkerPool.isRunning (⟨addr,phase⟩ : Worker W) then 1 else 0) ≤ s.pool.started := by
      split
      · next hrun => exact List.countP_pos_iff.mpr ⟨_,hmem,hrun⟩
      · exact Nat.zero_le _
    have hroom : s.pool.started + 1 < 2^64 ∨ WorkerPool.isRunning (⟨addr,phase⟩ : Worker W) = true := by
      cases hrun : WorkerPool.isRunning (⟨addr,phase⟩ : Worker W) with
      | true => exact Or.inr rfl
      | false =>
        -- a worker that is not running leaves one slot of the pool out of the gauge
        have herase := countP_eraseIdx WorkerPool.isRunning hi
        have hshort := List.countP_le_length (p := WorkerPool.isRunning) (l := s.pool.workers.eraseIdx i)
        have hidx := (List.getElem?_eq_some_iff.mp hi).1
        rw [List.length_eraseIdx_of_lt hidx] at hshort
        simp only [hrun,Bool.false_eq_true,if_false] at herase
        rw [WorkerPool.started]
        omega
    have hturn := turn_gauge ht addr h.gauge hpos hroom
    change p.gauge.toNat = p.workers.countP WorkerPool.isRunning
    rw [hgauge,hw]
    rw [WorkerPool.started] at hturn
    omega
  · change p.workers.length + p.received.toList.length ≤ p.threads
    rw [hw,hreceived,hthreads,List.length_set]
    exact hbound

theorem draining_step (h : Draining s) (hs : step s e = some t) : Draining t := by
  cases moves_of_step hs with
  | turn ht hi hp hrest => exact draining_turn h ht hi hp hrest
  | receive hloop hr hc hlt =>
    refine ⟨h.cancelled,h.gauge,?_,h.threads,fun ha => ?_⟩
    · simpa using hlt
    · exact absurd (hloop.symm.trans ha) (by simp)
  | @spawn net hr =>
    have hbound := h.workers
    refine ⟨h.cancelled,?_,?_,h.threads,fun _ => rfl⟩
    · simpa [WorkerPool.started,WorkerPool.isRunning] using h.gauge
    · simpa [hr] using hbound
  | @join i addr hi =>
    have hcount := countP_eraseIdx WorkerPool.isRunning hi
    have hbound := h.workers
    refine ⟨h.cancelled,?_,?_,h.threads,h.left⟩
    · rw [h.gauge,WorkerPool.started,← hcount]
      simp [WorkerPool.isRunning,WorkerPool.started]
    · have hlen := List.length_eraseIdx_le s.pool.workers i
      change (s.pool.workers.eraseIdx i).length + s.pool.received.toList.length ≤ s.pool.threads
      omega
  | leave _ hr => exact ⟨h.cancelled,h.gauge,h.workers,h.threads,fun _ => hr⟩
  | dropReceiver _ _ _ => exact ⟨h.cancelled,h.gauge,h.workers,h.threads,h.left⟩

theorem backlog_step (hs : step s e = some t) : backlog t + (if e.settles then 1 else 0) ≤ backlog s := by
  cases moves_of_step hs with
  | @turn e i addr phase phase' tick p ht hi hp hrest =>
    obtain ⟨_,hchannel,hreceived,_,hdropped⟩ := hrest
    have hsum := sum_set weight hi ⟨addr,phase'⟩
    have hweight := turn_weight ht addr
    simp only [backlog,hp.1,hchannel,hreceived,hdropped]
    omega
  | receive _ hr hc _ =>
    simp only [backlog,hr,hc,DrainEvent.settles,Option.toList_none,Option.toList_some,List.length_nil,
      List.length_cons,if_true]
    omega
  | spawn hr =>
    simp only [backlog,hr,DrainEvent.settles,Option.toList_none,Option.toList_some,List.length_nil,
      List.length_cons,List.map_append,List.sum_append,List.map_cons,List.map_nil,List.sum_cons,List.sum_nil,
      weight,if_true]
    omega
  | join hi =>
    have hsum := sum_eraseIdx weight hi
    simp only [weight] at hsum
    simp only [backlog,DrainEvent.settles,if_true]
    omega
  | leave hloop _ =>
    simp only [backlog,hloop,DrainEvent.settles,if_true,Bool.false_eq_true,if_false]
    omega
  | dropReceiver ha hw hopen =>
    simp only [backlog,ha,hopen,DrainEvent.settles,if_true,Bool.false_eq_true,if_false,List.length_nil]
    omega

structure Drained (s : Dispatcher W) : Prop where
  workers : s.pool.workers = []
  received : s.pool.received = none
  channel : s.pool.channel = []
  gauge : s.pool.gauge = 0
  closed : s.pool.rxDropped = true

def Stuck (s : Dispatcher W) : Prop := ∀ e, e.settles = true → step s e = none

theorem worker_moves [Inhabited W] {w : Worker W} {ws : List (Worker W)} (hw : s.pool.workers = w :: ws) :
    ∃ e : DrainEvent W, e.settles = true ∧ step s e ≠ none := by
  obtain ⟨addr,phase⟩ := w
  have hi : s.pool.workers[0]? = some ⟨addr,phase⟩ := by simp [hw]
  cases phase with
  | spawned => exact ⟨.start 0 default,rfl,by simp [step,poolStep,WorkerPool.step,hi]⟩
  | running task => exact ⟨.finish 0,rfl,by simp [step,poolStep,WorkerPool.step,hi]⟩
  | releasing => exact ⟨.release 0,rfl,by simp [step,poolStep,WorkerPool.step,hi]⟩
  | finished => exact ⟨.join 0,rfl,by simp [step,poolStep,WorkerPool.step,hi]⟩

theorem drained_of_stuck [Inhabited W] (h : Draining s)
    (hclosed : s.pool.rxDropped = true → s.pool.channel = []) (hstuck : Stuck s) : Drained s := by
  have hworkers : s.pool.workers = [] := by
    cases hw : s.pool.workers with
    | nil => rfl
    | cons w ws =>
      obtain ⟨e,he,hne⟩ := worker_moves hw
      exact absurd (hstuck e he) hne
  have hreceived : s.pool.received = none := by
    cases hr : s.pool.received with
    | none => rfl
    | some net =>
      have hnone := hstuck .spawn rfl
      simp [step,poolStep,WorkerPool.step,hr] at hnone
  have haborted : s.aborted = true := by
    cases ha : s.aborted with
    | true => rfl
    | false =>
      have hnone := hstuck .leave rfl
      simp [step,ha,h.cancelled,hreceived] at hnone
  have hdropped : s.pool.rxDropped = true := by
    cases hd : s.pool.rxDropped with
    | true => rfl
    | false =>
      have hnone := hstuck .dropReceiver rfl
      simp [step,haborted,hworkers,hd] at hnone
  refine ⟨hworkers,hreceived,hclosed hdropped,?_,hdropped⟩
  have hg := h.gauge
  rw [WorkerPool.started,hworkers] at hg
  exact UInt64.toNat_inj.mp hg

theorem closed_step (h : s.pool.rxDropped = true → s.pool.channel = [] ∧ s.aborted = true)
    (hs : step s e = some t) : t.pool.rxDropped = true → t.pool.channel = [] ∧ t.aborted = true := by
  cases moves_of_step hs with
  | turn _ _ _ hrest =>
    obtain ⟨_,hchannel,_,_,hdropped⟩ := hrest
    intro hd
    rw [hchannel]
    exact h (hdropped ▸ hd)
  | receive hloop _ _ _ =>
    intro hd
    exact absurd (hloop.symm.trans (h hd).2) (by simp)
  | spawn _ => exact h
  | join _ => exact h
  | leave _ _ => exact fun hd => ⟨(h hd).1,rfl⟩
  | dropReceiver ha _ _ => exact fun _ => ⟨rfl,ha⟩

theorem weights_le (ws : List (Worker W)) : (ws.map weight).sum ≤ 4 * ws.length := by
  induction ws with
  | nil => simp
  | cons w ws ih =>
    have hw : weight w ≤ 4 := by
      obtain ⟨addr,phase⟩ := w
      cases phase <;> simp [weight]
    rw [List.map_cons,List.sum_cons,List.length_cons]
    omega

theorem backlog_cancel {p : WorkerPool W} (h : WorkerPool.Inv p) : backlog (cancel p) ≤ 29 * p.threads + 2 := by
  have hw := weights_le p.workers
  have hbound := h.workers
  have hchannel := h.channel
  simp only [WorkerPool.capacity,WorkerPool.channelPerThread] at hchannel
  simp only [backlog,cancel,Bool.false_eq_true,if_false,h.open_]
  omega

theorem shutdown_drains [Inhabited W] (threads : UInt64) (es : List (PoolEvent W)) (p : WorkerPool W)
    (hrun : run WorkerPool.step (.spawn threads) es = some p) (hc : p.cancelled = false)
    (fs : List (DrainEvent W)) (s : Dispatcher W) (hs : run step (cancel p) fs = some s) :
    fs.countP DrainEvent.settles ≤ 29 * max threads.toNat 1 + 2 ∧ s.pool.gauge.toNat = s.pool.started ∧
    ((∃ e, e.settles = true ∧ step s e ≠ none) ∨ Drained s) := by
  obtain ⟨hinv,hthreads⟩ := WorkerPool.run_inv hrun hc
  have hstart : Draining (cancel p) :=
    ⟨rfl,hinv.gauge,hinv.workers,hinv.threads_lt,fun ha => by cases ha⟩
  obtain ⟨hdraining,hcost⟩ := run_decreases backlog DrainEvent.settles
    (fun _ _ _ h hs => ⟨draining_step h hs,backlog_step hs⟩) hstart hs
  have hclosed := run_invariant (I := fun s : Dispatcher W => s.pool.rxDropped = true →
      s.pool.channel = [] ∧ s.aborted = true) (fun _ _ _ h hs => closed_step h hs)
    (fun hd => absurd (hinv.open_.symm.trans hd) (by simp)) hs
  have hbound := backlog_cancel hinv
  refine ⟨by rw [← hthreads]; omega,hdraining.gauge,?_⟩
  by_contra hno
  obtain ⟨hquiet,hnot⟩ := not_or.mp hno
  refine hnot (drained_of_stuck hdraining (fun hd => (hclosed hd).1) (fun e he => ?_))
  by_contra hne
  exact hquiet ⟨e,he,hne⟩

def drainTwo : List (DrainEvent Unit) :=
  [.join 0,.receive,.spawn,.leave,.abort 0,.join 0]

theorem shutdown_drains_two_peers : ∃ (p : WorkerPool Unit) (s : Dispatcher Unit),
    run WorkerPool.step (.spawn 1) WorkerPool.twoPeers = some p ∧ run step (cancel p) drainTwo = some s ∧
    s.pool.workers = [] ∧ drainTwo.countP DrainEvent.settles ≤ 31 ∧ s.pool.gauge.toNat = s.pool.started ∧
    ((∃ e, e.settles = true ∧ step s e ≠ none) ∨ Drained s) :=
  ⟨_,_,rfl,rfl,rfl,shutdown_drains 1 WorkerPool.twoPeers _ rfl rfl drainTwo _ rfl⟩

end Dispatcher

end DnsSeeder
