import DnsSeeder.Net
import DnsSeeder.Lib.Run
import DnsSeeder.Lib.Slots

namespace DnsSeeder

open Lib

inductive EnqueueOutcome where
  | accepted
  | duplicate
  | full
  | closed
deriving DecidableEq

inductive Enqueue where
  | idle
  | inserted (net : NetAddress)
  | rejected (net : NetAddress) (outcome : EnqueueOutcome)
deriving DecidableEq

inductive WorkerPhase (W : Type) where
  | spawned
  | running (task : W)
  | releasing
  | finished

structure Worker (W : Type) where
  addr : SocketAddr
  phase : WorkerPhase W

structure WorkerPool (W : Type) where
  threads : Nat
  inFlight : Finset SocketAddr
  channel : List NetAddress
  received : Option NetAddress
  workers : List (Worker W)
  gauge : UInt64
  enqueue : Enqueue
  cancelled : Bool
  rxDropped : Bool

inductive PoolEvent (W : Type) where
  | insert (net : NetAddress)
  | send
  | rollback
  | receive
  | spawn
  | start (i : Nat) (task : W)
  | work (i : Nat) (task : W)
  | finish (i : Nat) (panicked : Bool)
  | release (i : Nat)
  | join (i : Nat)
  | cancel
  | dropReceiver
  | abort (i : Nat)

namespace WorkerPool

variable {W : Type}

def channelPerThread : Nat := 4

def spawn (threads : UInt64) : WorkerPool W where
  threads := max threads.toNat 1
  inFlight := ∅
  channel := []
  received := none
  workers := []
  gauge := 0
  enqueue := .idle
  cancelled := false
  rxDropped := false

def capacity (p : WorkerPool W) : Nat := min (p.threads * channelPerThread) (2^64 - 1)

def tryEnqueue (net : NetAddress) (p : WorkerPool W) : EnqueueOutcome × WorkerPool W :=
  let addr := net.socketAddr
  if addr ∈ p.inFlight then (.duplicate,p)
  else
    let p := { p with inFlight := insert addr p.inFlight }
    if p.rxDropped then (.closed,{ p with inFlight := p.inFlight.erase addr })
    else if p.channel.length < p.capacity then (.accepted,{ p with channel := p.channel ++ [net] })
    else (.full,{ p with inFlight := p.inFlight.erase addr })

def setPhase (p : WorkerPool W) (i : Nat) (addr : SocketAddr) (phase : WorkerPhase W) : WorkerPool W :=
  { p with workers := p.workers.set i ⟨addr,phase⟩ }

def step (p : WorkerPool W) : PoolEvent W → Option (WorkerPool W)
  | .insert net =>
      match p.enqueue with
      | .idle =>
          if net.socketAddr ∈ p.inFlight then some p
          else some { p with inFlight := insert net.socketAddr p.inFlight, enqueue := .inserted net }
      | _ => none
  | .send =>
      match p.enqueue with
      | .inserted net =>
          if p.rxDropped then some { p with enqueue := .rejected net .closed }
          else if p.channel.length < p.capacity then
            some { p with channel := p.channel ++ [net], enqueue := .idle }
          else some { p with enqueue := .rejected net .full }
      | _ => none
  | .rollback =>
      match p.enqueue with
      | .rejected net _ =>
          some { p with inFlight := p.inFlight.erase net.socketAddr, enqueue := .idle }
      | _ => none
  | .receive =>
      match p.received,p.channel with
      | none,net :: rest =>
          if p.workers.length < p.threads ∧ p.rxDropped = false then
            some { p with channel := rest, received := some net }
          else none
      | _,_ => none
  | .spawn =>
      match p.received with
      | some net =>
          some { p with received := none, workers := p.workers ++ [⟨net.socketAddr,.spawned⟩] }
      | none => none
  | .start i task =>
      match p.workers[i]? with
      | some ⟨addr,.spawned⟩ => some { p.setPhase i addr (.running task) with gauge := p.gauge + 1 }
      | _ => none
  | .work i task =>
      match p.workers[i]? with
      | some ⟨addr,.running _⟩ => some (p.setPhase i addr (.running task))
      | _ => none
  | .finish i _ =>
      match p.workers[i]? with
      | some ⟨addr,.running _⟩ => some { p.setPhase i addr .releasing with gauge := p.gauge - 1 }
      | _ => none
  | .release i =>
      match p.workers[i]? with
      | some ⟨addr,.releasing⟩ =>
          some { p.setPhase i addr .finished with inFlight := p.inFlight.erase addr }
      | _ => none
  | .join i =>
      match p.workers[i]? with
      | some ⟨_,.finished⟩ => some { p with workers := p.workers.eraseIdx i }
      | _ => none
  | .cancel => some { p with cancelled := true }
  | .dropReceiver =>
      if p.cancelled ∧ p.received = none then some { p with rxDropped := true, channel := [] } else none
  | .abort i =>
      match p.workers[i]? with
      | some ⟨addr,.spawned⟩ =>
          if p.cancelled ∧ p.rxDropped then some (p.setPhase i addr .finished) else none
      | _ => none

def enqueueHeld : Enqueue → List SocketAddr
  | .idle => []
  | .inserted net => [net.socketAddr]
  | .rejected net _ => [net.socketAddr]

def heldBy : Worker W → Option SocketAddr
  | ⟨_,.finished⟩ => none
  | ⟨addr,_⟩ => some addr

def isRunning : Worker W → Bool
  | ⟨_,.running _⟩ => true
  | _ => false

def queued (p : WorkerPool W) : List SocketAddr := p.channel.map NetAddress.socketAddr
def held (p : WorkerPool W) : List SocketAddr := p.workers.filterMap heldBy
def started (p : WorkerPool W) : Nat := p.workers.countP isRunning

def owners (p : WorkerPool W) : List SocketAddr :=
  enqueueHeld p.enqueue ++ p.queued ++ p.received.toList.map NetAddress.socketAddr ++ p.held

structure Inv (p : WorkerPool W) : Prop where
  threads_pos : 1 ≤ p.threads
  threads_lt : p.threads < 2^64
  open_ : p.rxDropped = false
  slots : Slots p.inFlight p.owners
  workers : p.workers.length + p.received.toList.length ≤ p.threads
  channel : p.channel.length ≤ p.capacity
  gauge : p.gauge.toNat = p.started

theorem inv_spawn (threads : UInt64) : Inv (spawn threads : WorkerPool W) := by
  have hlt := threads.toNat_lt
  refine ⟨Nat.le_max_right _ _,?_,rfl,⟨List.nodup_nil,?_⟩,Nat.zero_le _,Nat.zero_le _,rfl⟩
  · change max threads.toNat 1 < 2^64
    omega
  · simp [spawn,owners,queued,held,enqueueHeld]

theorem started_lt {p : WorkerPool W} (h : Inv p) : p.started < 2^64 :=
  calc p.started ≤ p.workers.length := List.countP_le_length
    _ ≤ p.threads := le_trans (Nat.le_add_right _ _) h.workers
    _ < 2^64 := h.threads_lt

theorem started_succ_lt {p : WorkerPool W} (h : Inv p) {i : Nat} {w : Worker W}
    (hi : p.workers[i]? = some w) (hw : isRunning w = false) : p.started + 1 < 2^64 := by
  obtain ⟨l₁,l₂,hl,_,_⟩ := split_at hi
  have hb := h.workers
  have h₁ := List.countP_le_length (p := isRunning) (l := l₁)
  have h₂ := List.countP_le_length (p := isRunning) (l := l₂)
  have hs : p.started = l₁.countP isRunning + l₂.countP isRunning := by
    rw [started,hl,List.countP_append,List.countP_cons,hw]
    rfl
  have ht := h.threads_lt
  rw [hl] at hb
  simp only [List.length_append,List.length_cons] at hb
  omega

theorem gauge_pos {p : WorkerPool W} (h : Inv p) {i : Nat} {w : Worker W}
    (hi : p.workers[i]? = some w) (hw : isRunning w = true) : 1 ≤ p.gauge.toNat := by
  rw [h.gauge]
  exact List.countP_pos_iff.mpr ⟨w,List.mem_of_getElem? hi,hw⟩

theorem inv_insert {p q : WorkerPool W} (h : Inv p) (net : NetAddress)
    (hs : step p (.insert net) = some q) : Inv q := by
  cases he : p.enqueue with
  | inserted n => simp [step,he] at hs
  | rejected n o => simp [step,he] at hs
  | idle =>
    simp only [step,he] at hs
    split at hs
    · exact Option.some.inj hs ▸ h
    · next ha =>
      obtain rfl := Option.some.inj hs
      refine { h with slots := h.slots.add ha ?_ }
      simp [owners,he,enqueueHeld,queued,held]

theorem inv_send {p q : WorkerPool W} (h : Inv p) (hs : step p .send = some q) : Inv q := by
  cases he : p.enqueue with
  | idle => simp [step,he] at hs
  | rejected n o => simp [step,he] at hs
  | inserted net =>
    simp only [step,he] at hs
    rw [if_neg (by simp [h.open_])] at hs
    split at hs
    · next hc =>
      obtain rfl := Option.some.inj hs
      refine { h with slots := h.slots.perm ?_, channel := ?_ }
      · simp only [owners,he,enqueueHeld,queued,List.map_append,List.map_cons,List.map_nil,
          List.nil_append,held]
        refine List.Perm.append_right _ (List.Perm.append_right _ ?_)
        exact List.perm_append_comm
      · simp only [List.length_append,List.length_singleton]
        exact hc
    · obtain rfl := Option.some.inj hs
      refine { h with slots := ?_ }
      simpa [owners,he,enqueueHeld,queued,held] using h.slots

theorem inv_rollback {p q : WorkerPool W} (h : Inv p) (hs : step p .rollback = some q) : Inv q := by
  cases he : p.enqueue with
  | idle => simp [step,he] at hs
  | inserted n => simp [step,he] at hs
  | rejected net o =>
    simp only [step,he,Option.some.injEq] at hs
    obtain rfl := hs
    refine { h with slots := h.slots.remove ?_ }
    simp [owners,he,enqueueHeld,queued,held]

theorem inv_receive {p q : WorkerPool W} (h : Inv p) (hs : step p .receive = some q) : Inv q := by
  cases hr : p.received with
  | some n => simp [step,hr] at hs
  | none =>
    cases hc : p.channel with
    | nil => simp [step,hr,hc] at hs
    | cons net rest =>
      simp only [step,hr,hc] at hs
      split at hs
      · next hlt =>
        obtain rfl := Option.some.inj hs
        refine { h with slots := h.slots.perm ?_, workers := ?_, channel := ?_ }
        · simp only [owners,queued,hr,hc,List.map_cons,Option.toList_none,Option.toList_some,
            List.map_nil,List.append_nil,held]
          refine List.Perm.append_right _ ?_
          rw [List.append_assoc]
          refine List.Perm.append_left _ ?_
          exact @List.perm_append_comm _ [net.socketAddr] _
        · simpa using hlt.1
        · have := h.channel
          rw [hc,List.length_cons] at this
          exact Nat.le_of_succ_le this
      · simp at hs

theorem inv_spawnWorker {p q : WorkerPool W} (h : Inv p) (hs : step p .spawn = some q) : Inv q := by
  cases hr : p.received with
  | none => simp [step,hr] at hs
  | some net =>
    simp only [step,hr,Option.some.injEq] at hs
    obtain rfl := hs
    refine { h with slots := h.slots.perm ?_, workers := ?_, gauge := ?_ }
    · simp only [owners,hr,held,heldBy,Option.toList_some,Option.toList_none,List.map_cons,List.map_nil,
        List.append_nil,List.filterMap_append,List.filterMap_cons,List.filterMap_nil,queued]
      rw [List.append_assoc]
      exact List.Perm.append_left _ List.perm_append_comm
    · simpa [hr] using h.workers
    · rw [h.gauge]
      simp [started,isRunning]

theorem inv_setPhase {p q : WorkerPool W} {i : Nat} {addr : SocketAddr} {phase phase' : WorkerPhase W}
    (h : Inv p) (hi : p.workers[i]? = some ⟨addr,phase⟩)
    (hq : q.workers = p.workers.set i ⟨addr,phase'⟩)
    (hrest : q.threads = p.threads ∧ q.rxDropped = p.rxDropped ∧ q.channel = p.channel ∧
      q.received = p.received ∧ q.enqueue = p.enqueue)
    (hslots : ∀ l : List SocketAddr, Slots p.inFlight ((heldBy ⟨addr,phase⟩).toList ++ l) →
      Slots q.inFlight ((heldBy (W := W) ⟨addr,phase'⟩).toList ++ l))
    (hgauge : ∀ n : Nat, n < 2^64 → n = p.started →
      p.gauge.toNat = n → q.gauge.toNat + (if isRunning ⟨addr,phase⟩ then 1 else 0) =
        n + (if isRunning (W := W) ⟨addr,phase'⟩ then 1 else 0)) : Inv q := by
  obtain ⟨ht,hd,hc,hr,he⟩ := hrest
  obtain ⟨l₁,l₂,hw,hset,_⟩ := split_at hi
  rw [hset] at hq
  have hcons : ∀ w : Worker W, ([w].filterMap heldBy) = (heldBy w).toList := by
    intro w
    cases hh : heldBy w <;> simp [hh]
  have hown : ∀ (r : WorkerPool W) (w : Worker W), r.workers = l₁ ++ w :: l₂ →
      r.channel = p.channel → r.received = p.received → r.enqueue = p.enqueue →
      r.owners.Perm ((heldBy w).toList ++ (enqueueHeld p.enqueue ++ p.queued ++
        p.received.toList.map NetAddress.socketAddr ++ l₁.filterMap heldBy ++ l₂.filterMap heldBy)) := by
    intro r w hrw hrc hrr hre
    have hs : l₁ ++ w :: l₂ = l₁ ++ ([w] ++ l₂) := rfl
    simp only [owners,held,queued,hrw,hrc,hrr,hre,hs,List.filterMap_append,hcons]
    rw [← List.append_assoc,← List.append_assoc]
    refine List.Perm.trans (List.Perm.append_right _ List.perm_append_comm) ?_
    rw [List.append_assoc]
  refine ⟨ht ▸ h.threads_pos,ht ▸ h.threads_lt,hd ▸ h.open_,?_,?_,?_,?_⟩
  · have hp := h.slots.perm (hown p _ hw rfl rfl rfl)
    exact (hslots _ hp).perm (hown q _ hq hc hr he).symm
  · have := h.workers
    rw [ht,hr,hq]
    rw [hw] at this
    simpa using this
  · rw [hc,capacity,ht]
    exact h.channel
  · have hg := hgauge p.started (started_lt h) rfl h.gauge
    have hp : p.started = l₁.countP isRunning +
        (l₂.countP isRunning + if isRunning ⟨addr,phase⟩ then 1 else 0) := by
      rw [started,hw,List.countP_append,List.countP_cons]
    have hq' : q.started = l₁.countP isRunning +
        (l₂.countP isRunning + if isRunning (W := W) ⟨addr,phase'⟩ then 1 else 0) := by
      rw [started,hq,List.countP_append,List.countP_cons]
    omega

theorem inv_join {p q : WorkerPool W} (h : Inv p) (i : Nat) (hs : step p (.join i) = some q) : Inv q := by
  simp only [step] at hs
  split at hs
  · next addr hi =>
    obtain rfl := Option.some.inj hs
    obtain ⟨l₁,l₂,hw,_,her⟩ := split_at hi
    refine { h with slots := ?_, workers := ?_, gauge := ?_ }
    · have hp := h.slots
      simp only [owners,held,queued,hw,List.filterMap_append,List.filterMap_cons,heldBy] at hp
      simpa only [owners,held,queued,her,List.filterMap_append] using hp
    · have := h.workers
      rw [hw] at this
      simp only [her,List.length_append,List.length_cons] at this ⊢
      omega
    · rw [h.gauge,started,started,her,hw]
      simp [isRunning]
  · simp at hs

theorem step_inv {p q : WorkerPool W} {e : PoolEvent W} (h : Inv p) (hs : step p e = some q)
    (hc : q.cancelled = false) : Inv q := by
  cases e with
  | insert net => exact inv_insert h net hs
  | send => exact inv_send h hs
  | rollback => exact inv_rollback h hs
  | receive => exact inv_receive h hs
  | spawn => exact inv_spawnWorker h hs
  | join i => exact inv_join h i hs
  | start i task =>
    simp only [step] at hs
    split at hs
    · next addr hi =>
      obtain rfl := Option.some.inj hs
      refine inv_setPhase h hi rfl ⟨rfl,rfl,rfl,rfl,rfl⟩ (fun _ hl => hl) ?_
      intro n hn _ hg
      have hlt := started_succ_lt h hi rfl
      simp only [isRunning,if_true,Bool.false_eq_true,if_false,Nat.add_zero,UInt64.toNat_add,hg]
      rw [← ‹n = p.started›] at hlt
      exact Nat.mod_eq_of_lt hlt
    · simp at hs
  | work i task =>
    simp only [step] at hs
    split at hs
    · next addr w hi =>
      obtain rfl := Option.some.inj hs
      refine inv_setPhase h hi rfl ⟨rfl,rfl,rfl,rfl,rfl⟩ (fun _ hl => hl) ?_
      intro n _ _ hg
      simp [isRunning,setPhase,hg]
    · simp at hs
  | finish i panicked =>
    simp only [step] at hs
    split at hs
    · next addr w hi =>
      obtain rfl := Option.some.inj hs
      refine inv_setPhase h hi rfl ⟨rfl,rfl,rfl,rfl,rfl⟩ (fun _ hl => hl) ?_
      intro n _ _ hg
      have hpos := gauge_pos h hi rfl
      have hsub := UInt64.toNat_sub_of_le p.gauge 1 (UInt64.le_iff_toNat_le.mpr hpos)
      simp only [isRunning,if_true,Bool.false_eq_true,if_false,Nat.add_zero]
      rw [hsub,← hg]
      exact Nat.sub_add_cancel hpos
    · simp at hs
  | release i =>
    simp only [step] at hs
    split at hs
    · next addr hi =>
      obtain rfl := Option.some.inj hs
      refine inv_setPhase h hi rfl ⟨rfl,rfl,rfl,rfl,rfl⟩ ?_ ?_
      · intro l hl
        exact hl.remove (List.Perm.refl _)
      · intro n _ _ hg
        simp [isRunning,setPhase,hg]
    · simp at hs
  | cancel =>
    simp only [step,Option.some.injEq] at hs
    simp [← hs] at hc
  | dropReceiver =>
    simp only [step] at hs
    split at hs
    · next hcan =>
      obtain rfl := Option.some.inj hs
      simp [hcan.1] at hc
    · simp at hs
  | abort i =>
    simp only [step] at hs
    split at hs
    · split at hs
      · next hcan =>
        obtain rfl := Option.some.inj hs
        simp [setPhase,hcan.1] at hc
      · simp at hs
    · simp at hs

theorem step_frame {p q : WorkerPool W} {e : PoolEvent W} (hs : step p e = some q) :
    q.threads = p.threads ∧ (q.cancelled = false → p.cancelled = false) := by
  cases e with
  | cancel =>
    obtain rfl := Option.some.inj hs
    exact ⟨rfl,fun h => by simp at h⟩
  | _ =>
    simp only [step,setPhase] at hs
    repeat' split at hs
    all_goals first
      | (obtain rfl := Option.some.inj hs; exact ⟨rfl,fun h => h⟩)
      | cases hs

theorem run_inv {threads : UInt64} {es : List (PoolEvent W)} {p : WorkerPool W}
    (h : run step (spawn threads) es = some p) (hc : p.cancelled = false) :
    Inv p ∧ p.threads = max threads.toNat 1 := by
  refine run_invariant
    (I := fun p => p.cancelled = false → Inv p ∧ p.threads = max threads.toNat 1)
    ?_ (fun _ => ⟨inv_spawn threads,rfl⟩) h hc
  intro p e q hp hs hc
  obtain ⟨hf,hcan⟩ := step_frame hs
  obtain ⟨hi,ht⟩ := hp (hcan hc)
  exact ⟨step_inv hi hs hc,hf.trans ht⟩

def isReleasing : Worker W → Bool
  | ⟨_,.releasing⟩ => true
  | _ => false

def Quiescent (p : WorkerPool W) : Prop :=
  p.enqueue = .idle ∧ p.received = none ∧ ∀ w ∈ p.workers, isReleasing w = false

instance (p : WorkerPool W) : Decidable p.Quiescent :=
  inferInstanceAs (Decidable (_ ∧ _ ∧ _))

theorem owners_quiescent {p : WorkerPool W} (h : p.Quiescent) : p.owners = p.queued ++ p.held := by
  simp [owners,h.1,h.2.1,enqueueHeld]

theorem queued_held_sublist (p : WorkerPool W) : (p.queued ++ p.held).Sublist p.owners := by
  unfold owners
  refine List.Sublist.append ?_ (List.Sublist.refl _)
  rw [List.append_assoc]
  exact (List.sublist_append_left _ _).trans (List.sublist_append_right _ _)

def tryEnqueueEvents (net : NetAddress) : EnqueueOutcome → List (PoolEvent W)
  | .duplicate => [.insert net]
  | .accepted => [.insert net,.send]
  | .full => [.insert net,.send,.rollback]
  | .closed => [.insert net,.send,.rollback]

theorem tryEnqueue_cases (net : NetAddress) (p : WorkerPool W) :
    (net.socketAddr ∈ p.inFlight ∧ tryEnqueue net p = (.duplicate,p)) ∨
    (net.socketAddr ∉ p.inFlight ∧ p.rxDropped = true ∧ tryEnqueue net p = (.closed,p)) ∨
    (net.socketAddr ∉ p.inFlight ∧ p.rxDropped = false ∧ p.channel.length < p.capacity ∧
      tryEnqueue net p = (.accepted,{ p with
        inFlight := insert net.socketAddr p.inFlight, channel := p.channel ++ [net] })) ∨
    (net.socketAddr ∉ p.inFlight ∧ p.rxDropped = false ∧ ¬ p.channel.length < p.capacity ∧
      tryEnqueue net p = (.full,p)) := by
  by_cases ha : net.socketAddr ∈ p.inFlight
  · exact Or.inl ⟨ha,by simp only [tryEnqueue,if_pos ha]⟩
  · refine Or.inr ?_
    rcases Bool.eq_false_or_eq_true p.rxDropped with hd | hd
    · exact Or.inl ⟨ha,hd,by simp only [tryEnqueue,if_neg ha,if_pos hd,Finset.erase_insert ha]⟩
    · refine Or.inr ?_
      have hd' : ¬ p.rxDropped = true := by simp [hd]
      by_cases hc : p.channel.length < p.capacity
      · refine Or.inl ⟨ha,hd,hc,?_⟩
        simp only [tryEnqueue,if_neg ha,if_neg hd']
        exact if_pos hc
      · refine Or.inr ⟨ha,hd,hc,?_⟩
        simp only [tryEnqueue,if_neg ha,if_neg hd',Finset.erase_insert ha]
        exact if_neg hc

theorem run_tryEnqueue {p : WorkerPool W} (he : p.enqueue = .idle) (net : NetAddress) :
    run step p (tryEnqueueEvents net (tryEnqueue net p).1) = some (tryEnqueue net p).2 := by
  have hp : ({ p with enqueue := .idle } : WorkerPool W) = p := by
    rw [← he]
  have hcap : ({ p with inFlight := insert net.socketAddr p.inFlight, enqueue := .inserted net } :
      WorkerPool W).capacity = p.capacity := rfl
  rcases tryEnqueue_cases net p with ⟨ha,h⟩ | ⟨ha,hd,h⟩ | ⟨ha,hd,hc,h⟩ | ⟨ha,hd,hc,h⟩
  · simp only [h,tryEnqueueEvents,run_cons,run_nil,step,he,if_pos ha,Option.bind_some]
  · simp only [h,tryEnqueueEvents,run_cons,run_nil,step,he,if_neg ha,if_pos hd,Finset.erase_insert ha,
      Option.bind_some,hp]
  · have hd' : ¬ p.rxDropped = true := by simp [hd]
    simp only [h,tryEnqueueEvents,run_cons,run_nil,step,he,if_neg ha,if_neg hd',hcap,if_pos hc,
      Option.bind_some]
  · have hd' : ¬ p.rxDropped = true := by simp [hd]
    simp only [h,tryEnqueueEvents,run_cons,run_nil,step,he,if_neg ha,if_neg hd',hcap,if_neg hc,
      Finset.erase_insert ha,Option.bind_some,hp]

theorem tryEnqueue_spec (net : NetAddress) (p : WorkerPool W) :
    ((tryEnqueue net p).1 = .accepted ↔ (tryEnqueue net p).2.channel = p.channel ++ [net]) ∧
    ((tryEnqueue net p).1 = .accepted → net.socketAddr ∉ p.inFlight ∧
      (tryEnqueue net p).2.inFlight = insert net.socketAddr p.inFlight) ∧
    ((tryEnqueue net p).1 ≠ .accepted → (tryEnqueue net p).2 = p) := by
  rcases tryEnqueue_cases net p with ⟨ha,h⟩ | ⟨ha,_,h⟩ | ⟨ha,_,_,h⟩ | ⟨ha,_,_,h⟩ <;> simp [h,ha]

theorem worker_pool_slots (threads : UInt64) (ht : 1 ≤ threads) (es : List (PoolEvent W))
    (p : WorkerPool W) (hrun : run step (spawn threads) es = some p) (hc : p.cancelled = false) :
    (p.Quiescent → ∀ addr, addr ∈ p.inFlight ↔ addr ∈ p.queued ∨ addr ∈ p.held) ∧
    (p.queued ++ p.held).Nodup ∧
    p.workers.length ≤ threads.toNat ∧ p.channel.length ≤ 4 * threads.toNat ∧
    p.gauge.toNat = p.started ∧
    (∀ i panicked q, step p (.finish i panicked) = some q → 1 ≤ p.gauge.toNat) ∧
    (p.Quiescent → ∀ net,
      run step p (tryEnqueueEvents net (tryEnqueue net p).1) = some (tryEnqueue net p).2 ∧
      ((tryEnqueue net p).1 = .accepted ↔ (tryEnqueue net p).2.channel = p.channel ++ [net]) ∧
      ((tryEnqueue net p).1 = .accepted → net.socketAddr ∉ p.inFlight ∧
        (tryEnqueue net p).2.inFlight = insert net.socketAddr p.inFlight) ∧
      ((tryEnqueue net p).1 ≠ .accepted → (tryEnqueue net p).2 = p)) := by
  obtain ⟨hi,hth⟩ := run_inv hrun hc
  have hpos : 1 ≤ threads.toNat := UInt64.le_iff_toNat_le.mp ht
  have hth' : p.threads = threads.toNat := hth.trans (Nat.max_eq_left hpos)
  refine ⟨?_,?_,?_,?_,hi.gauge,?_,?_⟩
  · intro hq addr
    rw [hi.slots.mem,owners_quiescent hq,List.mem_append]
  · exact (queued_held_sublist p).nodup hi.slots.nodup
  · have := hi.workers
    omega
  · have := hi.channel
    simp only [capacity,channelPerThread] at this
    omega
  · intro i panicked q hs
    simp only [step] at hs
    split at hs
    · next hw => exact gauge_pos hi hw rfl
    · simp at hs
  · intro hq net
    exact ⟨run_tryEnqueue hq.1 net,tryEnqueue_spec net p⟩

def twoPeers : List (PoolEvent Unit) :=
  let a : NetAddress := ⟨.v4 0x08080808#32,16111⟩
  let b : NetAddress := ⟨.v4 0x01010101#32,16111⟩
  [.insert a,.send,.receive,.spawn,.insert b,.start 0 (),.send,.insert a,.finish 0 true,.release 0]

theorem worker_pool_slots_two_peers :
    ∃ p : WorkerPool Unit, run step (spawn 1) twoPeers = some p ∧ p.Quiescent ∧
      p.queued = [⟨.v4 0x01010101#32,16111⟩] ∧ p.held = [] ∧
      ∀ addr, addr ∈ p.inFlight ↔ addr ∈ p.queued ∨ addr ∈ p.held :=
  ⟨_,rfl,by decide,rfl,rfl,(worker_pool_slots 1 (by decide) twoPeers _ rfl rfl).1 (by decide)⟩

end WorkerPool

end DnsSeeder
