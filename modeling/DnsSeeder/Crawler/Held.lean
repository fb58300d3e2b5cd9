import DnsSeeder.Crawler.Moves
import DnsSeeder.Crawler.PoolContents

namespace DnsSeeder

open Lib PeerStore

inductive Held where
  | target (addr : SocketAddr)
  | tick (now : Int64)
  | existing (addr : SocketAddr) (existing : Option PeerRecord)
  | op (op : StoreOp)

def Runner.held (addr : SocketAddr) : Runner → List Held
  | .stamping _ existing => [.existing addr existing]
  | .upserting record _ => [.op (.upsert record)]
  | .seeding accepted now => [.op (.insertOrRefreshSeenBatch accepted now)]
  | .recording now => [.op (.recordAttempt (netFrom addr) now)]
  | _ => []

def Worker.held : Worker Runner → List Held
  | ⟨addr,.running r⟩ => .target addr :: r.held addr
  | ⟨addr,_⟩ => [.target addr]

def Post.held (post : Post) : List Held := .target post.addr :: post.runner.held post.addr

def candidateHeld (now : Int64) (candidates : List PeerRecord) : List Held :=
  candidates.map (fun rec => .op (.recordAttempt rec.address now))

def Sched.held : Sched → List Held
  | .idle => []
  | .panicked => []
  | .seeding accepted now => [.op (.insertOrRefreshSeenBatch accepted now)]
  | .pruning cutoff => [.op (.pruneDead cutoff)]
  | .ticking now => [.tick now]
  | .scanning now candidates => candidateHeld now candidates
  | .offering now net candidates => .op (.recordAttempt net now) :: candidateHeld now candidates
  | .recording now net candidates => .op (.recordAttempt net now) :: candidateHeld now candidates

def WorkerPool.heldItems (p : WorkerPool Runner) : List Held :=
  p.nets.map (fun net => .target net.socketAddr) ++ p.workers.flatMap Worker.held

namespace System

variable {d : Node} {s t : System}

def held (s : System) : List Held :=
  s.sched.held ++ s.pool.heldItems ++ s.posts.flatMap Post.held

inductive FreshRun (d : Node) (s : System) (caller : Caller) (addr : SocketAddr)
    (inherited : List Held) : Held → Prop
  | read {existing : Option PeerRecord} (h : get d.codec (netFrom addr) s.db = .ok existing) :
      FreshRun d s caller addr inherited (.existing addr existing)
  | stamp {existing : Option PeerRecord} (version : VersionMessage)
      (h : .existing addr existing ∈ inherited) :
      FreshRun d s caller addr inherited (.op (.upsert (peerRecordFromVersion addr version s.clock existing)))
  | discovered (addresses : List (IpAddr × UInt16)) :
      FreshRun d s caller addr inherited
        (.op (.insertOrRefreshSeenBatch (d.acceptDiscovered addresses) s.clock))
  | failed (h : caller = .submission) :
      FreshRun d s caller addr inherited (.op (.recordAttempt (netFrom addr) s.clock))

theorem runner_held {caller : Caller} {addr : SocketAddr} {r r' : Runner} {e : RunnerEvent}
    {op : Option StoreOp} (h : r.step d caller addr s.db s.clock e = some (r',op)) :
    (∀ x ∈ r'.held addr, FreshRun d s caller addr (r.held addr) x) ∧
    ∀ o, op = some o → .op o ∈ r.held addr := by
  unfold Runner.step at h
  split at h
  · obtain ⟨rfl,rfl⟩ := Prod.mk.inj (Option.some.inj h)
    simp [Runner.held]
  · obtain ⟨rfl,rfl⟩ := Prod.mk.inj (Option.some.inj h)
    cases caller <;> simp [Runner.afterFailure,Runner.held]
  · split at h
    · next existing hget =>
      obtain ⟨rfl,rfl⟩ := Prod.mk.inj (Option.some.inj h)
      simpa [Runner.held] using FreshRun.read hget
    · obtain ⟨rfl,rfl⟩ := Prod.mk.inj (Option.some.inj h)
      cases caller <;> simp [Runner.afterApply,Runner.held]
  · next result existing =>
    obtain ⟨rfl,rfl⟩ := Prod.mk.inj (Option.some.inj h)
    simpa [Runner.held] using FreshRun.stamp result.version (by simp)
  · obtain ⟨rfl,rfl⟩ := Prod.mk.inj (Option.some.inj h)
    cases caller <;> simp [Runner.afterApply,Runner.held]
  · next addresses =>
    obtain ⟨rfl,rfl⟩ := Prod.mk.inj (Option.some.inj h)
    simpa [Runner.held] using FreshRun.discovered addresses
  · obtain ⟨rfl,rfl⟩ := Prod.mk.inj (Option.some.inj h)
    simp [Runner.held]
  · split at h
    · obtain ⟨rfl,rfl⟩ := Prod.mk.inj (Option.some.inj h)
      simpa [Runner.held] using FreshRun.failed rfl
    · simp at h
  · obtain ⟨rfl,rfl⟩ := Prod.mk.inj (Option.some.inj h)
    simp [Runner.held]
  · simp at h

theorem mem_heldItems {p : WorkerPool Runner} {x : Held} :
    x ∈ p.heldItems ↔ (∃ net ∈ p.nets, x = .target net.socketAddr) ∨ ∃ w ∈ p.workers, x ∈ w.held := by
  simp [WorkerPool.heldItems,eq_comm]

theorem target_mem_held (w : Worker Runner) : .target w.addr ∈ w.held := by
  obtain ⟨addr,phase⟩ := w
  cases phase <;> simp [Worker.held]

theorem mem_worker_held {w : Worker Runner} {x : Held} (h : x ∈ w.held) :
    x = .target w.addr ∨ ∃ r, w.phase = .running r ∧ x ∈ r.held w.addr := by
  obtain ⟨addr,phase⟩ := w
  cases phase with
  | running r =>
    rcases List.mem_cons.mp h with h | h
    · exact Or.inl h
    · exact Or.inr ⟨r,rfl,h⟩
  | _ => exact Or.inl (by simpa [Worker.held] using h)

theorem heldItems_step {p q : WorkerPool Runner} {e : PoolEvent Runner} (hs : p.step e = some q)
    {x : Held} (hx : x ∈ q.heldItems) :
    x ∈ p.heldItems ∨ (∃ net, e = .insert net ∧ x = .target net.socketAddr) ∨
    ∃ i addr phase r, p.workers[i]? = some ⟨addr,phase⟩ ∧ (e = .start i r ∨ e = .work i r) ∧
      x ∈ r.held addr := by
  rcases mem_heldItems.mp hx with ⟨net,hn,rfl⟩ | ⟨w,hw,hx⟩
  · rcases WorkerPool.mem_nets_step hs hn with hn | he
    · exact Or.inl (mem_heldItems.mpr (Or.inl ⟨net,hn,rfl⟩))
    · exact Or.inr (Or.inl ⟨net,he,rfl⟩)
  · rcases WorkerPool.mem_workers_step hs hw with hw | ⟨i,phase,hi,hrun⟩ | ⟨net,hn,rfl⟩
    · exact Or.inl (mem_heldItems.mpr (Or.inr ⟨w,hw,hx⟩))
    · rcases mem_worker_held hx with rfl | ⟨r,hr,hx⟩
      · have hm : (⟨w.addr,phase⟩ : Worker Runner) ∈ p.workers := List.mem_of_getElem? hi
        exact Or.inl (mem_heldItems.mpr (Or.inr ⟨_,hm,target_mem_held ⟨w.addr,phase⟩⟩))
      · exact Or.inr (Or.inr ⟨i,w.addr,phase,r,hi,hrun r hr,hx⟩)
    · rw [List.mem_singleton.mp hx]
      exact Or.inl (mem_heldItems.mpr (Or.inl ⟨net,hn,rfl⟩))

inductive Fresh (d : Node) (s : System) : Held → Prop
  | run {caller : Caller} {addr : SocketAddr} {inherited : List Held} {x : Held}
      (hcaller : caller = .submission → s.posts ≠ []) (haddr : .target addr ∈ held s)
      (hin : ∀ y ∈ inherited, y ∈ held s) (h : FreshRun d s caller addr inherited x) : Fresh d s x
  | bootstrap (addrs : List SocketAddr) :
      Fresh d s (.op (.insertOrRefreshSeenBatch (d.acceptBootstrap addrs) s.clock))
  | prune : Fresh d s (.op (.pruneDead (saturatingSub s.clock (durationToMs d.config.deadAfter))))
  | tick : Fresh d s (.tick s.clock)
  | due {now : Int64} {rec : PeerRecord} (hnow : .tick now ∈ held s)
      (h : Due d.codec s.db (dueQuery d now) rec) : Fresh d s (.op (.recordAttempt rec.address now))
  | submit {addr addr' : SocketAddr} (h : d.acceptSubmission addr = some addr') :
      Fresh d s (.target addr')
  | offer {net : NetAddress} {now : Int64} (h : .op (.recordAttempt net now) ∈ held s) :
      Fresh d s (.target net.socketAddr)

structure Moved (d : Node) (s t : System) (e : Event) (op : Option StoreOp) : Prop where
  db : t.db = s.db
  clock : s.clock ≤ t.clock
  held : ∀ x ∈ held t, x ∈ held s ∨ Fresh d s x
  op : ∀ o, op = some o → .op o ∈ System.held s ∨ ∃ addr, e = .delete addr ∧ o = .delete (netFrom addr)

theorem mem_held {x : Held} :
    x ∈ held s ↔ x ∈ s.sched.held ∨ x ∈ s.pool.heldItems ∨ ∃ post ∈ s.posts, x ∈ post.held := by
  simp [held]

def Known (d : Node) (s : System) (x : Held) : Prop := x ∈ held s ∨ Fresh d s x

theorem known_sched {x : Held} (h : x ∈ s.sched.held) : Known d s x :=
  Or.inl (mem_held.mpr (Or.inl h))

theorem known_pool {x : Held} (h : x ∈ s.pool.heldItems) : Known d s x :=
  Or.inl (mem_held.mpr (Or.inr (Or.inl h)))

theorem known_post {x : Held} {post : Post} (hp : post ∈ s.posts) (h : x ∈ post.held) : Known d s x :=
  Or.inl (mem_held.mpr (Or.inr (Or.inr ⟨post,hp,h⟩)))

theorem known_of_parts (hsched : ∀ x ∈ t.sched.held, Known d s x)
    (hpool : ∀ x ∈ t.pool.heldItems, Known d s x)
    (hposts : ∀ post ∈ t.posts, ∀ x ∈ post.held, Known d s x) : ∀ x ∈ held t, Known d s x := by
  intro x hx
  rcases mem_held.mp hx with hx | hx | ⟨post,hp,hx⟩
  · exact hsched x hx
  · exact hpool x hx
  · exact hposts post hp x hx

theorem moved_sched {sched : Sched} {e : Event} {op : Option StoreOp}
    (hsched : ∀ x ∈ sched.held, Known d s x) (hop : ∀ o, op = some o → .op o ∈ held s) :
    Moved d s { s with sched := sched } e op where
  db := rfl
  clock := Int64.le_refl _
  held := known_of_parts hsched (fun _ hx => known_pool (s := s) hx) (fun _ hp _ => known_post hp)
  op o ho := Or.inl (hop o ho)

theorem moved_pool {sched : Sched} {p : WorkerPool Runner} {pe : PoolEvent Runner} {e : Event}
    {op : Option StoreOp} (hp : s.pool.step pe = some p) (hsched : ∀ x ∈ sched.held, Known d s x)
    (hin : ∀ net, pe = .insert net → Known d s (.target net.socketAddr))
    (htask : ∀ i addr phase r, s.pool.workers[i]? = some ⟨addr,phase⟩ → pe = .start i r ∨ pe = .work i r →
      ∀ x ∈ r.held addr, Known d s x) (hop : ∀ o, op = some o → .op o ∈ held s) :
    Moved d s { s with sched := sched, pool := p } e op where
  db := rfl
  clock := Int64.le_refl _
  held := by
    refine known_of_parts hsched ?_ (fun _ hp _ => known_post hp)
    intro x hx
    rcases heldItems_step hp hx with hx | ⟨net,he,rfl⟩ | ⟨i,addr,phase,r,hi,he,hx⟩
    · exact known_pool hx
    · exact hin net he
    · exact htask i addr phase r hi he x hx
  op o ho := Or.inl (hop o ho)

theorem candidateHeld_cons (now : Int64) (rec : PeerRecord) (rest : List PeerRecord) :
    candidateHeld now (rec :: rest) = .op (.recordAttempt rec.address now) :: candidateHeld now rest := rfl

theorem known_scanning {now : Int64} {rec : PeerRecord} {rest : List PeerRecord}
    (hs : s.sched = .scanning now (rec :: rest)) :
    Known d s (.op (.recordAttempt rec.address now)) ∧ ∀ x ∈ candidateHeld now rest, Known d s x := by
  have hcons : s.sched.held = .op (.recordAttempt rec.address now) :: candidateHeld now rest := by
    rw [hs,Sched.held,candidateHeld_cons]
  refine ⟨known_sched (by simp [hcons]),fun x hx => known_sched ?_⟩
  rw [hcons]
  exact List.mem_cons_of_mem _ hx

theorem known_insert {now : Int64} {rec : PeerRecord} {rest : List PeerRecord}
    (hs : s.sched = .scanning now (rec :: rest)) (net : NetAddress)
    (he : PoolEvent.insert (W := Runner) rec.address = .insert net) : Known d s (.target net.socketAddr) := by
  obtain rfl := PoolEvent.insert.inj he
  have hrec : .op (.recordAttempt rec.address now) ∈ s.sched.held := by
    simp [hs,Sched.held,candidateHeld_cons]
  exact Or.inr (.offer (mem_held.mpr (Or.inl hrec)))

theorem moved_schedMove {op : Option StoreOp} (hm : SchedMoves d s t op) : Moved d s t .sched op := by
  cases hm with
  | seed hs =>
    refine moved_sched (by simp [Sched.held]) ?_
    rintro o ⟨⟩
    exact mem_held.mpr (Or.inl (by simp [hs,Sched.held]))
  | prune hs =>
    refine moved_sched (by simp [Sched.held]) ?_
    rintro o ⟨⟩
    exact mem_held.mpr (Or.inl (by simp [hs,Sched.held]))
  | @query now candidates hs hdue =>
    have hnow : .tick now ∈ held s := mem_held.mpr (Or.inl (by simp [hs,Sched.held]))
    refine moved_sched ?_ (by simp)
    intro x hx
    obtain ⟨rec,hrec,rfl⟩ := List.mem_map.mp hx
    exact Or.inr (.due hnow (due_of_dueForProbe hdue rec hrec))
  | panic => exact moved_sched (by simp [Sched.held]) (by simp)
  | finish _ => exact moved_sched (by simp [Sched.held]) (by simp)
  | skip hs => exact moved_sched (fun x hx => (known_scanning hs).2 x hx) (by simp)
  | @insert now rec rest p net hs hp he =>
    obtain ⟨hrec,hrest⟩ := known_scanning (d := d) hs
    refine moved_pool hp ?_ (known_insert hs) (by simp) (by simp)
    have hnet : net = rec.address := WorkerPool.inserted_eq hp he
    intro x hx
    rcases List.mem_cons.mp hx with rfl | hx
    · exact hnet ▸ hrec
    · exact hrest x hx
  | duplicate hs hp => exact moved_pool hp (known_scanning hs).2 (known_insert hs) (by simp) (by simp)
  | accept hs _ hp =>
    exact moved_pool hp (fun x hx => known_sched (hs ▸ hx)) (by simp) (by simp) (by simp)
  | reject _ _ hp _ => exact moved_pool hp (fun x => known_sched) (by simp) (by simp) (by simp)
  | rollback hp => exact moved_pool hp (by simp [Sched.held]) (by simp) (by simp) (by simp)
  | record hs =>
    refine moved_sched ?_ ?_
    · intro x hx
      exact known_sched (by rw [hs]; exact List.mem_cons_of_mem _ hx)
    · rintro o ⟨⟩
      exact mem_held.mpr (Or.inl (by simp [hs,Sched.held]))

theorem poolEvent_cases {p : WorkerPool Runner} {m : PoolMove} {e : PoolEvent Runner}
    (h : poolEvent p m = some e) :
    e ≠ .cancel ∧ (∀ net, e ≠ .insert net) ∧ ∀ i r, e = .start i r ∨ e = .work i r → r = .probing := by
  cases m with
  | finish i =>
    simp only [poolEvent] at h
    split at h
    · obtain rfl := Option.some.inj h
      exact ⟨by simp,by simp,by simp⟩
    · simp at h
  | start i =>
    obtain rfl := Option.some.inj h
    refine ⟨by simp,by simp,?_⟩
    rintro j r (he | he)
    · exact (PoolEvent.start.inj he).2.symm
    · cases he
  | _ =>
    obtain rfl := Option.some.inj h
    exact ⟨by simp,by simp,by simp⟩

theorem moved_work {i : Nat} {e : RunnerEvent} {addr : SocketAddr} {r r' : Runner} {p : WorkerPool Runner}
    {op : Option StoreOp} (hi : s.pool.workers[i]? = some ⟨addr,.running r⟩)
    (hr : r.step d .worker addr s.db s.clock e = some (r',op)) (hp : s.pool.step (.work i r') = some p) :
    Moved d s { s with pool := p } (.work i e) op := by
  have hw : (⟨addr,.running r⟩ : Worker Runner) ∈ s.pool.workers := List.mem_of_getElem? hi
  have hin : ∀ y ∈ Held.target addr :: r.held addr, y ∈ held s := by
    intro y hy
    exact mem_held.mpr (Or.inr (Or.inl (mem_heldItems.mpr (Or.inr ⟨_,hw,hy⟩))))
  obtain ⟨hfresh,hop⟩ := runner_held hr
  refine moved_pool hp (fun x hx => known_sched hx) (by simp) ?_ ?_
  · rintro j addr' phase r'' hj (he | he) x hx
    · cases he
    · obtain ⟨rfl,rfl⟩ := PoolEvent.work.inj he
      rw [hi] at hj
      obtain ⟨rfl,_⟩ := Worker.mk.inj (Option.some.inj hj)
      exact Or.inr (.run (by simp) (hin _ (by simp)) (fun y hy => hin y (by simp [hy])) (hfresh x hx))
  · intro o ho
    exact hin _ (List.mem_cons_of_mem _ (hop o ho))

theorem moved_posts {posts : List Post} {e : Event} {op : Option StoreOp}
    (hposts : ∀ post ∈ posts, ∀ x ∈ post.held, Known d s x) (hop : ∀ o, op = some o → .op o ∈ held s) :
    Moved d s { s with posts := posts } e op where
  db := rfl
  clock := Int64.le_refl _
  held := known_of_parts (fun _ hx => known_sched (s := s) hx) (fun _ hx => known_pool (s := s) hx) hposts
  op o ho := Or.inl (hop o ho)

theorem moved_post {j : Nat} {e : RunnerEvent} {post : Post} {r : Runner} {op : Option StoreOp}
    (hj : s.posts[j]? = some post)
    (hr : post.runner.step d .submission post.addr s.db s.clock e = some (r,op)) :
    Moved d s { s with posts := s.posts.set j ⟨post.addr,r⟩ } (.post j e) op := by
  have hpost : post ∈ s.posts := List.mem_of_getElem? hj
  have hin : ∀ y ∈ post.held, y ∈ held s :=
    fun y hy => mem_held.mpr (Or.inr (Or.inr ⟨post,hpost,hy⟩))
  obtain ⟨hfresh,hop⟩ := runner_held hr
  refine moved_posts ?_ (fun o ho => hin _ (List.mem_cons_of_mem _ (hop o ho)))
  intro post' hp x hx
  rcases List.mem_or_eq_of_mem_set hp with hp | rfl
  · exact known_post hp hx
  · rcases List.mem_cons.mp hx with rfl | hx
    · exact known_post hpost (by simp [Post.held])
    · exact Or.inr (.run (fun _ => List.ne_nil_of_mem hpost) (hin (.target post.addr) (by simp [Post.held]))
        (fun y hy => hin y (List.mem_cons_of_mem _ hy)) (hfresh x hx))

theorem moved_move {e : Event} {op : Option StoreOp} (hm : move d s e = some (t,op)) :
    Moved d s t e op := by
  cases moves_of_move hm with
  | advance hle => exact ⟨rfl,hle,fun x hx => Or.inl hx,by simp⟩
  | seed addrs _ =>
    refine moved_sched ?_ (by simp)
    intro x hx
    rw [List.mem_singleton.mp hx]
    exact Or.inr (.bootstrap addrs)
  | prune _ =>
    refine moved_sched ?_ (by simp)
    intro x hx
    rw [List.mem_singleton.mp hx]
    exact Or.inr .prune
  | tick _ =>
    refine moved_sched ?_ (by simp)
    intro x hx
    rw [List.mem_singleton.mp hx]
    exact Or.inr .tick
  | sched h => exact moved_schedMove h
  | pool he hp =>
    obtain ⟨_,hin,htask⟩ := poolEvent_cases he
    refine moved_pool hp (fun x hx => known_sched hx) (fun net hn => absurd hn (hin net)) ?_ (by simp)
    intro i addr phase r _ her x hx
    rw [htask i r her] at hx
    simp [Runner.held] at hx
  | work hi hr hp => exact moved_work hi hr hp
  | submit ha =>
    refine moved_posts ?_ (by simp)
    intro post hp x hx
    rcases List.mem_append.mp hp with hp | hp
    · exact known_post hp hx
    · rw [List.mem_singleton.mp hp] at hx
      rw [List.mem_singleton.mp hx]
      exact Or.inr (.submit ha)
  | post hj hr => exact moved_post hj hr
  | disconnect =>
    exact moved_posts (fun post hp x hx => known_post (List.mem_of_mem_eraseIdx hp) hx) (by simp)
  | delete addr =>
    refine ⟨rfl,Int64.le_refl _,fun x hx => Or.inl hx,?_⟩
    rintro o ⟨⟩
    exact Or.inr ⟨addr,rfl,rfl⟩

end System

end DnsSeeder
