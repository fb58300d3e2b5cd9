import DnsSeeder.Crawler.History

namespace DnsSeeder

open Lib PeerStore

namespace WorkerPool

variable {W : Type} {p q : WorkerPool W}

def Quiet : PoolEvent W → Prop
  | .insert _ => False
  | .send => False
  | .rollback => False
  | .cancel => False
  | _ => True

theorem enqueue_of_quiet {e : PoolEvent W} (hs : step p e = some q) (he : Quiet e) :
    q.enqueue = p.enqueue := by
  cases e with
  | insert net => exact he.elim
  | send => exact he.elim
  | rollback => exact he.elim
  | cancel => exact he.elim
  | _ =>
    simp only [step,setPhase] at hs
    repeat' split at hs
    all_goals first
      | (obtain rfl := Option.some.inj hs; rfl)
      | cases hs

theorem send_enqueue {net : NetAddress} (hs : step p .send = some q) (he : p.enqueue = .inserted net) :
    q.enqueue = .idle ∨ ∃ outcome, q.enqueue = .rejected net outcome := by
  simp only [step,he] at hs
  split at hs
  · obtain rfl := Option.some.inj hs
    exact Or.inr ⟨_,rfl⟩
  · split at hs
    · obtain rfl := Option.some.inj hs
      exact Or.inl rfl
    · obtain rfl := Option.some.inj hs
      exact Or.inr ⟨_,rfl⟩

theorem held_not_offered {net : NetAddress} (h : Inv p) (he : p.enqueue = .inserted net)
    {w : Worker W} (hw : w ∈ p.workers) (hh : heldBy w = some w.addr) : w.addr ≠ net.socketAddr := by
  intro heq
  have hnd := h.slots.nodup
  have hmem : net.socketAddr ∈ p.held := List.mem_filterMap.mpr ⟨w,hw,by rw [hh,heq]⟩
  simp only [owners,he,enqueueHeld,List.append_assoc,List.cons_append,List.nodup_cons] at hnd
  exact hnd.1 (by simp [hmem])

end WorkerPool

namespace System

variable {d : Node} {s t : System} {t₀ : Int64}

def TaskOk (addr : SocketAddr) : Runner → Prop
  | .upserting record _ => record.address = netFrom addr
  | .failing => False
  | .recording _ => False
  | _ => True

theorem taskOk_step {addr : SocketAddr} {db : Db} {clock : Int64} {r r' : Runner} {e : RunnerEvent}
    {op : Option StoreOp} (hr : TaskOk addr r) (h : r.step d .worker addr db clock e = some (r',op)) :
    TaskOk addr r' := by
  unfold Runner.step at h
  split at h
  · obtain ⟨rfl,_⟩ := Prod.mk.inj (Option.some.inj h)
    trivial
  · obtain ⟨rfl,_⟩ := Prod.mk.inj (Option.some.inj h)
    trivial
  · split at h
    · obtain ⟨rfl,_⟩ := Prod.mk.inj (Option.some.inj h)
      trivial
    · obtain ⟨rfl,_⟩ := Prod.mk.inj (Option.some.inj h)
      trivial
  · obtain ⟨rfl,_⟩ := Prod.mk.inj (Option.some.inj h)
    rfl
  · obtain ⟨rfl,_⟩ := Prod.mk.inj (Option.some.inj h)
    trivial
  · obtain ⟨rfl,_⟩ := Prod.mk.inj (Option.some.inj h)
    trivial
  · obtain ⟨rfl,_⟩ := Prod.mk.inj (Option.some.inj h)
    trivial
  · exact hr.elim
  · exact hr.elim
  · simp at h

structure PoolMoved (d : Node) (s t : System) (e : PoolEvent Runner) : Prop where
  step : s.pool.step e = some t.pool
  open_ : e ≠ .cancel
  start : ∀ i r, e = .start i r → r = .probing
  work : ∀ i r, e = .work i r → ∃ addr r₀ ev op, s.pool.workers[i]? = some ⟨addr,.running r₀⟩ ∧
    r₀.step d .worker addr s.db s.clock ev = some (r,op)

theorem schedMoves_pool {op : Option StoreOp} (hm : SchedMoves d s t op) :
    t.posts = s.posts ∧ (t.pool = s.pool ∨ ∃ e, PoolMoved d s t e) := by
  cases hm with
  | insert _ hp _ => exact ⟨rfl,Or.inr ⟨_,hp,by simp,by simp,by simp⟩⟩
  | duplicate _ hp => exact ⟨rfl,Or.inr ⟨_,hp,by simp,by simp,by simp⟩⟩
  | accept _ _ hp => exact ⟨rfl,Or.inr ⟨_,hp,by simp,by simp,by simp⟩⟩
  | reject _ _ hp _ => exact ⟨rfl,Or.inr ⟨_,hp,by simp,by simp,by simp⟩⟩
  | rollback hp => exact ⟨rfl,Or.inr ⟨_,hp,by simp,by simp,by simp⟩⟩
  | _ => exact ⟨rfl,Or.inl rfl⟩

theorem poolEvent_ne_work {p : WorkerPool Runner} {m : PoolMove} {i : Nat} {r : Runner} :
    poolEvent p m ≠ some (.work i r) := by
  cases m with
  | finish j =>
    simp only [poolEvent]
    split <;> simp
  | _ => simp [poolEvent]

theorem move_pool {e : Event} {op : Option StoreOp} (hm : move d s e = some (t,op)) :
    t.pool = s.pool ∨ ∃ pe, PoolMoved d s t pe := by
  cases moves_of_move hm with
  | sched h => exact (schedMoves_pool h).2
  | pool he hp =>
    obtain ⟨hc,_,htask⟩ := poolEvent_cases he
    refine Or.inr ⟨_,hp,hc,fun i r h => htask i r (Or.inl h),?_⟩
    rintro i r rfl
    exact absurd he poolEvent_ne_work
  | @work i e addr r r' p op hi hr hp =>
    refine Or.inr ⟨_,hp,by simp,by simp,?_⟩
    intro j r'' h
    obtain ⟨rfl,rfl⟩ := PoolEvent.work.inj h
    exact ⟨addr,r,e,op,hi,hr⟩
  | _ => exact Or.inl rfl

def Event.isHttp : Event → Bool
  | .submit _ => true
  | .post _ _ => true
  | .disconnect _ => true
  | .delete _ => true
  | _ => false

structure Crawling (s : System) : Prop where
  open_ : s.pool.cancelled = false
  pool : s.pool.Inv
  tasks : s.pool.Tasks TaskOk
  posts : s.posts = []

theorem posts_move {e : Event} {op : Option StoreOp} (hm : move d s e = some (t,op))
    (he : Event.isHttp e = false) : t.posts = s.posts := by
  cases moves_of_move hm with
  | sched h => exact (schedMoves_pool h).1
  | submit _ => cases he
  | post _ _ => cases he
  | disconnect => cases he
  | _ => rfl

theorem crawling_move {e : Event} {op : Option StoreOp} (h : Crawling s) (hm : move d s e = some (t,op))
    (he : Event.isHttp e = false) : Crawling t := by
  have hposts : t.posts = [] := (posts_move hm he).trans h.posts
  rcases move_pool hm with hp | ⟨pe,hp⟩
  · exact ⟨hp ▸ h.open_,hp ▸ h.pool,hp ▸ h.tasks,hposts⟩
  · have hopen := WorkerPool.open_of_step h.open_ hp.step hp.open_
    refine ⟨hopen,WorkerPool.step_inv h.pool hp.step hopen,WorkerPool.tasks_step h.tasks hp.step ?_,hposts⟩
    rintro i addr phase r hi (hpe | hpe)
    · rw [hp.start i r hpe]
      trivial
    · obtain ⟨addr',r₀,ev,op',hi',hr⟩ := hp.work i r hpe
      rw [hi'] at hi
      obtain ⟨rfl,_⟩ := Worker.mk.inj (Option.some.inj hi)
      exact taskOk_step (h.tasks addr' r₀ (List.mem_of_getElem? hi')) hr

theorem crawling_start (db : Db) (clock : Int64) : Crawling (start d db clock) :=
  ⟨rfl,WorkerPool.inv_spawn _,by simp [WorkerPool.Tasks,start,WorkerPool.spawn],rfl⟩

def Offered (s : System) : Prop :=
  ∀ now net rest, s.sched = .offering now net rest →
    s.pool.enqueue = .inserted net ∨ ∃ outcome, s.pool.enqueue = .rejected net outcome

theorem poolEvent_quiet {p : WorkerPool Runner} {m : PoolMove} {e : PoolEvent Runner}
    (h : poolEvent p m = some e) : WorkerPool.Quiet e := by
  cases m with
  | finish i =>
    simp only [poolEvent] at h
    split at h
    · obtain rfl := Option.some.inj h
      trivial
    · simp at h
  | _ =>
    obtain rfl := Option.some.inj h
    trivial

theorem sched_move {e : Event} {op : Option StoreOp} (hm : move d s e = some (t,op)) (he : e ≠ .sched) :
    (t.sched = s.sched ∨ s.sched = .idle ∧ ∀ now net rest, t.sched ≠ .offering now net rest) ∧
    t.pool.enqueue = s.pool.enqueue := by
  cases moves_of_move hm with
  | sched h => exact absurd rfl he
  | pool hpe hp => exact ⟨Or.inl rfl,WorkerPool.enqueue_of_quiet hp (poolEvent_quiet hpe)⟩
  | work _ _ hp => exact ⟨Or.inl rfl,WorkerPool.enqueue_of_quiet hp trivial⟩
  | seed _ hidle => exact ⟨Or.inr ⟨hidle,by simp⟩,rfl⟩
  | prune hidle => exact ⟨Or.inr ⟨hidle,by simp⟩,rfl⟩
  | tick hidle => exact ⟨Or.inr ⟨hidle,by simp⟩,rfl⟩
  | _ => exact ⟨Or.inl rfl,rfl⟩

theorem offered_schedMove {op : Option StoreOp} (h : Offered s) (hm : SchedMoves d s t op) : Offered t := by
  cases hm with
  | insert _ _ he =>
    intro now net rest hs
    obtain ⟨_,rfl,_⟩ := Sched.offering.inj hs
    exact Or.inl he
  | @reject now net net' rest p hs he hp hne =>
    have hnet : net' = net := by
      rcases h now net rest hs with h | ⟨o,h⟩
      · exact Enqueue.inserted.inj (he.symm.trans h)
      · simp [he] at h
    intro now'' net'' rest'' hs'
    obtain ⟨_,rfl,_⟩ := Sched.offering.inj (hs.symm.trans hs')
    rcases WorkerPool.send_enqueue hp he with hidle | ⟨o,hrej⟩
    · exact absurd hidle hne
    · exact Or.inr ⟨o,hnet ▸ hrej⟩
  | _ => simp [Offered]

theorem offered_move {e : Event} {op : Option StoreOp} (h : Offered s) (hm : move d s e = some (t,op)) :
    Offered t := by
  by_cases he : e = .sched
  · subst he
    exact offered_schedMove h (schedMoves_of_schedMove hm)
  · obtain ⟨hs | ⟨_,hne⟩,hq⟩ := sched_move hm he
    · intro now net rest hnet
      rw [hq]
      exact h now net rest (hs ▸ hnet)
    · intro now net rest hnet
      exact absurd hnet (hne now net rest)

def crawl (d : Node) (s : System) (e : Event) : Option System :=
  if Event.isHttp e then none else step d s e

theorem crawl_move {e : Event} (hs : crawl d s e = some t) :
    Event.isHttp e = false ∧ step d s e = some t ∧
    ∃ u op, move d s e = some (u,op) ∧ t = { u with db := transact d.codec s.db op } := by
  unfold crawl at hs
  split at hs
  · simp at hs
  · next he =>
    obtain ⟨⟨u,op⟩,hm,rfl⟩ := Option.map_eq_some_iff.mp hs
    exact ⟨by simpa using he,hs,u,op,hm,rfl⟩

def HeldPast (u : Int64) : Held → Prop
  | .tick now => now ≤ u
  | .op (.recordAttempt _ now) => now ≤ u
  | _ => True

theorem HeldPast.mono {u v : Int64} {x : Held} (huv : u ≤ v) (h : HeldPast u x) : HeldPast v x := by
  cases x with
  | tick now => exact Int64.le_trans h huv
  | op op =>
    cases op with
    | recordAttempt addr now => exact Int64.le_trans h huv
    | _ => trivial
  | _ => trivial

theorem custody_past : Custody d t₀ (fun _ _ _ => True) HeldPast where
  record_mono _ _ _ _ _ h := h
  held_mono _ _ _ huv h := h.mono huv
  fresh s x h hx := by
    cases hx with
    | run _ _ _ hrun =>
      cases hrun with
      | failed _ => exact Int64.le_refl s.clock
      | _ => trivial
    | tick => exact Int64.le_refl s.clock
    | @due now _ htick _ => exact h.held (.tick now) htick
    | _ => trivial
  apply _ _ _ _ _ _ _ _ := trivial

structure Sound (c : Codec) (db : Db) : Prop where
  keyed : Keyed c db
  canonical : ∀ addr rec, view c db addr = some rec → addr.Canonical

theorem sound_of_produced {c : Codec} {routable : IpAddr → Bool} {db : Db} {u : Int64} (h₀ : 0 ≤ t₀)
    (h : Produced c routable t₀ db u) : Sound c db :=
  ⟨(produced_wellKept h₀ h).keyed,(produced_wellKept h₀ h).canonical⟩

structure Grounded (d : Node) (t₀ : Int64) (s : System) : Prop where
  canonical : Kept d t₀ (fun _ addr _ => addr.Canonical) (fun _ x => HeldAdmits NetAddress.Canonical x) s
  past : Kept d t₀ (fun _ _ _ => True) HeldPast s
  crawling : Crawling s
  offered : Offered s

theorem grounded_step {e : Event} (h : Grounded d t₀ s) (hs : crawl d s e = some t) :
    Grounded d t₀ t := by
  obtain ⟨he,hs,u,op,hm,rfl⟩ := crawl_move hs
  have hcrawl := crawling_move h.crawling hm he
  have hoffered : Offered u := offered_move h.offered hm
  exact ⟨kept_step (custody_admits admits_canonical) h.canonical hs,kept_step custody_past h.past hs,
    ⟨hcrawl.open_,hcrawl.pool,hcrawl.tasks,hcrawl.posts⟩,hoffered⟩

theorem grounded_start {db : Db} (h : Sound d.codec db) (clock : Int64) :
    Grounded d clock (start d (openStore d.codec (.compatible db)) clock) := by
  refine ⟨kept_start (exact_open _) (keyed_open h.keyed) (Int64.le_refl clock) ?_,
    kept_start (exact_open _) (keyed_open h.keyed) (Int64.le_refl clock) (fun _ _ _ => trivial),
    crawling_start _ _,by simp [Offered,start]⟩
  intro addr rec hv
  rw [view_open] at hv
  exact h.canonical addr rec hv

end System

end DnsSeeder
