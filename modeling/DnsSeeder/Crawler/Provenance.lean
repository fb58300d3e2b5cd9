import DnsSeeder.Crawler.History

namespace DnsSeeder

open Lib PeerStore

structure Handshake where
  addr : SocketAddr
  result : ProbeResult
  time : Int64

inductive Trace where
  | handshake (h : Handshake)
  | read (addr : NetAddress) (existing : Option PeerRecord) (time : Int64)
  | commit (op : StoreOp) (time : Int64)

structure Traced where
  system : System
  log : List Trace

def Runner.traceOf (c : Codec) (addr : SocketAddr) (db : Db) (clock : Int64) : Runner → RunnerEvent → List Trace
  | .probing,.probed (some result) => [.handshake ⟨addr,result,clock⟩]
  | .reading _,.proceed =>
      match get c (netFrom addr) db with
      | .ok existing => [.read (netFrom addr) existing clock]
      | .error _ => []
  | _,_ => []

namespace System

def traceOf (d : Node) (s : System) : Event → List Trace
  | .work i e =>
      match s.pool.workers[i]? with
      | some ⟨addr,.running r⟩ => r.traceOf d.codec addr s.db s.clock e
      | _ => []
  | .post j e =>
      match s.posts[j]? with
      | some post => post.runner.traceOf d.codec post.addr s.db s.clock e
      | none => []
  | _ => []

def traced (d : Node) (s : Traced) (e : Event) : Option Traced :=
  (move d s.system e).map (fun r =>
    ⟨{ r.1 with db := transact d.codec s.system.db r.2 },
      s.log ++ traceOf d s.system e ++ r.2.toList.map (fun op => .commit op s.system.clock)⟩)

end System

def PeerRecord.Unanswered (rec : PeerRecord) : Prop :=
  rec.lastSuccessMs = 0 ∧ rec.id = unknownPeerId ∧ rec.protocolVersion = 0 ∧
    rec.userAgent = Format.Text.empty ∧ rec.subnetworkId = none ∧ rec.timestampMs = 0

structure Stub (log : List Trace) (addr : NetAddress) (rec : PeerRecord) : Prop where
  unanswered : rec.Unanswered
  created : ∃ op time, .commit op time ∈ log ∧ (op = .recordAttempt addr rec.firstSeenMs ∨
    ∃ addrs, addr ∈ addrs ∧ op = .insertOrRefreshSeenBatch addrs rec.firstSeenMs)

structure Draft where
  handshake : Handshake
  existing : Option PeerRecord
  readAt : Int64
  stamp : Int64

def Draft.record (k : Draft) : PeerRecord :=
  peerRecordFromVersion k.handshake.addr k.handshake.result.version k.stamp k.existing

structure Drafted (log : List Trace) (addr : NetAddress) (k : Draft) : Prop where
  peer : netFrom k.handshake.addr = addr
  answered : .handshake k.handshake ∈ log
  read : .read addr k.existing k.readAt ∈ log
  read_after : k.handshake.time ≤ k.readAt
  stamp_after : k.readAt ≤ k.stamp

structure Attested (log : List Trace) (addr : NetAddress) (rec : PeerRecord) (k : Draft) (committed : Int64) :
    Prop extends Drafted log addr k where
  commit : .commit (.upsert k.record) committed ∈ log
  stamp_before : k.stamp ≤ committed
  fields : rec = { k.record with lastAttemptMs := rec.lastAttemptMs, lastSeenMs := rec.lastSeenMs }

def Sourced (log : List Trace) (addr : NetAddress) (rec : PeerRecord) : Prop :=
  Stub log addr rec ∨ ∃ k committed, Attested log addr rec k committed

namespace Runner

def Backed (log : List Trace) (u : Int64) (addr : SocketAddr) : Runner → Prop
  | .reading result => ∃ h, .handshake h ∈ log ∧ h.addr = addr ∧ h.result = result ∧ h.time ≤ u
  | .stamping result existing => ∃ h time, .handshake h ∈ log ∧ h.addr = addr ∧ h.result = result ∧
      .read (netFrom addr) existing time ∈ log ∧ h.time ≤ time ∧ time ≤ u
  | .upserting record _ => ∃ k, Drafted log (netFrom addr) k ∧ record = k.record ∧ k.stamp ≤ u
  | _ => True

end Runner

variable {log log' : List Trace} {addr : NetAddress} {rec : PeerRecord} {k : Draft} {committed : Int64}

theorem Drafted.mono (hs : ∀ x ∈ log, x ∈ log') (h : Drafted log addr k) : Drafted log' addr k :=
  { h with answered := hs _ h.answered, read := hs _ h.read }

theorem Attested.mono (hs : ∀ x ∈ log, x ∈ log') (h : Attested log addr rec k committed) :
    Attested log' addr rec k committed :=
  { h with toDrafted := h.toDrafted.mono hs, commit := hs _ h.commit }

theorem Attested.restamp (h : Attested log addr rec k committed) (attempt seen : Int64) :
    Attested log addr { rec with lastAttemptMs := attempt, lastSeenMs := seen } k committed := by
  refine ⟨h.toDrafted,h.commit,h.stamp_before,?_⟩
  conv_lhs => rw [h.fields]

theorem Attested.stamp_eq (h : Attested log addr rec k committed) : rec.lastSuccessMs = k.stamp := by
  rw [h.fields]
  rfl

theorem Sourced.mono (hs : ∀ x ∈ log, x ∈ log') (h : Sourced log addr rec) : Sourced log' addr rec := by
  rcases h with ⟨hun,op,time,hop,hcreated⟩ | ⟨k,committed,ha⟩
  · exact Or.inl ⟨hun,op,time,hs _ hop,hcreated⟩
  · exact Or.inr ⟨k,committed,ha.mono hs⟩

theorem Sourced.restamp (h : Sourced log addr rec) (attempt seen : Int64) :
    Sourced log addr { rec with lastAttemptMs := attempt, lastSeenMs := seen } := by
  rcases h with ⟨hun,hcreated⟩ | ⟨k,committed,ha⟩
  · exact Or.inl ⟨hun,hcreated⟩
  · exact Or.inr ⟨k,committed,ha.restamp attempt seen⟩

theorem sourced_attempted {now time : Int64} {old : Option PeerRecord}
    (hop : .commit (.recordAttempt addr now) time ∈ log) (h : ∀ rec, old = some rec → Sourced log addr rec) :
    Sourced log addr (attempted addr now old) := by
  cases old with
  | none => exact Or.inl ⟨⟨rfl,rfl,rfl,rfl,rfl,rfl⟩,_,time,hop,Or.inl rfl⟩
  | some rec => exact (h rec rfl).restamp now rec.lastSeenMs

theorem sourced_seen {now time : Int64} {addrs : List NetAddress} {old : Option PeerRecord}
    (hop : .commit (.insertOrRefreshSeenBatch addrs now) time ∈ log) (ha : addr ∈ addrs)
    (h : ∀ rec, old = some rec → Sourced log addr rec) : Sourced log addr (seenRecord addr now old) := by
  cases old with
  | none => exact Or.inl ⟨⟨rfl,rfl,rfl,rfl,rfl,rfl⟩,_,time,hop,Or.inr ⟨addrs,ha,rfl⟩⟩
  | some rec => exact (h rec rfl).restamp rec.lastAttemptMs now

def Signed (log : List Trace) (op : StoreOp) (u : Int64) : Prop :=
  ∀ record, op = .upsert record → ∃ k, Drafted log record.address k ∧ record = k.record ∧ k.stamp ≤ u

theorem sourced_apply {op : StoreOp} {m : PeerMap} {time : Int64}
    (hm : ∀ addr rec, m addr = some rec → Sourced log addr rec) (hop : .commit op time ∈ log)
    (hsigned : Signed log op time) (hr : apply op m addr = some rec) : Sourced log addr rec := by
  cases leaves_of_apply hr with
  | upserted ha =>
    obtain ⟨k,hk,rfl,hstamp⟩ := hsigned rec rfl
    exact Or.inr ⟨k,time,ha ▸ hk,hop,hstamp,rfl⟩
  | attempted now => exact sourced_attempted hop (hm addr)
  | seen now ha => exact sourced_seen hop ha (hm addr)
  | kept hkept _ => exact hm addr rec hkept

namespace Runner

theorem Backed.mono {u u' : Int64} {addr : SocketAddr} {r : Runner} (hs : ∀ x ∈ log, x ∈ log') (hu : u ≤ u')
    (h : r.Backed log u addr) : r.Backed log' u' addr := by
  cases r with
  | reading result =>
    obtain ⟨x,hx,ha,hr,ht⟩ := h
    exact ⟨x,hs _ hx,ha,hr,Int64.le_trans ht hu⟩
  | stamping result existing =>
    obtain ⟨x,time,hx,ha,hr,hread,hafter,ht⟩ := h
    exact ⟨x,time,hs _ hx,ha,hr,hs _ hread,hafter,Int64.le_trans ht hu⟩
  | upserting record addresses =>
    obtain ⟨k,hk,hrec,ht⟩ := h
    exact ⟨k,hk.mono hs,hrec,Int64.le_trans ht hu⟩
  | _ => trivial

theorem backed_afterApply (caller : Caller) (addresses : List (IpAddr × UInt16)) (u : Int64)
    (addr : SocketAddr) : (afterApply caller addresses).Backed log u addr := by
  cases caller <;> trivial

theorem backed_afterFailure (caller : Caller) (u : Int64) (addr : SocketAddr) :
    (afterFailure caller).Backed log u addr := by
  cases caller <;> trivial

theorem step_backed {d : Node} {caller : Caller} {addr : SocketAddr} {db : Db} {u : Int64} {r r' : Runner}
    {e : RunnerEvent} {op : Option StoreOp} (h : r.Backed log u addr)
    (hs : r.step d caller addr db u e = some (r',op)) :
    r'.Backed (log ++ r.traceOf d.codec addr db u e) u addr ∧ ∀ o, op = some o → Signed log o u := by
  unfold step at hs
  split at hs
  · obtain ⟨rfl,rfl⟩ := Prod.mk.inj (Option.some.inj hs)
    exact ⟨⟨_,List.mem_append_right _ List.mem_cons_self,rfl,rfl,Int64.le_refl u⟩,by simp⟩
  · obtain ⟨rfl,rfl⟩ := Prod.mk.inj (Option.some.inj hs)
    exact ⟨backed_afterFailure _ _ _,by simp⟩
  · split at hs
    · next result existing hget =>
      obtain ⟨rfl,rfl⟩ := Prod.mk.inj (Option.some.inj hs)
      obtain ⟨x,hx,ha,hr,ht⟩ := h
      refine ⟨⟨x,u,List.mem_append_left _ hx,ha,hr,List.mem_append_right _ ?_,ht,Int64.le_refl u⟩,by simp⟩
      simp [traceOf,hget]
    · obtain ⟨rfl,rfl⟩ := Prod.mk.inj (Option.some.inj hs)
      exact ⟨backed_afterApply _ _ _ _,by simp⟩
  · next result existing =>
    obtain ⟨rfl,rfl⟩ := Prod.mk.inj (Option.some.inj hs)
    obtain ⟨x,time,hx,rfl,rfl,hread,hafter,ht⟩ := h
    exact ⟨⟨⟨x,existing,time,u⟩,⟨rfl,List.mem_append_left _ hx,List.mem_append_left _ hread,hafter,ht⟩,rfl,
      Int64.le_refl u⟩,by simp⟩
  · next record addresses =>
    obtain ⟨rfl,rfl⟩ := Prod.mk.inj (Option.some.inj hs)
    refine ⟨backed_afterApply _ _ _ _,?_⟩
    rintro o ho record' rfl
    obtain rfl : record = record' := by simpa using ho
    obtain ⟨k,hk,rfl,ht⟩ := h
    have haddr : k.record.address = netFrom addr := hk.peer
    exact ⟨k,haddr ▸ hk,rfl,ht⟩
  · obtain ⟨rfl,rfl⟩ := Prod.mk.inj (Option.some.inj hs)
    exact ⟨trivial,by simp⟩
  · obtain ⟨rfl,rfl⟩ := Prod.mk.inj (Option.some.inj hs)
    refine ⟨trivial,?_⟩
    rintro o ho record rfl
    cases ho
  · split at hs
    · obtain ⟨rfl,rfl⟩ := Prod.mk.inj (Option.some.inj hs)
      exact ⟨trivial,by simp⟩
    · cases hs
  · obtain ⟨rfl,rfl⟩ := Prod.mk.inj (Option.some.inj hs)
    refine ⟨trivial,?_⟩
    rintro o ho record rfl
    cases ho
  · cases hs

end Runner

namespace System

structure Staffed (s : Traced) : Prop where
  tasks : s.system.pool.Tasks (fun addr r => r.Backed s.log s.system.clock addr)
  posts : ∀ post ∈ s.system.posts, post.runner.Backed s.log s.system.clock post.addr

structure Accredited (d : Node) (s : Traced) : Prop extends Staffed s where
  exact : Exact d.codec s.system.db
  keyed : Keyed d.codec s.system.db
  records : ∀ addr rec, view d.codec s.system.db addr = some rec → Sourced s.log addr rec

variable {d : Node} {s t : Traced}

theorem schedMoves_frame {s t : System} {op : Option StoreOp} (h : SchedMoves d s t op) :
    t.clock = s.clock ∧ t.posts = s.posts ∧ (∀ record, op ≠ some (.upsert record)) ∧
    (t.pool = s.pool ∨ ∃ e, s.pool.step e = some t.pool ∧ ∀ i r, e ≠ .start i r ∧ e ≠ .work i r) := by
  cases h with
  | insert _ hp _ => exact ⟨rfl,rfl,by simp,Or.inr ⟨_,hp,by simp⟩⟩
  | duplicate _ hp => exact ⟨rfl,rfl,by simp,Or.inr ⟨_,hp,by simp⟩⟩
  | accept _ _ hp => exact ⟨rfl,rfl,by simp,Or.inr ⟨_,hp,by simp⟩⟩
  | reject _ _ hp _ => exact ⟨rfl,rfl,by simp,Or.inr ⟨_,hp,by simp⟩⟩
  | rollback hp => exact ⟨rfl,rfl,by simp,Or.inr ⟨_,hp,by simp⟩⟩
  | _ => exact ⟨rfl,rfl,by simp,Or.inl rfl⟩

structure Prepared (s : Traced) (u : System) (log : List Trace) (op : Option StoreOp) : Prop where
  tasks : u.pool.Tasks (fun addr r => r.Backed (s.log ++ log) u.clock addr)
  posts : ∀ post ∈ u.posts, post.runner.Backed (s.log ++ log) u.clock post.addr
  op : ∀ o, op = some o → Signed s.log o s.system.clock

theorem Prepared.staffed {u : System} {log : List Trace} {op : Option StoreOp} (hp : Prepared s u log op)
    (db : Db) (later : List Trace) : Staffed ⟨{ u with db := db },s.log ++ log ++ later⟩ :=
  ⟨fun a q hq => (hp.tasks a q hq).mono (fun _ => List.mem_append_left _) (Int64.le_refl _),
    fun post hm => (hp.posts post hm).mono (fun _ => List.mem_append_left _) (Int64.le_refl _)⟩

theorem prepared_work {i : Nat} {e : RunnerEvent} {addr : SocketAddr} {r r' : Runner} {p : WorkerPool Runner}
    {op : Option StoreOp} (h : Staffed s) (hi : s.system.pool.workers[i]? = some ⟨addr,.running r⟩)
    (hr : r.step d .worker addr s.system.db s.system.clock e = some (r',op))
    (hp : s.system.pool.step (.work i r') = some p) :
    Prepared s { s.system with pool := p } (traceOf d s.system (.work i e)) op := by
  have hgrow : ∀ x ∈ s.log, x ∈ s.log ++ traceOf d s.system (.work i e) := fun _ => List.mem_append_left _
  obtain ⟨hback,hop⟩ := Runner.step_backed (h.tasks addr r (List.mem_of_getElem? hi)) hr
  refine ⟨?_,fun post hm => (h.posts post hm).mono hgrow (Int64.le_refl _),hop⟩
  refine WorkerPool.tasks_step (fun a q hq => (h.tasks a q hq).mono hgrow (Int64.le_refl _)) hp ?_
  rintro j a phase q hj (hq | hq)
  · cases hq
  · obtain ⟨rfl,rfl⟩ := PoolEvent.work.inj hq
    obtain ⟨rfl,_⟩ := Worker.mk.inj (Option.some.inj (hi.symm.trans hj))
    simpa only [traceOf,hi] using hback

theorem prepared_post {j : Nat} {e : RunnerEvent} {post : Post} {r : Runner} {op : Option StoreOp}
    (h : Staffed s) (hj : s.system.posts[j]? = some post)
    (hr : post.runner.step d .submission post.addr s.system.db s.system.clock e = some (r,op)) :
    Prepared s { s.system with posts := s.system.posts.set j ⟨post.addr,r⟩ } (traceOf d s.system (.post j e))
      op := by
  have hgrow : ∀ x ∈ s.log, x ∈ s.log ++ traceOf d s.system (.post j e) := fun _ => List.mem_append_left _
  obtain ⟨hback,hop⟩ := Runner.step_backed (h.posts post (List.mem_of_getElem? hj)) hr
  refine ⟨fun a q hq => (h.tasks a q hq).mono hgrow (Int64.le_refl _),?_,hop⟩
  intro post' hm
  rcases List.mem_or_eq_of_mem_set hm with hm | rfl
  · exact (h.posts post' hm).mono hgrow (Int64.le_refl _)
  · simpa only [traceOf,hj] using hback

theorem prepared_quiet {u : System} {op : Option StoreOp} (h : Staffed s) (hu : s.system.clock ≤ u.clock)
    (htasks : u.pool.Tasks (fun addr r => r.Backed s.log s.system.clock addr))
    (hposts : ∀ post ∈ u.posts, post ∈ s.system.posts ∨ post.runner = .probing)
    (hop : ∀ record, op ≠ some (.upsert record)) : Prepared s u [] op := by
  have hgrow : ∀ x ∈ s.log, x ∈ s.log ++ [] := fun _ => List.mem_append_left _
  refine ⟨fun a q hq => (htasks a q hq).mono hgrow hu,?_,?_⟩
  · intro post hm
    rcases hposts post hm with hm | hm
    · exact (h.posts post hm).mono hgrow hu
    · rw [hm]
      trivial
  · rintro o ho record rfl
    exact absurd ho (hop record)

theorem prepared_move {u : System} {e : Event} {op : Option StoreOp} (h : Staffed s)
    (hm : Moves d s.system e u op) : Prepared s u (traceOf d s.system e) op := by
  cases hm with
  | work hi hr hp => exact prepared_work h hi hr hp
  | post hj hr => exact prepared_post h hj hr
  | advance hle => exact prepared_quiet h hle h.tasks (fun post hp => Or.inl hp) (by simp)
  | seed _ _ => exact prepared_quiet h (Int64.le_refl _) h.tasks (fun post hp => Or.inl hp) (by simp)
  | prune _ => exact prepared_quiet h (Int64.le_refl _) h.tasks (fun post hp => Or.inl hp) (by simp)
  | tick _ => exact prepared_quiet h (Int64.le_refl _) h.tasks (fun post hp => Or.inl hp) (by simp)
  | delete _ => exact prepared_quiet h (Int64.le_refl _) h.tasks (fun post hp => Or.inl hp) (by simp)
  | disconnect =>
    exact prepared_quiet h (Int64.le_refl _) h.tasks
      (fun post hp => Or.inl (List.mem_of_mem_eraseIdx hp)) (by simp)
  | submit ha =>
    refine prepared_quiet h (Int64.le_refl _) h.tasks (fun post hp => ?_) (by simp)
    rcases List.mem_append.mp hp with hp | hp
    · exact Or.inl hp
    · exact Or.inr (by rw [List.mem_singleton.mp hp])
  | pool he hp =>
    refine prepared_quiet h (Int64.le_refl _) ?_ (fun post hp => Or.inl hp) (by simp)
    refine WorkerPool.tasks_step h.tasks hp ?_
    intro i a phase r _ her
    rw [(poolEvent_cases he).2.2 i r her]
    trivial
  | sched hs =>
    obtain ⟨hclock,hposts,hop,hpool⟩ := schedMoves_frame hs
    refine prepared_quiet h (hclock ▸ Int64.le_refl _) ?_ (fun post hp => Or.inl (hposts ▸ hp)) hop
    rcases hpool with hpool | ⟨pe,hpool,hquiet⟩
    · exact hpool ▸ h.tasks
    · refine WorkerPool.tasks_step h.tasks hpool ?_
      rintro i a phase r _ (he | he)
      · exact absurd he (hquiet i r).1
      · exact absurd he (hquiet i r).2

theorem accredited_step {e : Event} (h : Accredited d s) (hs : traced d s e = some t) : Accredited d t := by
  obtain ⟨⟨u,op⟩,hm,rfl⟩ := Option.map_eq_some_iff.mp hs
  have hp := prepared_move h.toStaffed (moves_of_move hm)
  generalize hlog : s.log ++ traceOf d s.system e ++ op.toList.map (fun o => .commit o s.system.clock) = log
  have hgrow : ∀ x ∈ s.log ++ traceOf d s.system e, x ∈ log := by
    rintro x hx
    rw [← hlog]
    exact List.mem_append_left _ hx
  have hstaffed : Staffed ⟨{ u with db := transact d.codec s.system.db op },log⟩ := hlog ▸ hp.staffed _ _
  have hrecords : ∀ addr rec, view d.codec s.system.db addr = some rec → Sourced log addr rec :=
    fun addr rec hr => (h.records addr rec hr).mono (fun x hx => hgrow x (List.mem_append_left _ hx))
  change Accredited d ⟨{ u with db := transact d.codec s.system.db op },log⟩
  cases op with
  | none => exact ⟨hstaffed,h.exact,h.keyed,hrecords⟩
  | some op =>
    refine ⟨hstaffed,exact_exec h.exact op,keyed_exec h.exact h.keyed op,?_⟩
    intro addr rec hr
    change view d.codec (exec d.codec s.system.db op) addr = some rec at hr
    rw [view_exec h.exact] at hr
    have hcommit : .commit op s.system.clock ∈ log := by simp [← hlog]
    refine sourced_apply hrecords hcommit ?_ hr
    intro record hrec
    obtain ⟨k,hk,hkrec,hstamp⟩ := hp.op op rfl record hrec
    exact ⟨k,hk.mono (fun x hx => hgrow x (List.mem_append_left _ hx)),hkrec,hstamp⟩

inductive Recorded (c : Codec) (routable : IpAddr → Bool) : Db → Int64 → List Trace → Prop
  | empty (clock : Int64) : Recorded c routable .empty clock []
  | run {db : Db} {u u' : Int64} {log : List Trace} {s : Traced} (config : SchedulerConfig)
      (es : List Event) (h : Recorded c routable db u log) (hu : u ≤ u')
      (hr : Lib.run (traced ⟨c,routable,config⟩)
        ⟨start ⟨c,routable,config⟩ (openStore c (.compatible db)) u',log⟩ es = some s) :
      Recorded c routable s.system.db s.system.clock s.log

theorem staffed_start (db : Db) (u : Int64) (log : List Trace) : Staffed ⟨start d db u,log⟩ where
  tasks := by simp [start,WorkerPool.Tasks,WorkerPool.spawn]
  posts := by simp [start]

theorem accredited_start {db : Db} {u : Int64} {log : List Trace} (hk : Keyed d.codec db)
    (hrec : ∀ addr rec, view d.codec db addr = some rec → Sourced log addr rec) :
    Accredited d ⟨start d (openStore d.codec (.compatible db)) u,log⟩ where
  exact := exact_open _
  keyed := keyed_open hk
  toStaffed := staffed_start _ _ _
  records addr rec hr := hrec addr rec (by rwa [← view_open])

variable {c : Codec} {routable : IpAddr → Bool} {db : Db} {u : Int64}

theorem recorded_sourced (h : Recorded c routable db u log) :
    Keyed c db ∧ ∀ addr rec, view c db addr = some rec → Sourced log addr rec := by
  induction h with
  | empty clock => exact ⟨keyed_empty,fun addr rec hv => by simp [view_empty] at hv⟩
  | @run db u u' log s config es _ _ hr ih =>
    have hs : Accredited ⟨c,routable,config⟩ s :=
      run_invariant (fun _ _ _ h hs => accredited_step h hs)
        (accredited_start (d := ⟨c,routable,config⟩) ih.1 ih.2) hr
    exact ⟨hs.keyed,hs.records⟩

theorem records_sourced (c : Codec) (routable : IpAddr → Bool) (db : Db) (u : Int64) (log : List Trace)
    (h : Recorded c routable db u log) (addr : NetAddress) (rec : PeerRecord)
    (hr : view c db addr = some rec) :
    rec.address = addr ∧ (Stub log addr rec ∨ ∃ k committed, Attested log addr rec k committed) := by
  obtain ⟨hk,hsourced⟩ := recorded_sourced h
  exact ⟨view_address hk hr,hsourced addr rec hr⟩

def probedOnce : List Event :=
  [.seed [samplePeer],.sched,.submit samplePeer,.post 0 (.probed (some sampleProbe)),.advance 7,
    .post 0 .proceed,.post 0 .proceed,.post 0 .proceed,.tick]

theorem records_sourced_probed : ∃ s rec,
    run (traced sampleNode) ⟨start sampleNode (openStore Bincode.standard (.compatible .empty)) 5,[]⟩
      probedOnce = some s ∧
    view Bincode.standard s.system.db (netFrom samplePeer) = some rec ∧ rec.lastSuccessMs = 7 ∧
    rec.firstSeenMs = 5 ∧ ∃ k committed, Attested s.log (netFrom samplePeer) rec k committed := by
  obtain ⟨s,hs⟩ : ∃ s, run (traced sampleNode)
      ⟨start sampleNode (openStore Bincode.standard (.compatible .empty)) 5,[]⟩ probedOnce = some s := ⟨_,rfl⟩
  have hview : (run (traced sampleNode)
      ⟨start sampleNode (openStore Bincode.standard (.compatible .empty)) 5,[]⟩ probedOnce).bind
      (fun s => view Bincode.standard s.system.db (netFrom samplePeer)) = some (peerRecordFromVersion samplePeer
        sampleProbe.version 7 (some (seenStub (netFrom samplePeer) 5))) := by decide
  rw [hs,Option.bind_some] at hview
  have hrecorded : Recorded Bincode.standard sampleNode.routable s.system.db s.system.clock s.log :=
    .run sampleNode.config probedOnce (.empty 5) (Int64.le_refl 5) hs
  have hsourced := (records_sourced _ _ _ _ _ hrecorded _ _ hview).2
  exact ⟨s,_,hs,hview,rfl,rfl,hsourced.resolve_left (fun hstub => absurd hstub.unanswered.1 (by decide))⟩

end System

end DnsSeeder
