import DnsSeeder.Crawler.History

namespace DnsSeeder

open Lib PeerStore

inductive StampField where
  | lastAttempt
  | lastSeen
  | lastSuccess
deriving DecidableEq

def StampField.all : List StampField := [.lastAttempt,.lastSeen,.lastSuccess]

def PeerRecord.stamp (rec : PeerRecord) : StampField → Int64
  | .lastAttempt => rec.lastAttemptMs
  | .lastSeen => rec.lastSeenMs
  | .lastSuccess => rec.lastSuccessMs

namespace PeerStore.StoreOp

def stamp : StoreOp → NetAddress → StampField → Option Int64
  | .upsert rec,addr,field => if addr = rec.address then some (rec.stamp field) else none
  | .recordAttempt addr' now,addr,.lastAttempt => if addr = addr' then some now else none
  | .insertOrRefreshSeenBatch addrs now,addr,.lastSeen => if addr ∈ addrs then some now else none
  | _,_,_ => none

theorem mem_targets {op : StoreOp} {addr : NetAddress} {field : StampField} {v : Int64}
    (h : op.stamp addr field = some v) : addr ∈ op.targets := by
  unfold stamp at h
  split at h
  · split at h
    · next ha => exact List.mem_singleton.mpr ha
    · cases h
  · split at h
    · next ha => exact List.mem_singleton.mpr ha
    · cases h
  · split at h
    · next ha => exact ha
    · cases h
  · cases h

def follows (op prior : StoreOp) : Bool :=
  op.targets.all (fun addr => StampField.all.all (fun field =>
    match prior.stamp addr field,op.stamp addr field with
    | some u,some v => decide (u ≤ v)
    | _,_ => true))

theorem le_of_follows {op prior : StoreOp} (h : op.follows prior = true) {addr : NetAddress}
    {field : StampField} {u v : Int64} (hu : prior.stamp addr field = some u)
    (hv : op.stamp addr field = some v) : u ≤ v := by
  have haddr := List.all_eq_true.mp h addr (mem_targets hv)
  have hfield := List.all_eq_true.mp haddr field (by cases field <;> simp [StampField.all])
  rw [hu,hv] at hfield
  exact of_decide_eq_true hfield

theorem stamp_eq_none {op : StoreOp} {addr : NetAddress} (ha : addr ∉ op.targets) (field : StampField) :
    op.stamp addr field = none :=
  Option.eq_none_iff_forall_ne_some.mpr (fun _ hv => ha (mem_targets hv))

theorem stamp_apply {op : StoreOp} {m : PeerMap} {addr : NetAddress} {rec : PeerRecord}
    (h : apply op m addr = some rec) (field : StampField) :
    rec.stamp field = (op.stamp addr field).getD ((m addr).elim 0 (PeerRecord.stamp · field)) := by
  cases leaves_of_apply h with
  | upserted ha => simp [stamp,ha]
  | attempted now =>
    cases hm : m addr <;> cases field <;> simp [stamp,PeerRecord.stamp,attempted,attemptStub]
  | seen now ha =>
    cases hm : m addr <;> cases field <;> simp [stamp,ha,PeerRecord.stamp,seenRecord,seenStub]
  | kept hkept ha => simp [stamp_eq_none ha,hkept]

end PeerStore.StoreOp

def Runner.pendingOp (addr : SocketAddr) : Runner → Option StoreOp
  | .upserting record _ => some (.upsert record)
  | .seeding accepted now => some (.insertOrRefreshSeenBatch accepted now)
  | .recording now => some (.recordAttempt (netFrom addr) now)
  | _ => none

def Worker.pendingOp : Worker Runner → Option StoreOp
  | ⟨addr,.running r⟩ => r.pendingOp addr
  | _ => none

def Post.pendingOp (post : Post) : Option StoreOp := post.runner.pendingOp post.addr

def Sched.pendingOp : Sched → Option StoreOp
  | .seeding accepted now => some (.insertOrRefreshSeenBatch accepted now)
  | .pruning cutoff => some (.pruneDead cutoff)
  | .recording now net _ => some (.recordAttempt net now)
  | _ => none

def Held.notBefore (op : StoreOp) : Held → Bool
  | .op later => later.follows op
  | _ => true

theorem Runner.pendingOp_of_step {d : Node} {caller : Caller} {addr : SocketAddr} {db : Db} {clock : Int64}
    {r r' : Runner} {e : RunnerEvent} {op : StoreOp}
    (h : r.step d caller addr db clock e = some (r',some op)) :
    e = .proceed ∧ r.pendingOp addr = some op ∧ r'.held addr = [] := by
  unfold Runner.step at h
  split at h
  · cases h
  · cases h
  · split at h <;> cases h
  · cases h
  · cases h
    exact ⟨rfl,rfl,by cases caller <;> rfl⟩
  · cases h
  · cases h
    exact ⟨rfl,rfl,rfl⟩
  · split at h <;> cases h
  · cases h
    exact ⟨rfl,rfl,rfl⟩
  · cases h

namespace System

variable {d : Node} {s t : System} {u₀ : Int64}

def pendingOp (s : System) : Event → Option StoreOp
  | .sched => s.sched.pendingOp
  | .work i .proceed => s.pool.workers[i]?.bind Worker.pendingOp
  | .post j .proceed => s.posts[j]?.bind Post.pendingOp
  | .delete addr => some (.delete (netFrom addr))
  | _ => none

def inTurn (s : System) (e : Event) : Bool :=
  (s.pendingOp e).all (fun op => (held s).all (Held.notBefore op))

theorem pendingOp_sched {op : StoreOp} (hm : SchedMoves d s t (some op)) :
    s.sched.pendingOp = some op ∧ ∀ x ∈ held t, x ∈ held s := by
  cases hm with
  | seed hs =>
    refine ⟨by rw [hs]; rfl,fun x hx => ?_⟩
    rcases mem_held.mp hx with hx | hx
    · cases hx
    · exact mem_held.mpr (Or.inr hx)
  | prune hs =>
    refine ⟨by rw [hs]; rfl,fun x hx => ?_⟩
    rcases mem_held.mp hx with hx | hx
    · cases hx
    · exact mem_held.mpr (Or.inr hx)
  | record hs =>
    refine ⟨by rw [hs]; rfl,fun x hx => ?_⟩
    rcases mem_held.mp hx with hx | hx
    · exact mem_held.mpr (Or.inl (by rw [hs]; exact List.mem_cons_of_mem _ hx))
    · exact mem_held.mpr (Or.inr hx)

theorem pendingOp_of_move {e : Event} {op : StoreOp} (hm : move d s e = some (t,some op)) :
    s.pendingOp e = some op ∧ ∀ x ∈ held t, x ∈ held s := by
  cases moves_of_move hm with
  | sched h => exact pendingOp_sched h
  | @work i _ addr r r' p _ hi hr hp =>
    obtain ⟨rfl,hop,hnone⟩ := Runner.pendingOp_of_step hr
    refine ⟨by simp [pendingOp,hi,Worker.pendingOp,hop],fun x hx => ?_⟩
    rcases mem_held.mp hx with hx | hx | hx
    · exact mem_held.mpr (Or.inl hx)
    · rcases heldItems_step hp hx with hx | ⟨_,he,_⟩ | ⟨j,addr',phase,r'',hj,he | he,hx⟩
      · exact mem_held.mpr (Or.inr (Or.inl hx))
      · cases he
      · cases he
      · obtain ⟨rfl,rfl⟩ := PoolEvent.work.inj he
        obtain ⟨rfl,_⟩ := Worker.mk.inj (Option.some.inj (hi.symm.trans hj))
        rw [hnone] at hx
        cases hx
    · exact mem_held.mpr (Or.inr (Or.inr hx))
  | @post j _ post r _ hj hr =>
    obtain ⟨rfl,hop,hnone⟩ := Runner.pendingOp_of_step hr
    refine ⟨by simp [pendingOp,hj,Post.pendingOp,hop],fun x hx => ?_⟩
    rcases mem_held.mp hx with hx | hx | ⟨post',hp,hx⟩
    · exact mem_held.mpr (Or.inl hx)
    · exact mem_held.mpr (Or.inr (Or.inl hx))
    · rcases List.mem_or_eq_of_mem_set hp with hp | rfl
      · exact mem_held.mpr (Or.inr (Or.inr ⟨post',hp,hx⟩))
      · rw [Post.held,hnone] at hx
        obtain rfl := List.mem_singleton.mp hx
        exact mem_held.mpr (Or.inr (Or.inr ⟨post,List.mem_of_getElem? hj,by simp [Post.held]⟩))
  | delete addr => exact ⟨rfl,fun x hx => hx⟩

def OpWithin (u₀ u : Int64) (op : StoreOp) : Prop :=
  ∀ addr field v, op.stamp addr field = some v → u₀ ≤ v ∧ v ≤ u

def HeldWithin (u₀ u : Int64) : Held → Prop
  | .tick now => u₀ ≤ now ∧ now ≤ u
  | .op op => OpWithin u₀ u op
  | _ => True

def NotAhead (u : Int64) (rec : PeerRecord) : Prop := ∀ field, rec.stamp field ≤ 0 ∨ rec.stamp field ≤ u

theorem opWithin_recordAttempt {addr : NetAddress} {now u : Int64} (h : u₀ ≤ now ∧ now ≤ u) :
    OpWithin u₀ u (.recordAttempt addr now) := by
  intro addr' field v hv
  cases field with
  | lastAttempt =>
    simp only [StoreOp.stamp,Option.ite_none_right_eq_some,Option.some.injEq] at hv
    exact hv.2 ▸ h
  | _ => cases hv

theorem opWithin_batch {addrs : List NetAddress} {now u : Int64} (h : u₀ ≤ now ∧ now ≤ u) :
    OpWithin u₀ u (.insertOrRefreshSeenBatch addrs now) := by
  intro addr' field v hv
  cases field with
  | lastSeen =>
    simp only [StoreOp.stamp,Option.ite_none_right_eq_some,Option.some.injEq] at hv
    exact hv.2 ▸ h
  | _ => cases hv

theorem opWithin_version {addr : SocketAddr} {version : VersionMessage} {now u : Int64}
    {existing : Option PeerRecord} (h : u₀ ≤ now ∧ now ≤ u) :
    OpWithin u₀ u (.upsert (peerRecordFromVersion addr version now existing)) := by
  intro addr' field v hv
  simp only [StoreOp.stamp,Option.ite_none_right_eq_some,Option.some.injEq] at hv
  rw [← hv.2]
  cases field <;> exact h

theorem opWithin_prune {cutoff u : Int64} : OpWithin u₀ u (.pruneDead cutoff) := by
  intro _ field _ hv
  cases field <;> cases hv

theorem heldWithin_mono {u u' : Int64} (hu : u ≤ u') {x : Held} (h : HeldWithin u₀ u x) :
    HeldWithin u₀ u' x := by
  cases x with
  | tick now => exact ⟨h.1,Int64.le_trans h.2 hu⟩
  | op op =>
    intro addr field v hv
    obtain ⟨hlow,hhigh⟩ := h addr field v hv
    exact ⟨hlow,Int64.le_trans hhigh hu⟩
  | target addr => trivial
  | existing addr existing => trivial

theorem custody_within : Custody d u₀ (fun u _ rec => NotAhead u rec) (HeldWithin u₀) where
  record_mono _ _ _ _ hu h field := (h field).imp id (fun h => Int64.le_trans h hu)
  held_mono _ _ _ hu h := heldWithin_mono hu h
  fresh s x h hx := by
    have hnow : u₀ ≤ s.clock ∧ s.clock ≤ s.clock := ⟨h.clock,Int64.le_refl _⟩
    cases hx with
    | run _ _ _ hrun =>
      cases hrun with
      | read _ => trivial
      | stamp version _ => exact opWithin_version hnow
      | discovered addresses => exact opWithin_batch hnow
      | failed _ => exact opWithin_recordAttempt hnow
    | bootstrap addrs => exact opWithin_batch hnow
    | prune => exact opWithin_prune
    | tick => exact hnow
    | @due now _ htick _ => exact opWithin_recordAttempt (h.held (.tick now) htick)
    | submit _ => trivial
    | offer _ => trivial
  apply u op m hm hop addr rec hr field := by
    rw [StoreOp.stamp_apply hr field]
    cases hstamp : op.stamp addr field with
    | some v => exact Or.inr (hop addr field v hstamp).2
    | none =>
      cases hold : m addr with
      | some old => exact hm addr old hold field
      | none => exact Or.inl (Int64.le_refl 0)

def Ahead (d : Node) (s : System) (op : StoreOp) : Prop :=
  ∀ addr field v rec, op.stamp addr field = some v → view d.codec s.db addr = some rec → rec.stamp field ≤ v

structure Stamped (d : Node) (u₀ : Int64) (s : System) : Prop where
  kept : Kept d u₀ (fun u _ rec => NotAhead u rec) (HeldWithin u₀) s
  ahead : ∀ op, .op op ∈ held s → Ahead d s op

theorem Stamped.past (h₀ : 0 ≤ u₀) (h : Stamped d u₀ s) {addr : NetAddress} {rec : PeerRecord}
    (hv : view d.codec s.db addr = some rec) (field : StampField) : rec.stamp field ≤ s.clock := by
  rcases h.kept.records addr rec hv field with hrec | hrec
  · exact Int64.le_trans hrec (Int64.le_trans h₀ h.kept.clock)
  · exact hrec

theorem ahead_of_clock (h₀ : 0 ≤ u₀) (h : Stamped d u₀ s) {op : StoreOp}
    (hop : OpWithin s.clock s.clock op) : Ahead d s op :=
  fun addr field v _ hstamp hv => Int64.le_trans (h.past h₀ hv field) (hop addr field v hstamp).1

theorem ahead_due (h : Stamped d u₀ s) {now : Int64} {rec : PeerRecord}
    (hdue : Due d.codec s.db (dueQuery d now) rec) : Ahead d s (.recordAttempt rec.address now) := by
  intro addr field v old hstamp hv
  obtain ⟨⟨key,hrow⟩,heligible⟩ := hdue
  have hkey := h.kept.keyed key rec hrow
  cases field with
  | lastAttempt =>
    simp only [StoreOp.stamp,Option.ite_none_right_eq_some,Option.some.injEq] at hstamp
    obtain ⟨rfl,rfl⟩ := hstamp
    rw [view,← hkey,hrow] at hv
    obtain rfl := Option.some.inj hv
    exact attempt_le_of_eligible (q := dueQuery d now) (durationToMs_nonneg d.config.staleGood)
      (durationToMs_nonneg d.config.staleBad) heligible
  | _ => cases hstamp

theorem ahead_fresh (h₀ : 0 ≤ u₀) (h : Stamped d u₀ s) {op : StoreOp} (hx : Fresh d s (.op op)) :
    Ahead d s op := by
  have hnow : s.clock ≤ s.clock ∧ s.clock ≤ s.clock := ⟨Int64.le_refl _,Int64.le_refl _⟩
  cases hx with
  | run _ _ _ hrun =>
    cases hrun with
    | stamp version _ => exact ahead_of_clock h₀ h (opWithin_version hnow)
    | discovered addresses => exact ahead_of_clock h₀ h (opWithin_batch hnow)
    | failed _ => exact ahead_of_clock h₀ h (opWithin_recordAttempt hnow)
  | bootstrap addrs => exact ahead_of_clock h₀ h (opWithin_batch hnow)
  | prune => exact ahead_of_clock h₀ h opWithin_prune
  | due _ hdue => exact ahead_due h hdue

theorem ahead_commit (h₀ : 0 ≤ u₀) (h : Stamped d u₀ s) {op later : StoreOp} (hlater : .op later ∈ held s)
    (hturn : later.follows op = true) {addr : NetAddress} {field : StampField} {v : Int64} {rec : PeerRecord}
    (hstamp : later.stamp addr field = some v)
    (hv : view d.codec (exec d.codec s.db op) addr = some rec) : rec.stamp field ≤ v := by
  rw [view_exec h.kept.exact] at hv
  rw [StoreOp.stamp_apply hv field]
  cases hop : op.stamp addr field with
  | some u => exact StoreOp.le_of_follows hturn hop hstamp
  | none =>
    cases hold : view d.codec s.db addr with
    | some old => exact h.ahead later hlater addr field v old hstamp hold
    | none => exact Int64.le_trans h₀ (h.kept.held _ hlater addr field v hstamp).1

theorem stamped_step (h₀ : 0 ≤ u₀) {e : Event} (h : Stamped d u₀ s)
    (hs : restrict inTurn (step d) s e = some t) : Stamped d u₀ t := by
  obtain ⟨hturn,hs⟩ := restrict_eq_some.mp hs
  refine ⟨kept_step custody_within h.kept hs,?_⟩
  obtain ⟨⟨u,op⟩,hm,rfl⟩ := Option.map_eq_some_iff.mp hs
  intro later hlater
  cases op with
  | none =>
    -- nothing is committed: what is held now was held before, or is stamped in this step
    rcases (moved_move hm).held _ hlater with hx | hx
    · exact h.ahead later hx
    · exact ahead_fresh h₀ h hx
  | some op =>
    obtain ⟨hpending,hheld⟩ := pendingOp_of_move hm
    rw [inTurn,hpending] at hturn
    have hfollows : later.follows op = true := List.all_eq_true.mp hturn _ (hheld _ hlater)
    exact fun addr field v rec hstamp hv => ahead_commit h₀ h (hheld _ hlater) hfollows hstamp hv

theorem stamped_start {file : DatabaseFile} (hkeyed : Keyed d.codec (openStore d.codec file))
    (hpast : ∀ addr rec field, view d.codec (openStore d.codec file) addr = some rec →
      rec.stamp field ≤ u₀) : Stamped d u₀ (start d (openStore d.codec file) u₀) where
  kept := kept_start (exact_open file) hkeyed (Int64.le_refl u₀)
    (fun addr rec hv field => Or.inr (hpast addr rec field hv))
  ahead := by simp [held,start,Sched.held,WorkerPool.heldItems,WorkerPool.nets,WorkerPool.spawn]

theorem stamps_step {e : Event} (h : Stamped d u₀ s) (hs : step d s e = some t) {addr : NetAddress}
    {rec rec' : PeerRecord} (hv : view d.codec s.db addr = some rec)
    (hv' : view d.codec t.db addr = some rec') (field : StampField) : rec.stamp field ≤ rec'.stamp field := by
  obtain ⟨⟨u,op⟩,hm,rfl⟩ := Option.map_eq_some_iff.mp hs
  cases op with
  | none =>
    rw [Option.some.inj (hv.symm.trans hv')]
    exact Int64.le_refl _
  | some op =>
    change view d.codec (exec d.codec s.db op) addr = some rec' at hv'
    rw [view_exec h.kept.exact] at hv'
    rw [StoreOp.stamp_apply hv' field]
    cases hstamp : op.stamp addr field with
    | none =>
      rw [hv]
      exact Int64.le_refl _
    | some v =>
      rcases (moved_move hm).op op rfl with hop | ⟨_,_,rfl⟩
      · exact h.ahead op hop addr field v rec hstamp hv
      · cases field <;> cases hstamp

theorem timestamps_monotone {file : DatabaseFile} {clock : Int64} {es : List Event} {e : Event}
    (hclock : 0 ≤ clock) (hkeyed : Keyed d.codec (openStore d.codec file))
    (hpast : ∀ addr rec field, view d.codec (openStore d.codec file) addr = some rec →
      rec.stamp field ≤ clock)
    (hr : run (restrict inTurn (step d)) (start d (openStore d.codec file) clock) es = some s)
    (hs : step d s e = some t) :
    ∀ addr rec rec', view d.codec s.db addr = some rec → view d.codec t.db addr = some rec' →
      rec.lastAttemptMs ≤ rec'.lastAttemptMs ∧ rec.lastSeenMs ≤ rec'.lastSeenMs ∧
      rec.lastSuccessMs ≤ rec'.lastSuccessMs := by
  intro addr rec rec' hv hv'
  have hstamped : Stamped d clock s :=
    run_invariant (fun _ _ _ h hs => stamped_step hclock h hs) (stamped_start hkeyed hpast) hr
  exact ⟨stamps_step hstamped hs hv hv' .lastAttempt,stamps_step hstamped hs hv hv' .lastSeen,
    stamps_step hstamped hs hv hv' .lastSuccess⟩

theorem past_of_produced {c : Codec} {routable : IpAddr → Bool} {db : Db} {t₀ u clock : Int64} (h₀ : 0 ≤ t₀)
    (h : Produced c routable t₀ db u) (hu : u ≤ clock) :
    Keyed c (openStore c (.compatible db)) ∧
    ∀ addr rec field, view c (openStore c (.compatible db)) addr = some rec → rec.stamp field ≤ clock := by
  have hkept := produced_wellKept h₀ h
  refine ⟨keyed_open hkept.keyed,?_⟩
  intro addr rec field hv
  rw [view_open] at hv
  have hdated := hkept.dated addr rec hv
  refine Int64.le_trans ?_ hu
  cases field with
  | lastAttempt => exact hdated.attempt.2
  | lastSeen => exact hdated.seen.2
  | lastSuccess => exact hdated.success.2

def dispatched : List Event :=
  [.seed [samplePeer],.sched,.tick,.sched,.sched,.sched,.pool .receive,.pool .spawn,.pool (.start 0),
    .advance 8000005,.work 0 (.probed (some sampleProbe)),.work 0 .proceed,.work 0 .proceed]

def lastAttempt (s : System) : Option Int64 :=
  (view sampleNode.codec s.db (netFrom samplePeer)).map PeerRecord.lastAttemptMs

theorem timestamps_monotone_bumped_first :
    ∃ s t, run (restrict inTurn (step sampleNode))
        (start sampleNode (openStore Bincode.standard (.compatible .empty)) 8000000)
        (dispatched ++ [.sched]) = some s ∧ step sampleNode s (.work 0 .proceed) = some t ∧
      lastAttempt s = some 8000000 ∧ lastAttempt t = some 8000005 ∧
      ∀ addr rec rec', view sampleNode.codec s.db addr = some rec →
        view sampleNode.codec t.db addr = some rec' →
        rec.lastAttemptMs ≤ rec'.lastAttemptMs ∧ rec.lastSeenMs ≤ rec'.lastSeenMs ∧
        rec.lastSuccessMs ≤ rec'.lastSuccessMs := by
  have hempty : Produced sampleNode.codec sampleNode.routable 1 .empty 1 := .empty
  obtain ⟨hkeyed,hpast⟩ := past_of_produced (by decide) hempty (by decide : (1 : Int64) ≤ 8000000)
  obtain ⟨s,t,hr,hs,hbefore,hafter⟩ : ∃ s t, run (restrict inTurn (step sampleNode))
      (start sampleNode (openStore Bincode.standard (.compatible .empty)) 8000000)
      (dispatched ++ [.sched]) = some s ∧ step sampleNode s (.work 0 .proceed) = some t ∧
      lastAttempt s = some 8000000 ∧ lastAttempt t = some 8000005 :=
    ⟨_,_,rfl,rfl,by decide,by decide⟩
  exact ⟨s,t,hr,hs,hbefore,hafter,timestamps_monotone (by decide) hkeyed hpast hr hs⟩

theorem last_attempt_runs_back :
    ∃ s t, run (step sampleNode) (start sampleNode (openStore Bincode.standard (.compatible .empty)) 8000000)
        (dispatched ++ [.work 0 .proceed]) = some s ∧ step sampleNode s .sched = some t ∧
      lastAttempt s = some 8000005 ∧ lastAttempt t = some 8000000 :=
  ⟨_,_,rfl,rfl,by decide,by decide⟩

end System

end DnsSeeder
