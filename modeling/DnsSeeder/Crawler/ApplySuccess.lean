import DnsSeeder.Store.View
import DnsSeeder.Crawler.Model
import DnsSeeder.Lib.Interleave
import DnsSeeder.Store.Bincode

namespace DnsSeeder

open Lib PeerStore

inductive StoreTask where
  | applySuccess (addr : SocketAddr) (version : VersionMessage) (now : Int64)
  | delete (addr : NetAddress)
  | recordAttempt (addr : NetAddress) (now : Int64)
  | insertOrRefreshSeenBatch (addrs : List NetAddress) (now : Int64)
  | pruneDead (cutoff : Int64)

abbrev StoreThreads := Threads Db StoreTask (Option PeerRecord)

namespace StoreTask

variable (c : Codec)

def op (t : StoreTask) (existing : Option PeerRecord) : StoreOp :=
  match t with
  | .applySuccess addr version now => .upsert (peerRecordFromVersion addr version now existing)
  | .delete addr => .delete addr
  | .recordAttempt addr now => .recordAttempt addr now
  | .insertOrRefreshSeenBatch addrs now => .insertOrRefreshSeenBatch addrs now
  | .pruneDead cutoff => .pruneDead cutoff

def first (t : StoreTask) (db : Db) : Option PeerRecord ⊕ Db :=
  match t with
  | .applySuccess addr _ _ =>
      match get c (netFrom addr) db with
      | .ok existing => .inl existing
      | .error _ => .inr db
  | t => .inr (exec c db (t.op none))

def second (t : StoreTask) (existing : Option PeerRecord) (db : Db) : Db := exec c db (t.op existing)

def transactions : Split Db StoreTask (Option PeerRecord) := ⟨first c,second c⟩

def removes : StoreTask → NetAddress → PeerRecord → Bool
  | .delete addr',addr,_ => addr' == addr
  | .pruneDead cutoff,_,rec => isDead rec cutoff
  | _,_,_ => false

def found : Thread StoreTask (Option PeerRecord) → Option NetAddress
  | ⟨.applySuccess addr _ _,.holding (some _)⟩ => some (netFrom addr)
  | _ => none

def overtaken (q : StoreThreads) (i : Nat) : Bool :=
  match q.threads[i]? with
  | some ⟨.applySuccess addr _ _,.holding none⟩ => (view c q.state (netFrom addr)).isSome
  | _ => false

def removesFound (q : StoreThreads) (i : Nat) : Bool :=
  match q.threads[i]? with
  | some ⟨t,.waiting⟩ => q.threads.any (fun other =>
      (found other).any (fun addr => (view c q.state addr).any (t.removes addr)))
  | _ => false

def undisturbed (q : StoreThreads) (i : Nat) : Bool := !overtaken c q i && !removesFound c q i

variable {c} {q q' : StoreThreads} {i : Nat} {t : StoreTask} {existing : Option PeerRecord} {m : PeerMap}
  {addr : NetAddress} {rec rec' : PeerRecord}

def origin (m : PeerMap) (addr : NetAddress) : Option Int64 := (m addr).map PeerRecord.firstSeenMs

theorem kept_apply (hm : m addr = some rec) (hr : t.removes addr rec = false) :
    ∃ rec', apply (t.op existing) m addr = some rec' := by
  cases t with
  | applySuccess addr' version now => by_cases ha : addr = netFrom addr' <;> simp [op,apply,ha,hm]
  | delete addr' =>
    have ha : addr ≠ addr' := by
      rintro rfl
      simp [removes] at hr
    exact ⟨rec,by rw [op,apply,Function.update_of_ne ha,hm]⟩
  | recordAttempt addr' now => by_cases ha : addr = addr' <;> simp [op,apply,ha,hm]
  | insertOrRefreshSeenBatch addrs now => by_cases ha : addr ∈ addrs <;> simp [op,apply,ha,hm]
  | pruneDead cutoff => exact ⟨rec,by simpa [op,apply,hm,removes] using hr⟩

theorem firstSeen_apply
    (ht : ∀ addr' version now, t = .applySuccess addr' version now →
      existing.map PeerRecord.firstSeenMs = origin m (netFrom addr'))
    (hm : m addr = some rec) (h : apply (t.op existing) m addr = some rec') :
    rec'.firstSeenMs = rec.firstSeenMs := by
  generalize hop : t.op existing = op at h
  cases leaves_of_apply h with
  | upserted ha =>
    cases t with
    | applySuccess addr' version now =>
      obtain rfl := StoreOp.upsert.inj hop
      rw [peerRecordFromVersion_address] at ha
      rw [peerRecordFromVersion,ht addr' version now rfl,← ha,origin,hm]
      rfl
    | _ => cases hop
  | attempted now =>
    rw [hm]
    rfl
  | seen now _ =>
    rw [hm]
    rfl
  | kept hkept _ => rw [Option.some.inj (hkept.symm.trans hm)]

theorem origin_apply (ht : ∀ addr' version now, t = .applySuccess addr' version now →
      existing.map PeerRecord.firstSeenMs = origin m (netFrom addr'))
    (hm : m addr = some rec) (hr : t.removes addr rec = false) :
    origin (apply (t.op existing) m) addr = some rec.firstSeenMs := by
  obtain ⟨rec',h⟩ := kept_apply hm hr
  rw [origin,h,Option.map_some,firstSeen_apply ht hm h]

structure Fresh (c : Codec) (q : StoreThreads) : Prop where
  exact : Exact c q.state
  held : ∀ (i : Nat) (t : StoreTask) (existing : Option PeerRecord),
    q.threads[i]? = some ⟨t,.holding existing⟩ → ∃ addr version now, t = .applySuccess addr version now ∧
      ∀ rec, existing = some rec → origin (view c q.state) (netFrom addr) = some rec.firstSeenMs

theorem Fresh.current (h : Fresh c q) (hu : overtaken c q i = false) {addr : SocketAddr}
    {version : VersionMessage} {now : Int64}
    (hi : q.threads[i]? = some ⟨.applySuccess addr version now,.holding existing⟩) :
    existing.map PeerRecord.firstSeenMs = origin (view c q.state) (netFrom addr) := by
  cases existing with
  | none =>
    simp only [overtaken,hi,Option.isSome_eq_false_iff,Option.isNone_iff_eq_none] at hu
    simp [origin,hu]
  | some rec =>
    obtain ⟨addr',version',now',ht,hheld⟩ := h.held i _ _ hi
    obtain ⟨rfl,_,_⟩ := StoreTask.applySuccess.inj ht
    exact (hheld rec rfl).symm

theorem peerRecordFromVersion_congr {addr : SocketAddr} {version : VersionMessage} {now : Int64}
    {existing existing' : Option PeerRecord}
    (h : existing.map PeerRecord.firstSeenMs = existing'.map PeerRecord.firstSeenMs) :
    peerRecordFromVersion addr version now existing = peerRecordFromVersion addr version now existing' := by
  simp only [peerRecordFromVersion,h]

theorem current_of_fresh (h : Fresh c q) (hu : overtaken c q i = false) : (transactions c).Current q i := by
  intro t existing hi
  obtain ⟨addr,version,now,rfl,_⟩ := h.held i t existing hi
  change exec c q.state (.upsert _) = _
  rw [peerRecordFromVersion_congr (h.current hu hi)]
  simp only [Split.whole,transactions,first,get_eq_view h.exact]
  rfl

theorem first_cases {db : Db} (hx : Exact c db) (t : StoreTask) :
    (∃ addr version now, t = .applySuccess addr version now ∧
      first c t db = .inl (view c db (netFrom addr))) ∨
    ((∀ addr version now, t ≠ .applySuccess addr version now) ∧
      first c t db = .inr (exec c db (t.op none))) := by
  cases t with
  | applySuccess addr version now =>
    exact Or.inl ⟨addr,version,now,rfl,by simp only [first,get_eq_view hx]⟩
  | _ => exact Or.inr ⟨by simp,rfl⟩

theorem fresh_commit (h : Fresh c q)
    (hremoves : ∀ addr rec, some addr ∈ q.threads.map found → view c q.state addr = some rec →
      t.removes addr rec = false)
    (ht : ∀ addr' version now, t = .applySuccess addr' version now →
      existing.map PeerRecord.firstSeenMs = origin (view c q.state) (netFrom addr')) :
    Fresh c ⟨exec c q.state (t.op existing),q.threads.set i ⟨t,.done⟩⟩ := by
  refine ⟨exact_exec h.exact _,?_⟩
  intro j t' held hj
  rcases getElem?_set_some hj with ⟨_,hdone⟩ | ⟨hne,hj⟩
  · cases hdone
  · obtain ⟨addr,version,now,rfl,hheld⟩ := h.held j t' held hj
    refine ⟨addr,version,now,rfl,?_⟩
    rintro rec rfl
    have hfound : some (netFrom addr) ∈ q.threads.map found :=
      List.mem_map.mpr ⟨_,List.mem_of_getElem? hj,rfl⟩
    obtain ⟨rec',hview,hseen⟩ := Option.map_eq_some_iff.mp (hheld rec rfl)
    rw [view_exec h.exact,origin_apply ht hview (hremoves _ rec' hfound hview),hseen]

theorem removes_of_undisturbed (hu : removesFound c q i = false)
    (hi : q.threads[i]? = some ⟨t,.waiting⟩) (hfound : some addr ∈ q.threads.map found)
    (hv : view c q.state addr = some rec) : t.removes addr rec = false := by
  obtain ⟨other,hother,haddr⟩ := List.mem_map.mp hfound
  simp only [removesFound,hi,List.any_eq_false] at hu
  simpa [haddr,hv] using hu other hother

theorem fresh_step (h : Fresh c q) (hs : restrict (undisturbed c) (transactions c).step q i = some q') :
    Fresh c q' := by
  obtain ⟨hu,hs⟩ := restrict_eq_some.mp hs
  obtain ⟨hover,hremoves⟩ : overtaken c q i = false ∧ removesFound c q i = false := by
    simpa [undisturbed] using hu
  cases Split.moves_of_step hs with
  | @read t r hi hr =>
    refine ⟨h.exact,?_⟩
    intro j t' held hj
    rcases getElem?_set_some hj with ⟨_,hnew⟩ | ⟨_,hj⟩
    · obtain ⟨rfl,hheld⟩ := Thread.mk.inj hnew
      obtain rfl := Progress.holding.inj hheld
      rcases first_cases h.exact t' with ⟨addr,version,now,rfl,hfirst⟩ | ⟨_,hfirst⟩
      · refine ⟨addr,version,now,rfl,?_⟩
        rintro rec rfl
        simp [origin,← Sum.inl.inj (hr.symm.trans hfirst)]
      · cases hr.symm.trans hfirst
    · exact h.held j t' held hj
  | @single t s hi hfirst =>
    rcases first_cases h.exact t with ⟨addr,version,now,rfl,hread⟩ | ⟨hne,hwrite⟩
    · cases hfirst.symm.trans hread
    · obtain rfl := Sum.inr.inj (hfirst.symm.trans hwrite)
      exact fresh_commit h (fun _ _ hf hv => removes_of_undisturbed hremoves hi hf hv)
        (fun addr version now ht => absurd ht (hne addr version now))
  | @write t held hi =>
    obtain ⟨addr,version,now,rfl,_⟩ := h.held i t held hi
    refine fresh_commit (t := .applySuccess addr version now) h (fun _ _ _ _ => rfl) ?_
    intro addr' version' now' ht
    obtain ⟨rfl,_,_⟩ := StoreTask.applySuccess.inj ht
    exact h.current hover hi

theorem fresh_load (file : DatabaseFile) (tasks : List StoreTask) :
    Fresh c (Threads.load (openStore c file) tasks) := by
  refine ⟨exact_open file,?_⟩
  intro i t existing hi
  simp [Threads.load] at hi

theorem firstSeen_step (h : Fresh c q) (hu : overtaken c q i = false)
    (hs : (transactions c).step q i = some q') (hv : view c q.state addr = some rec)
    (hv' : view c q'.state addr = some rec') :
    rec'.firstSeenMs = rec.firstSeenMs := by
  cases Split.moves_of_step hs with
  | read _ _ => rw [Option.some.inj (hv.symm.trans hv')]
  | @single t s hi hfirst =>
    rcases first_cases h.exact t with ⟨addr,version,now,rfl,hread⟩ | ⟨hne,hwrite⟩
    · cases hfirst.symm.trans hread
    · obtain rfl := Sum.inr.inj (hfirst.symm.trans hwrite)
      rw [view_exec h.exact] at hv'
      exact firstSeen_apply (fun addr version now ht => absurd ht (hne addr version now)) hv hv'
  | @write t held hi =>
    obtain ⟨addr,version,now,rfl,_⟩ := h.held i t held hi
    change view c (exec c q.state _) _ = some rec' at hv'
    rw [view_exec h.exact] at hv'
    refine firstSeen_apply ?_ hv hv'
    intro addr' version' now' ht
    obtain ⟨rfl,_,_⟩ := StoreTask.applySuccess.inj ht
    exact h.current hu hi

theorem apply_success_serializable (file : DatabaseFile) (tasks : List StoreTask) {is : List Nat}
    (hr : run (restrict (undisturbed c) (transactions c).step) (Threads.load (openStore c file) tasks) is =
      some q) :
    ((∀ th ∈ q.threads, th.progress.isDone = true) →
      ∃ order, order.Perm tasks ∧ q.state = (transactions c).serial (openStore c file) order) ∧
    ∀ i q' addr rec rec', overtaken c q i = false → (transactions c).step q i = some q' →
      view c q.state addr = some rec → view c q'.state addr = some rec' →
      rec'.firstSeenMs = rec.firstSeenMs := by
  have hstep : ∀ q i q', Fresh c q → restrict (undisturbed c) (transactions c).step q i = some q' →
      Fresh c q' := fun _ _ _ h hs => fresh_step h hs
  have hfresh : Fresh c q := run_invariant hstep (fresh_load file tasks) hr
  have hcurrent : ∀ q i, Fresh c q → undisturbed c q i = true → (transactions c).Current q i :=
    fun _ _ h hu => current_of_fresh h (by simpa [undisturbed] using (Bool.and_eq_true_iff.mp hu).1)
  refine ⟨?_,fun _ _ _ _ _ hu hs hv hv' => firstSeen_step hfresh hu hs hv hv'⟩
  exact Split.serializable hstep hcurrent (fresh_load file tasks) hr

def probed : SocketAddr := ⟨.v4 0x08080808#32,16111⟩

def helloAt (now : Int64) : StoreTask := .applySuccess probed ⟨[],7,0,Format.Text.empty,none⟩ now

def gossipAt (now : Int64) : StoreTask := .insertOrRefreshSeenBatch [netFrom probed] now

def forgetPeer : StoreTask := .delete (netFrom probed)

def probesAndGossip : List StoreTask := [helloAt 4,gossipAt 5,forgetPeer,helloAt 7,gossipAt 8,helloAt 9]

theorem apply_success_serializable_twice :
    ∃ q, run (restrict (undisturbed Bincode.standard) (transactions Bincode.standard).step)
        (Threads.load (openStore Bincode.standard .missing) probesAndGossip) [0,1,2,0,3,5,4,5,3] = some q ∧
      ∃ order, order.Perm probesAndGossip ∧
        q.state = (transactions Bincode.standard).serial (openStore Bincode.standard .missing) order := by
  obtain ⟨q,hrun,hdone⟩ : ∃ q,
      run (restrict (undisturbed Bincode.standard) (transactions Bincode.standard).step)
      (Threads.load (openStore Bincode.standard .missing) probesAndGossip) [0,1,2,0,3,5,4,5,3] = some q ∧
      ∀ th ∈ q.threads, th.progress.isDone = true := ⟨_,rfl,by decide⟩
  exact ⟨q,hrun,(apply_success_serializable .missing probesAndGossip hrun).1 hdone⟩

theorem apply_success_lost_history :
    ∃ q q', run (transactions Bincode.standard).step
        (Threads.load (openStore Bincode.standard .missing) [helloAt 7,gossipAt 5]) [0,1] = some q ∧
      (transactions Bincode.standard).step q 0 = some q' ∧
      (∀ th ∈ q'.threads, th.progress.isDone = true) ∧
      origin (view Bincode.standard q.state) (netFrom probed) = some 5 ∧
      origin (view Bincode.standard q'.state) (netFrom probed) = some 7 ∧
      ∀ order, order.Perm [helloAt 7,gossipAt 5] →
        ((transactions Bincode.standard).serial (openStore Bincode.standard .missing) order).peers ≠
          q'.state.peers := by
  refine ⟨_,_,rfl,rfl,by decide,by decide,by decide,?_⟩
  intro order hperm heq
  have hrow := congrArg (fun peers => peers.get (Bincode.standard.encodeKey (netFrom probed))) heq
  have horder : order ∈ [[helloAt 7,gossipAt 5],[gossipAt 5,helloAt 7]] := List.mem_permutations'.mpr hperm
  rcases List.mem_cons.mp horder with rfl | horder
  · exact absurd hrow (by decide)
  · rw [List.mem_singleton.mp horder] at hrow
    exact absurd hrow (by decide)

end StoreTask

end DnsSeeder
