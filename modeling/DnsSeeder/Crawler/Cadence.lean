import DnsSeeder.Crawler.Crawling

namespace DnsSeeder

open Lib PeerStore

namespace System

variable {d : Node} {s t : System} {t₀ t₁ : Int64} {a : NetAddress}

def HeldSince (a : NetAddress) (t₁ : Int64) : Held → Prop
  | .op (.upsert record) => record.address = a → t₁ ≤ record.lastAttemptMs
  | .op (.recordAttempt net now) => net = a → t₁ ≤ now
  | .tick now => t₁ ≤ now
  | _ => True

theorem heldSince_fresh {x : Held} (hclock : t₁ ≤ s.clock) (hheld : ∀ y ∈ held s, HeldSince a t₁ y)
    (hx : Fresh d s x) : HeldSince a t₁ x := by
  cases hx with
  | run _ _ _ hrun =>
    cases hrun with
    | read _ => trivial
    | stamp version _ => exact fun _ => hclock
    | discovered addresses => trivial
    | failed _ => exact fun _ => hclock
  | bootstrap addrs => trivial
  | prune => trivial
  | tick => exact hclock
  | due htick _ => exact fun _ => hheld _ htick
  | submit _ => trivial
  | offer _ => trivial

theorem apply_attempt {op : StoreOp} {m : PeerMap} {rec rec' : PeerRecord}
    (hop : HeldSince a t₁ (.op op)) (hm : m a = some rec)
    (hrec : t₁ ≤ rec.lastAttemptMs ∨ ∃ now, op = .recordAttempt a now)
    (h : apply op m a = some rec') : t₁ ≤ rec'.lastAttemptMs := by
  cases leaves_of_apply h with
  | upserted ha => exact hop ha.symm
  | attempted now => exact hop rfl
  | seen now _ =>
    rw [hm]
    rcases hrec with hrec | ⟨_,hrec⟩
    · exact hrec
    · cases hrec
  | kept hkept ha =>
    rw [← Option.some.inj (hm.symm.trans hkept)]
    rcases hrec with hrec | ⟨now,rfl⟩
    · exact hrec
    · simp [StoreOp.targets] at ha

def Present (d : Node) (a : NetAddress) (s : System) : Prop := (view d.codec s.db a).isSome

instance : DecidablePred (Present d a) :=
  fun s => inferInstanceAs (Decidable ((view d.codec s.db a).isSome = true))

def Pending (a : NetAddress) (s : System) : Prop := ∃ now rest, s.sched = .recording now a rest

structure Since (d : Node) (t₀ : Int64) (a : NetAddress) (t₁ : Int64) (s : System) : Prop where
  grounded : Grounded d t₀ s
  clock : t₁ ≤ s.clock
  held : ∀ x ∈ held s, HeldSince a t₁ x
  record : ∀ rec, view d.codec s.db a = some rec → t₁ ≤ rec.lastAttemptMs ∨ Pending a s

theorem pending_move {e : Event} {op : Option StoreOp} (hp : Pending a s)
    (hm : move d s e = some (t,op)) : Pending a t ∨ ∃ now, op = some (.recordAttempt a now) := by
  obtain ⟨now,rest,hs⟩ := hp
  by_cases he : e = .sched
  · subst he
    simp only [move,schedMove,hs] at hm
    obtain ⟨_,rfl⟩ := Prod.mk.inj (Option.some.inj hm)
    exact Or.inr ⟨now,rfl⟩
  · obtain ⟨hsame | ⟨hidle,_⟩,_⟩ := sched_move hm he
    · exact Or.inl ⟨now,rest,hsame.trans hs⟩
    · rw [hs] at hidle
      cases hidle

theorem Since.op_held {e : Event} {op : Option StoreOp} (h : Since d t₀ a t₁ s) (he : Event.isHttp e = false)
    (hm : move d s e = some (t,op)) : ∀ o, op = some o → HeldSince a t₁ (.op o) := by
  intro o ho
  rcases (moved_move hm).op o ho with hop | ⟨addr,rfl,_⟩
  · exact h.held _ hop
  · cases he

theorem attempt_transact {c : Codec} {db : Db} {op : Option StoreOp} {old rec : PeerRecord}
    (hx : Exact c db) (hop : ∀ o, op = some o → HeldSince a t₁ (.op o)) (hold : view c db a = some old)
    (hrec : t₁ ≤ old.lastAttemptMs ∨ ∃ now, op = some (.recordAttempt a now))
    (hv : view c (transact c db op) a = some rec) : t₁ ≤ rec.lastAttemptMs := by
  cases op with
  | none =>
    rcases hrec with hrec | ⟨_,hrec⟩
    · exact Option.some.inj (hold.symm.trans hv) ▸ hrec
    · cases hrec
  | some op =>
    rw [transact,view_exec hx] at hv
    refine apply_attempt (hop op rfl) hold (hrec.imp id ?_) hv
    rintro ⟨now,hnow⟩
    exact ⟨now,Option.some.inj hnow⟩

theorem since_step {e : Event} (h : Since d t₀ a t₁ s) (hpresent : Present d a s)
    (hs : crawl d s e = some t) : Since d t₀ a t₁ t := by
  have hground := grounded_step h.grounded hs
  obtain ⟨he,_,u,op,hm,rfl⟩ := crawl_move hs
  have hmoved := moved_move hm
  refine ⟨hground,Int64.le_trans h.clock hmoved.clock,?_,?_⟩
  · intro x hx
    rcases hmoved.held x hx with hx | hx
    · exact h.held x hx
    · exact heldSince_fresh h.clock h.held hx
  · intro rec hv
    obtain ⟨old,hold⟩ := Option.isSome_iff_exists.mp hpresent
    have hop := h.op_held he hm
    rcases h.record old hold with hrec | hrec
    · exact Or.inl (attempt_transact h.grounded.past.exact hop hold (Or.inl hrec) hv)
    · rcases pending_move hrec hm with hp | hnow
      · exact Or.inr hp
      · exact Or.inl (attempt_transact h.grounded.past.exact hop hold (Or.inr hnow) hv)

def interval (d : Node) : Int :=
  min (4 * (durationToMs d.config.staleGood).toInt / 5) (durationToMs d.config.staleBad).toInt

structure Spaced (d : Node) (t₀ : Int64) (a : NetAddress) (t₁ : Int64) (s : System) : Prop where
  since : Since d t₀ a t₁ s
  record : ∀ rec, view d.codec s.db a = some rec → t₁ ≤ rec.lastAttemptMs
  due : ∀ now, .op (.recordAttempt a now) ∈ held s → interval d ≤ now.toInt - t₁.toInt

theorem due_gap (hfit : 4 * (durationToMs d.config.staleGood).toInt < 2^63) {now : Int64} {rec : PeerRecord}
    (hdue : Due d.codec s.db (dueQuery d now) rec) :
    interval d ≤ now.toInt - rec.lastAttemptMs.toInt := by
  have hgood := durationToMs_nonneg d.config.staleGood
  have hbad := durationToMs_nonneg d.config.staleBad
  obtain ⟨threshold,hthr,hval⟩ := goodProbeThreshold_eq hgood hfit
  have hgap := eligible_gap (q := dueQuery d now) hthr (by omega) hbad hdue.2
  rw [hval] at hgap
  exact hgap

theorem fresh_gap (hfit : 4 * (durationToMs d.config.staleGood).toInt < 2^63)
    (h : Spaced d t₀ a t₁ s) {now : Int64} (hx : Fresh d s (.op (.recordAttempt a now))) :
    interval d ≤ now.toInt - t₁.toInt := by
  cases hx with
  | run hcaller _ _ hrun =>
    cases hrun with
    | failed hc => exact absurd h.since.grounded.crawling.posts (hcaller hc)
  | @due _ rec _ hdue =>
    obtain ⟨key,hrow⟩ := hdue.1
    have hkey := h.since.grounded.past.keyed key rec hrow
    have hold := h.record rec (by rw [view,← hkey,hrow])
    rw [int64_le_iff] at hold
    have hgap := due_gap hfit hdue
    omega

theorem spaced_step (hfit : 4 * (durationToMs d.config.staleGood).toInt < 2^63) {e : Event}
    (h : Spaced d t₀ a t₁ s) (hpresent : Present d a s) (hs : crawl d s e = some t) :
    Spaced d t₀ a t₁ t := by
  have hsince := since_step h.since hpresent hs
  obtain ⟨he,_,u,op,hm,rfl⟩ := crawl_move hs
  refine ⟨hsince,?_,?_⟩
  · intro rec hv
    obtain ⟨old,hold⟩ := Option.isSome_iff_exists.mp hpresent
    have hop := h.since.op_held he hm
    exact attempt_transact h.since.grounded.past.exact hop hold (Or.inl (h.record old hold)) hv
  · intro now hx
    rcases (moved_move hm).held _ hx with hx | hx
    · exact h.due now hx
    · exact fresh_gap hfit h hx

theorem worker_since {net : NetAddress} {now : Int64} {addr : SocketAddr} {r : Runner} {x : Held}
    (hr : TaskOk addr r) (haddr : netFrom addr ≠ net) (hx : x ∈ r.held addr) : HeldSince net now x := by
  cases r with
  | stamping result existing =>
    rw [List.mem_singleton.mp hx]
    trivial
  | upserting record addresses =>
    rw [List.mem_singleton.mp hx]
    exact fun hnet => absurd (hr.symm.trans hnet) haddr
  | seeding accepted now' =>
    rw [List.mem_singleton.mp hx]
    trivial
  | recording now' => exact hr.elim
  | _ => simp [Runner.held] at hx

theorem held_at_dispatch {net : NetAddress} {now : Int64} {rest : List PeerRecord} (h : Grounded d t₀ s)
    (hoffer : s.sched = .offering now net rest) (hinserted : s.pool.enqueue = .inserted net) :
    ∀ x ∈ held s, HeldSince net now x := by
  intro x hx
  rcases mem_held.mp hx with hx | hx | ⟨post,hp,hx⟩
  · rw [hoffer] at hx
    rcases List.mem_cons.mp hx with rfl | hx
    · exact fun _ => Int64.le_refl now
    · obtain ⟨rec,_,rfl⟩ := List.mem_map.mp hx
      exact fun _ => Int64.le_refl now
  · rcases mem_heldItems.mp hx with ⟨_,_,rfl⟩ | ⟨w,hw,hxw⟩
    · trivial
    · rcases mem_worker_held hxw with rfl | ⟨r,hr,hxr⟩
      · trivial
      · obtain ⟨addr,phase⟩ := w
        subst hr
        refine worker_since (h.crawling.tasks addr r hw) ?_ hxr
        have htarget := h.canonical.held (.target addr)
          (mem_held.mpr (Or.inr (Or.inl (mem_heldItems.mpr (Or.inr ⟨_,hw,by simp [Worker.held]⟩)))))
        obtain ⟨net',hcan,rfl⟩ := htarget
        rw [netFrom_socketAddr hcan]
        rintro rfl
        exact WorkerPool.held_not_offered h.crawling.pool hinserted hw rfl rfl
  · rw [h.crawling.posts] at hp
    cases hp

structure Dispatches (d : Node) (s t : System) (net : NetAddress) (now : Int64) : Prop where
  step : crawl d s .sched = some t
  offering : ∃ rest, s.sched = .offering now net rest
  accepted : ∃ rest, t.sched = .recording now net rest

theorem dispatches_inserted (h : Offered s) {net : NetAddress} {now : Int64}
    (hd : Dispatches d s t net now) : s.pool.enqueue = .inserted net := by
  obtain ⟨hs,⟨rest,hoffer⟩,rest',hrecord⟩ := hd
  rcases h now net rest hoffer with h | ⟨outcome,h⟩
  · exact h
  · obtain ⟨_,_,u,op,hm,rfl⟩ := crawl_move hs
    simp only [move,schedMove,hoffer,h] at hm
    obtain ⟨p,_,hm⟩ := Option.map_eq_some_iff.mp hm
    obtain ⟨rfl,_⟩ := Prod.mk.inj hm
    cases hrecord

theorem attempt_at_dispatch {net : NetAddress} {now : Int64} (hd : Dispatches d s t net now) :
    .op (.recordAttempt net now) ∈ held s := by
  obtain ⟨rest,hoffer⟩ := hd.offering
  exact mem_held.mpr (Or.inl (by simp [hoffer,Sched.held]))

theorem since_dispatch {net : NetAddress} {now : Int64} (h : Grounded d t₀ s)
    (hd : Dispatches d s t net now) : Since d t₀ net now t := by
  have hground := grounded_step h hd.step
  have hclock : now ≤ s.clock := h.past.held _ (attempt_at_dispatch hd)
  have hinserted := dispatches_inserted h.offered hd
  obtain ⟨hs,⟨rest,hoffer⟩,rest',hrecord⟩ := hd
  have hheld := held_at_dispatch h hoffer hinserted
  obtain ⟨_,_,u,op,hm,rfl⟩ := crawl_move hs
  have hmoved := moved_move hm
  refine ⟨hground,Int64.le_trans hclock hmoved.clock,?_,fun rec _ => Or.inr ⟨now,rest',hrecord⟩⟩
  intro x hx
  rcases hmoved.held x hx with hx | hx
  · exact hheld x hx
  · exact heldSince_fresh hclock hheld hx

theorem attempt_sched (h : Crawling s) {net : NetAddress} {now : Int64}
    (hx : .op (.recordAttempt net now) ∈ held s) : .op (.recordAttempt net now) ∈ s.sched.held := by
  rcases mem_held.mp hx with hx | hx | ⟨post,hp,hx⟩
  · exact hx
  · rcases mem_heldItems.mp hx with ⟨_,_,hx⟩ | ⟨⟨addr,phase⟩,hw,hx⟩
    · cases hx
    · rcases mem_worker_held hx with hx | ⟨r,rfl,hx⟩
      · cases hx
      · have hr := h.tasks addr r hw
        cases r with
        | recording now' => exact hr.elim
        | _ => simp [Runner.held] at hx
  · rw [h.posts] at hp
    cases hp

theorem spaced_tick (h : Since d t₀ a t₁ s) (hpresent : Present d a s) (hs : crawl d s .tick = some t) :
    Spaced d t₀ a t₁ t := by
  have hsince := since_step h hpresent hs
  obtain ⟨_,_,u,op,hm,rfl⟩ := crawl_move hs
  have htick : u.sched = .ticking s.clock := by
    cases moves_of_move hm
    rfl
  refine ⟨hsince,?_,?_⟩
  · intro rec hv
    rcases hsince.record rec hv with hrec | ⟨now,rest,hp⟩
    · exact hrec
    · rw [htick] at hp
      cases hp
  · intro now hx
    have hx := attempt_sched hsince.grounded.crawling hx
    rw [htick] at hx
    simp [Sched.held] at hx

theorem probe_cadence {db : Db} {clock now₁ now₂ : Int64} {net : NetAddress} {es₁ es₂ : List Event}
    {s₁ s₁' s₂ s₂' : System} (hdb : Sound d.codec db)
    (hfit : 4 * (durationToMs d.config.staleGood).toInt < 2^63)
    (hrun₁ : run (crawl d) (start d (openStore d.codec (.compatible db)) clock) es₁ = some s₁)
    (hdispatch₁ : Dispatches d s₁ s₁' net now₁) (hrun₂ : run (crawl d) s₁' es₂ = some s₂)
    (hlater : .tick ∈ es₂) (hpresent : Along (crawl d) (Present d net) s₁' es₂)
    (hdispatch₂ : Dispatches d s₂ s₂' net now₂) :
    min (4 * (durationToMs d.config.staleGood).toInt / 5) (durationToMs d.config.staleBad).toInt ≤
      now₂.toInt - now₁.toInt := by
  have hground : Grounded d clock s₁ :=
    run_invariant (fun _ _ _ hu hs => grounded_step hu hs) (grounded_start hdb clock) hrun₁
  obtain ⟨pre,post,rfl⟩ := List.append_of_mem hlater
  rw [run_append] at hrun₂
  obtain ⟨u,hpre,hrun₂⟩ := Option.bind_eq_some_iff.mp hrun₂
  rw [run_cons] at hrun₂
  obtain ⟨v,htick,hpost⟩ := Option.bind_eq_some_iff.mp hrun₂
  have hsince : Since d clock net now₁ u :=
    run_invariant_along (fun _ _ _ hu hp _ hs => since_step hu hp hs) (since_dispatch hground hdispatch₁)
      (hpresent.of_prefix (List.prefix_append pre _)) hpre
  have hafter := hpresent.of_append hpre
  have hspaced₀ : Spaced d clock net now₁ v :=
    spaced_tick hsince (hafter [] u List.nil_prefix rfl) htick
  rw [← List.singleton_append] at hafter
  have hstep : run (crawl d) u [.tick] = some v := by simp [run_cons,htick]
  have hrest := hafter.of_append hstep
  have hspaced : Spaced d clock net now₁ s₂ :=
    run_invariant_along (fun _ _ _ hu hp _ hs => spaced_step hfit hu hp hs) hspaced₀ hrest hpost
  exact hspaced.due now₂ (attempt_at_dispatch hdispatch₂)

def untilOffer : List Event := [.seed [samplePeer],.sched,.tick,.sched,.sched]

def untilNextOffer : List Event :=
  [.pool .receive,.pool .spawn,.pool (.start 0),.work 0 (.probed (some sampleProbe)),.work 0 .proceed,
    .work 0 .proceed,.work 0 .proceed,.sched,.work 0 .proceed,.work 0 .proceed,.pool (.finish 0),
    .pool (.release 0),.sched,.advance 9440000,.tick,.sched,.sched]

theorem dispatched_twice :
    ∃ s₁ s₁' s₂ s₂', run (crawl sampleNode)
        (start sampleNode (openStore Bincode.standard (.compatible .empty)) 8000000) untilOffer = some s₁ ∧
      Dispatches sampleNode s₁ s₁' (netFrom samplePeer) 8000000 ∧
      run (crawl sampleNode) s₁' untilNextOffer = some s₂ ∧
      Along (crawl sampleNode) (Present sampleNode (netFrom samplePeer)) s₁' untilNextOffer ∧
      Dispatches sampleNode s₂ s₂' (netFrom samplePeer) 9440000 :=
  ⟨_,_,_,_,rfl,⟨rfl,⟨_,rfl⟩,⟨_,rfl⟩⟩,rfl,by decide,⟨rfl,⟨_,rfl⟩,⟨_,rfl⟩⟩⟩

theorem probe_cadence_due_again :
    (∃ s₂ s₂', Dispatches sampleNode s₂ s₂' (netFrom samplePeer) 9440000) ∧
    min (4 * (durationToMs sampleNode.config.staleGood).toInt / 5)
      (durationToMs sampleNode.config.staleBad).toInt ≤ (9440000 : Int64).toInt - (8000000 : Int64).toInt := by
  obtain ⟨s₁,s₁',s₂,s₂',hrun₁,hdispatch₁,hrun₂,hpresent,hdispatch₂⟩ := dispatched_twice
  have hempty : Produced sampleNode.codec sampleNode.routable 1 .empty 1 := .empty
  have hdb : Sound sampleNode.codec .empty := sound_of_produced (by decide) hempty
  have hlater : Event.tick ∈ untilNextOffer := by simp [untilNextOffer]
  exact ⟨⟨s₂,s₂',hdispatch₂⟩,
    probe_cadence hdb (by decide) hrun₁ hdispatch₁ hrun₂ hlater hpresent hdispatch₂⟩

end System

end DnsSeeder
