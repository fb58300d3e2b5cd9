import DnsSeeder.Crawler.Provenance
import DnsSeeder.Store.Prune

namespace DnsSeeder

open Lib PeerStore

namespace System

def Offering (s : System) (net : NetAddress) (now : Int64) : Prop :=
  Held.op (.recordAttempt net now) ∈ s.sched.held

def Standing (d : Node) (net : NetAddress) (last : Int64) (s : System) : Prop :=
  ∃ rec, view d.codec s.db net = some rec ∧ rec.lastSuccessMs = last

def Silent (net : NetAddress) (s : Traced) : Prop := ∀ h, .handshake h ∈ s.log → netFrom h.addr ≠ net

variable {d : Node} {net : NetAddress} {last : Int64}

theorem success_of_apply {op : StoreOp} {m : PeerMap} {rec : PeerRecord}
    (hop : ∀ record, op = .upsert record → record.address ≠ net) (h : apply op m net = some rec) :
    rec.lastSuccessMs = 0 ∨ ∃ old, m net = some old ∧ rec.lastSuccessMs = old.lastSuccessMs := by
  cases leaves_of_apply h with
  | upserted ha => exact absurd ha.symm (hop rec rfl)
  | attempted now =>
    cases hm : m net with
    | none => exact Or.inl rfl
    | some old => exact Or.inr ⟨old,rfl,rfl⟩
  | seen now _ =>
    cases hm : m net with
    | none => exact Or.inl rfl
    | some old => exact Or.inr ⟨old,rfl,rfl⟩
  | kept hm _ => exact Or.inr ⟨rec,hm,rfl⟩

theorem offering_schedMoves {s t : System} {op : Option StoreOp} {now : Int64} (hm : SchedMoves d s t op)
    (h : Offering t net now) :
    Offering s net now ∨ ∃ rec, rec.address = net ∧ Due d.codec s.db (dueQuery d now) rec := by
  unfold Offering at h ⊢
  cases hm with
  | query hs hdue =>
    obtain ⟨rec,hrec,hop⟩ := List.mem_map.mp h
    obtain ⟨rfl,rfl⟩ := StoreOp.recordAttempt.inj (Held.op.inj hop)
    exact Or.inr ⟨rec,rfl,due_of_dueForProbe hdue rec hrec⟩
  | skip hs =>
    rw [hs]
    exact Or.inl (List.mem_cons_of_mem _ h)
  | insert hs hp he =>
    rw [hs]
    rw [WorkerPool.inserted_eq hp he] at h
    exact Or.inl h
  | duplicate hs _ =>
    rw [hs]
    exact Or.inl (List.mem_cons_of_mem _ h)
  | accept hs _ _ =>
    rw [hs]
    exact Or.inl h
  | reject _ _ _ _ => exact Or.inl h
  | record hs =>
    rw [hs]
    exact Or.inl (List.mem_cons_of_mem _ h)
  | _ => cases h

theorem offering_moves {s t : System} {e : Event} {op : Option StoreOp} {now : Int64} (hm : Moves d s e t op)
    (h : Offering t net now) :
    Offering s net now ∨ ∃ rec, rec.address = net ∧ Due d.codec s.db (dueQuery d now) rec := by
  cases hm with
  | sched hs => exact offering_schedMoves hs h
  | seed _ _ => simp [Offering,Sched.held] at h
  | prune _ => simp [Offering,Sched.held] at h
  | tick _ => simp [Offering,Sched.held] at h
  | _ => exact Or.inl h

structure Fading (d : Node) (net : NetAddress) (last : Int64) (s : Traced) : Prop extends Staffed s where
  exact : Exact d.codec s.system.db
  keyed : Keyed d.codec s.system.db
  stored : ∀ rec, view d.codec s.system.db net = some rec → rec.lastSuccessMs = last ∨ rec.lastSuccessMs = 0
  offered : Standing d net last s.system → ∀ now, Offering s.system net now →
    saturatingSub now (durationToMs d.config.deadAfter) ≤ last

variable {s t : Traced} {e : Event}

theorem success_of_transact {c : Codec} {db : Db} {op : Option StoreOp} {rec : PeerRecord} (hx : Exact c db)
    (hop : ∀ record, op = some (.upsert record) → record.address ≠ net)
    (h : view c (transact c db op) net = some rec) :
    rec.lastSuccessMs = 0 ∨ ∃ old, view c db net = some old ∧ rec.lastSuccessMs = old.lastSuccessMs := by
  cases op with
  | none => exact Or.inr ⟨rec,h,rfl⟩
  | some op =>
    rw [transact,view_exec hx] at h
    exact success_of_apply (fun record hr => hop record (congrArg some hr)) h

theorem kept_transact {c : Codec} {db : Db} (hx : Exact c db) (hk : Keyed c db) (op : Option StoreOp) :
    Exact c (transact c db op) ∧ Keyed c (transact c db op) := by
  cases op with
  | none => exact ⟨hx,hk⟩
  | some op => exact ⟨exact_exec hx op,keyed_exec hx hk op⟩

theorem cutoff_of_due {db : Db} {q : DueQuery} {rec : PeerRecord} (hpos : 0 < rec.lastSuccessMs)
    (hdue : Due d.codec db q rec) : q.deadCutoffMs ≤ rec.lastSuccessMs := by
  have halive := not_dead_of_eligible (Int64.le_refl _) hdue.2
  by_contra hlt
  rw [isDead_iff.mpr (Or.inl ⟨hpos,Int64.not_le.mp hlt⟩)] at halive
  cases halive

theorem fading_step (hpos : 0 < last) (h : Fading d net last s) (hs : traced d s e = some t)
    (hsilent : Silent net t) :
    Fading d net last t ∧ (Standing d net last t.system → Standing d net last s.system) := by
  obtain ⟨⟨u,op⟩,hm,rfl⟩ := Option.map_eq_some_iff.mp hs
  have hmoves := moves_of_move hm
  have hp := prepared_move h.toStaffed hmoves
  have hop : ∀ record, op = some (.upsert record) → record.address ≠ net := by
    rintro record hr rfl
    obtain ⟨k,hk,_⟩ := hp.op _ hr record rfl
    exact hsilent k.handshake (List.mem_append_left _ (List.mem_append_left _ hk.answered)) hk.peer
  have hback : Standing d net last { u with db := transact d.codec s.system.db op } →
      Standing d net last s.system := by
    rintro ⟨rec,hrec,hsuccess⟩
    rcases success_of_transact h.exact hop hrec with hzero | ⟨old,hold,hsame⟩
    · rw [← hsuccess,hzero] at hpos
      exact absurd hpos (by decide)
    · exact ⟨old,hold,hsame ▸ hsuccess⟩
  obtain ⟨hexact,hkeyed⟩ := kept_transact h.exact h.keyed op
  refine ⟨⟨hp.staffed _ _,hexact,hkeyed,?_,?_⟩,hback⟩
  · intro rec hrec
    rcases success_of_transact h.exact hop hrec with hzero | ⟨old,hold,hsame⟩
    · exact Or.inr hzero
    · rw [hsame]
      exact h.stored old hold
  · intro hstand now hoffer
    rcases offering_moves hmoves hoffer with hoffer | ⟨rec,hnet,hdue⟩
    · exact h.offered (hback hstand) now hoffer
    · obtain ⟨old,hold,rfl⟩ := hback hstand
      obtain ⟨key,hrow⟩ := hdue.1
      have hview : view d.codec s.system.db net = some rec := by
        rw [view,← hnet,← h.keyed key rec hrow,hrow]
      obtain rfl := Option.some.inj (hview.symm.trans hold)
      exact cutoff_of_due (q := dueQuery d now) hpos hdue

theorem silent_of_step (hs : traced d s e = some t) (hsilent : Silent net t) : Silent net s := by
  obtain ⟨v,_,rfl⟩ := Option.map_eq_some_iff.mp hs
  exact fun h hh => hsilent h (List.mem_append_left _ (List.mem_append_left _ hh))

theorem silent_of_run {es : List Event} (hrun : run (traced d) s es = some t) (hsilent : Silent net t) :
    Silent net s := by
  induction es using List.reverseRecOn generalizing t with
  | nil => exact Option.some.inj hrun ▸ hsilent
  | append_singleton es e ih =>
    obtain ⟨v,hv,hs⟩ := run_snoc.mp hrun
    exact ih hv (silent_of_step hs hsilent)

theorem fading_run {es : List Event} (hpos : 0 < last) (h : Fading d net last s)
    (hrun : run (traced d) s es = some t) (hsilent : Silent net t) :
    Fading d net last t ∧ (Standing d net last t.system → Standing d net last s.system) := by
  induction es using List.reverseRecOn generalizing t with
  | nil =>
    obtain rfl := Option.some.inj hrun
    exact ⟨h,id⟩
  | append_singleton es e ih =>
    obtain ⟨v,hv,hs⟩ := run_snoc.mp hrun
    obtain ⟨hfade,hback⟩ := ih hv (silent_of_step hs hsilent)
    obtain ⟨hnext,hstand⟩ := fading_step hpos hfade hs hsilent
    exact ⟨hnext,fun hlater => hback (hstand hlater)⟩

theorem pruned_falls {cutoff : Int64} (hpos : 0 < last) (hx : Exact d.codec s.system.db)
    (hsched : s.system.sched = .pruning cutoff) (hlt : last < cutoff) (hs : traced d s .sched = some t) :
    ¬ Standing d net last t.system := by
  rintro ⟨rec,hrec,rfl⟩
  simp only [traced,move,schedMove,hsched,Option.map_some,Option.some.injEq] at hs
  obtain rfl := hs
  change view d.codec (exec d.codec s.system.db (.pruneDead cutoff)) net = some rec at hrec
  rw [view_exec hx] at hrec
  obtain ⟨_,halive⟩ := Option.filter_eq_some_iff.mp hrec
  rw [isDead_iff.mpr (Or.inl ⟨hpos,hlt⟩)] at halive
  cases halive

theorem fading_start {db : Db} {rec : PeerRecord} (u : Int64) (hk : Keyed d.codec db)
    (hrec : view d.codec db net = some rec) :
    Fading d net rec.lastSuccessMs ⟨start d (openStore d.codec (.compatible db)) u,[]⟩ where
  toStaffed := staffed_start _ _ _
  exact := exact_open _
  keyed := keyed_open hk
  stored rec' hrec' := by
    change view d.codec (openStore d.codec (.compatible db)) net = some rec' at hrec'
    rw [view_open,hrec] at hrec'
    exact Or.inl (Option.some.inj hrec' ▸ rfl)
  offered _ _ h := by cases h

theorem silent_peer_fades (d : Node) (db : Db) (hk : Keyed d.codec db) (net : NetAddress) (rec : PeerRecord)
    (hrec : view d.codec db net = some rec) (hpos : 0 < rec.lastSuccessMs) (u : Int64) (es : List Event)
    (t : Traced) (hrun : run (traced d) ⟨start d (openStore d.codec (.compatible db)) u,[]⟩ es = some t)
    (hsilent : Silent net t) :
    (∀ rec', view d.codec t.system.db net = some rec' →
      rec'.lastSuccessMs = rec.lastSuccessMs ∨ rec'.lastSuccessMs = 0) ∧
    (Standing d net rec.lastSuccessMs t.system → ∀ now, Offering t.system net now →
      saturatingSub now (durationToMs d.config.deadAfter) ≤ rec.lastSuccessMs) ∧
    ∀ cutoff, t.system.sched = .pruning cutoff → rec.lastSuccessMs < cutoff → ∀ es' t',
      run (traced d) t (.sched :: es') = some t' → Silent net t' →
        ∀ rec', view d.codec t'.system.db net = some rec' → rec'.lastSuccessMs = 0 := by
  obtain ⟨hfade,_⟩ := fading_run hpos (fading_start u hk hrec) hrun hsilent
  refine ⟨hfade.stored,hfade.offered,?_⟩
  intro cutoff hsched hlt es' t' hrun' hsilent' rec' hrec'
  obtain ⟨hfade',_⟩ := fading_run hpos hfade hrun' hsilent'
  rcases hfade'.stored rec' hrec' with hsame | hzero
  · rw [run_cons] at hrun'
    obtain ⟨v,hv,hrest⟩ := Option.bind_eq_some_iff.mp hrun'
    obtain ⟨hfadev,_⟩ := fading_step hpos hfade hv (silent_of_run hrest hsilent')
    exact absurd ((fading_run hpos hfadev hrest hsilent').2 ⟨rec',hrec',hsame⟩)
      (pruned_falls hpos hfade.exact hsched hlt hv)
  · exact hzero

def quiet : Trace → Bool
  | .handshake _ => false
  | _ => true

theorem silent_of_quiet (h : s.log.all quiet = true) : Silent net s :=
  fun _ hmem => by cases List.all_eq_true.mp h _ hmem

def lastHeard : PeerRecord := peerRecordFromVersion samplePeer sampleProbe.version 7 none

def heardStore : Db := exec Bincode.standard .empty (.upsert lastHeard)

def goneQuiet : List Event := [.advance 86400008,.seed [samplePeer],.sched,.prune]

def reborn : List Event := [.sched,.seed [samplePeer],.sched]

theorem silent_peer_fades_gossiped : ∃ t t' rec,
    run (traced sampleNode) ⟨start sampleNode (openStore Bincode.standard (.compatible heardStore)) 9,[]⟩
      goneQuiet = some t ∧ t.system.sched = .pruning 8 ∧
    run (traced sampleNode) t reborn = some t' ∧
    view Bincode.standard t'.system.db (netFrom samplePeer) = some rec ∧ rec.lastSuccessMs = 0 := by
  have hk : Keyed Bincode.standard heardStore := keyed_exec exact_empty keyed_empty _
  have hrec : view Bincode.standard heardStore (netFrom samplePeer) = some lastHeard := by decide
  obtain ⟨t,ht⟩ : ∃ t, run (traced sampleNode)
      ⟨start sampleNode (openStore Bincode.standard (.compatible heardStore)) 9,[]⟩ goneQuiet = some t :=
    ⟨_,rfl⟩
  have hsched : t.system.sched = .pruning 8 := by
    obtain rfl := Option.some.inj ht
    rfl
  have hquiet : Silent (netFrom samplePeer) t := by
    obtain rfl := Option.some.inj ht
    exact silent_of_quiet rfl
  obtain ⟨t',ht'⟩ : ∃ t', run (traced sampleNode) t reborn = some t' := by
    obtain rfl := Option.some.inj ht
    exact ⟨_,rfl⟩
  have hquiet' : Silent (netFrom samplePeer) t' := by
    obtain rfl := Option.some.inj ht
    obtain rfl := Option.some.inj ht'
    exact silent_of_quiet rfl
  have hview : ((run (traced sampleNode)
      ⟨start sampleNode (openStore Bincode.standard (.compatible heardStore)) 9,[]⟩ (goneQuiet ++ reborn)).bind
      (fun v => view Bincode.standard v.system.db (netFrom samplePeer))) =
        some (seenStub (netFrom samplePeer) 86400008) := by decide
  rw [run_append,ht,Option.bind_some,ht',Option.bind_some] at hview
  have h := silent_peer_fades sampleNode heardStore hk (netFrom samplePeer) lastHeard hrec (by decide) 9
    goneQuiet t ht hquiet
  exact ⟨t,t',_,ht,hsched,ht',hview,h.2.2 8 hsched (by decide) _ t' ht' hquiet' _ hview⟩

end System

end DnsSeeder
