import DnsSeeder.Crawler.Moves
import DnsSeeder.Crawler.Tick

namespace DnsSeeder

open Lib PeerStore

inductive Verdict where
  | unacceptable
  | inFlight
  | dispatched
  | refused

structure Judged where
  system : System
  verdicts : List (NetAddress × Verdict)

namespace Sched

def pending : Sched → Option (List NetAddress)
  | .scanning _ recs => some (recs.map PeerRecord.address)
  | .offering _ net recs => some (net :: recs.map PeerRecord.address)
  | .recording _ net recs => some (net :: recs.map PeerRecord.address)
  | _ => none

def chosen : Sched → Option NetAddress
  | .offering _ net _ => some net
  | .recording _ net _ => some net
  | _ => none

def resting : Sched → Bool
  | .idle => true
  | .seeding _ _ => true
  | .pruning _ => true
  | _ => false

theorem pending_of_resting {sched : Sched} (h : sched.resting = true) : sched.pending = none := by
  cases sched with
  | idle => rfl
  | seeding accepted now => rfl
  | pruning cutoff => rfl
  | _ => cases h

end Sched

namespace System

section judging
variable (d : Node)

def verdictOf (s : System) : List (NetAddress × Verdict) :=
  match s.sched with
  | .scanning _ (rec :: _) =>
      if d.acceptable rec.address then
        if rec.address.socketAddr ∈ s.pool.inFlight then [(rec.address,.inFlight)] else []
      else [(rec.address,.unacceptable)]
  | .offering _ net _ =>
      match s.pool.enqueue with
      | .rejected _ _ => [(net,.refused)]
      | _ => []
  | .recording _ net _ => [(net,.dispatched)]
  | _ => []

def verdictsOf (s : System) : Event → List (NetAddress × Verdict)
  | .sched => verdictOf d s
  | _ => []

def judged (s : Judged) (e : Event) : Option Judged :=
  (step d s.system e).map (fun t => ⟨t,s.verdicts ++ verdictsOf d s.system e⟩)

inductive Judges : Sched → Sched → List (NetAddress × Verdict) → Prop
  | query {now : Int64} {recs : List PeerRecord} : Judges (.ticking now) (.scanning now recs) []
  | panic {now : Int64} : Judges (.ticking now) .panicked []
  | rest {sched : Sched} (h : sched.resting = true) : Judges sched .idle []
  | finish {now : Int64} : Judges (.scanning now []) .idle []
  | pass {now : Int64} {rec : PeerRecord} {rest : List PeerRecord} {v : Verdict} (hv : v ≠ .refused)
      (h : v = .unacceptable ↔ d.acceptable rec.address = false) :
      Judges (.scanning now (rec :: rest)) (.scanning now rest) [(rec.address,v)]
  | choose {now : Int64} {rec : PeerRecord} {rest : List PeerRecord} (h : d.acceptable rec.address = true) :
      Judges (.scanning now (rec :: rest)) (.offering now rec.address rest) []
  | accept {now : Int64} {net : NetAddress} {rest : List PeerRecord} :
      Judges (.offering now net rest) (.recording now net rest) []
  | bounce {now : Int64} {net : NetAddress} {rest : List PeerRecord} :
      Judges (.offering now net rest) (.offering now net rest) []
  | refuse {now : Int64} {net : NetAddress} {rest : List PeerRecord} :
      Judges (.offering now net rest) .idle [(net,.refused)]
  | record {now : Int64} {net : NetAddress} {rest : List PeerRecord} :
      Judges (.recording now net rest) (.scanning now rest) [(net,.dispatched)]

end judging

variable {d : Node} {s t : System}

theorem judges_scanning {now : Int64} {rec : PeerRecord} {rest : List PeerRecord} {op : Option StoreOp}
    (hs : s.sched = .scanning now (rec :: rest)) (hm : schedMove d s = some (t,op)) :
    Judges d s.sched t.sched (verdictOf d s) := by
  simp only [schedMove,hs] at hm
  simp only [verdictOf,hs]
  split at hm
  · next hacc =>
    rw [if_pos hacc]
    obtain ⟨p,hp,hm⟩ := Option.map_eq_some_iff.mp hm
    cases he : s.pool.enqueue with
    | idle =>
      simp only [WorkerPool.step,he] at hp
      split at hp
      · next hin =>
        obtain rfl := Option.some.inj hp
        rw [if_pos hin]
        simp only [he] at hm
        obtain ⟨rfl,rfl⟩ := Prod.mk.inj hm
        exact .pass (by simp) (by simp [hacc])
      · next hout =>
        obtain rfl := Option.some.inj hp
        rw [if_neg hout]
        obtain ⟨rfl,rfl⟩ := Prod.mk.inj hm
        exact .choose hacc
    | inserted net => simp [WorkerPool.step,he] at hp
    | rejected net outcome => simp [WorkerPool.step,he] at hp
  · next hacc =>
    rw [if_neg hacc]
    obtain ⟨rfl,rfl⟩ := Prod.mk.inj (Option.some.inj hm)
    exact .pass (by simp) (by simpa using hacc)

theorem judges_offering {now : Int64} {net : NetAddress} {rest : List PeerRecord} {op : Option StoreOp}
    (hs : s.sched = .offering now net rest) (hm : schedMove d s = some (t,op)) :
    Judges d s.sched t.sched (verdictOf d s) := by
  simp only [schedMove,hs] at hm
  simp only [verdictOf,hs]
  cases he : s.pool.enqueue with
  | idle => simp [he] at hm
  | inserted net' =>
    simp only [he] at hm
    obtain ⟨p,_,hm⟩ := Option.map_eq_some_iff.mp hm
    split at hm
    · obtain ⟨rfl,rfl⟩ := Prod.mk.inj hm
      exact .accept
    · obtain ⟨rfl,rfl⟩ := Prod.mk.inj hm
      rw [← hs]
      exact hs ▸ .bounce
  | rejected net' outcome =>
    simp only [he] at hm
    obtain ⟨p,_,hm⟩ := Option.map_eq_some_iff.mp hm
    obtain ⟨rfl,rfl⟩ := Prod.mk.inj hm
    exact .refuse

theorem judges_of_schedMove {op : Option StoreOp} (hm : schedMove d s = some (t,op)) :
    Judges d s.sched t.sched (verdictOf d s) := by
  cases hs : s.sched with
  | idle => simp [schedMove,hs] at hm
  | panicked => simp [schedMove,hs] at hm
  | seeding accepted now =>
    simp only [schedMove,hs] at hm
    obtain ⟨rfl,rfl⟩ := Prod.mk.inj (Option.some.inj hm)
    simp only [verdictOf,hs]
    exact .rest rfl
  | pruning cutoff =>
    simp only [schedMove,hs] at hm
    obtain ⟨rfl,rfl⟩ := Prod.mk.inj (Option.some.inj hm)
    simp only [verdictOf,hs]
    exact .rest rfl
  | ticking now =>
    simp only [schedMove,hs] at hm
    simp only [verdictOf,hs]
    split at hm
    · obtain ⟨rfl,rfl⟩ := Prod.mk.inj (Option.some.inj hm)
      exact .query
    · obtain ⟨rfl,rfl⟩ := Prod.mk.inj (Option.some.inj hm)
      exact .panic
  | scanning now recs =>
    cases recs with
    | nil =>
      simp only [schedMove,hs] at hm
      obtain ⟨rfl,rfl⟩ := Prod.mk.inj (Option.some.inj hm)
      simp only [verdictOf,hs]
      exact .finish
    | cons rec rest => exact hs ▸ judges_scanning hs hm
  | offering now net rest => exact hs ▸ judges_offering hs hm
  | recording now net rest =>
    simp only [schedMove,hs] at hm
    obtain ⟨rfl,rfl⟩ := Prod.mk.inj (Option.some.inj hm)
    simp only [verdictOf,hs]
    exact .record

inductive Visits (cands : List NetAddress) (sched : Sched) (verdicts : List (NetAddress × Verdict)) : Prop
  | ongoing {rest : List NetAddress} (hp : sched.pending = some rest) (hv : ∀ v ∈ verdicts, v.2 ≠ .refused)
      (hsplit : verdicts.map Prod.fst ++ rest = cands)
  | finished (hp : sched.resting = true) (hv : ∀ v ∈ verdicts, v.2 ≠ .refused)
      (hall : verdicts.map Prod.fst = cands)
  | stopped {pre : List (NetAddress × Verdict)} {net : NetAddress} {rest : List NetAddress}
      (hp : sched.resting = true) (hlast : verdicts = pre ++ [(net,.refused)])
      (hv : ∀ v ∈ pre, v.2 ≠ .refused) (hsplit : verdicts.map Prod.fst ++ rest = cands)

structure Honest (d : Node) (sched : Sched) (verdicts : List (NetAddress × Verdict)) : Prop where
  chosen : ∀ net, sched.chosen = some net → d.acceptable net = true
  verdicts : ∀ v ∈ verdicts, v.2 = .unacceptable ↔ d.acceptable v.1 = false

variable {cands : List NetAddress} {sched sched' : Sched} {vs ws : List (NetAddress × Verdict)}

theorem Visits.rested (h : Visits cands sched vs) (hr : sched.resting = true) (hr' : sched'.resting = true) :
    Visits cands sched' vs := by
  cases h with
  | ongoing hp _ _ => cases (Sched.pending_of_resting hr).symm.trans hp
  | finished _ hv hall => exact .finished hr' hv hall
  | stopped _ hlast hv hsplit => exact .stopped hr' hlast hv hsplit

theorem Visits.active (h : Visits cands sched vs) {rest : List NetAddress} (hp : sched.pending = some rest) :
    (∀ v ∈ vs, v.2 ≠ .refused) ∧ vs.map Prod.fst ++ rest = cands := by
  cases h with
  | ongoing hp' hv hsplit => exact ⟨hv,Option.some.inj (hp.symm.trans hp') ▸ hsplit⟩
  | finished hr _ _ => cases (Sched.pending_of_resting hr).symm.trans hp
  | stopped hr _ _ _ => cases (Sched.pending_of_resting hr).symm.trans hp

theorem Visits.judge {net : NetAddress} {rest : List NetAddress} {v : Verdict} (h : Visits cands sched vs)
    (hp : sched.pending = some (net :: rest)) (hp' : sched'.pending = some rest) (hv : v ≠ .refused) :
    Visits cands sched' (vs ++ [(net,v)]) := by
  obtain ⟨hvs,hsplit⟩ := h.active hp
  refine .ongoing hp' ?_ ?_
  · intro w hw
    rcases List.mem_append.mp hw with hw | hw
    · exact hvs w hw
    · rw [List.mem_singleton.mp hw]
      exact hv
  · rw [← hsplit,List.map_append,List.append_assoc]
    rfl

theorem Visits.same {rest : List NetAddress} (h : Visits cands sched vs) (hp : sched.pending = some rest)
    (hp' : sched'.pending = some rest) : Visits cands sched' vs := by
  obtain ⟨hvs,hsplit⟩ := h.active hp
  exact .ongoing hp' hvs hsplit

theorem visits_judges (h : Visits cands sched vs) (hj : Judges d sched sched' ws) :
    Visits cands sched' (vs ++ ws) := by
  cases hj with
  | query => cases h <;> contradiction
  | panic => cases h <;> contradiction
  | rest hr =>
    rw [List.append_nil]
    exact h.rested hr rfl
  | finish =>
    obtain ⟨hvs,hsplit⟩ := h.active rfl
    rw [List.append_nil]
    exact .finished rfl hvs (by rw [← hsplit]; exact (List.append_nil _).symm)
  | pass hv _ => exact h.judge rfl rfl hv
  | choose _ =>
    rw [List.append_nil]
    exact h.same rfl rfl
  | accept =>
    rw [List.append_nil]
    exact h.same rfl rfl
  | bounce =>
    rw [List.append_nil]
    exact h
  | @refuse now net rest =>
    obtain ⟨hvs,hsplit⟩ := h.active rfl
    have hcands : (vs ++ [(net,Verdict.refused)]).map Prod.fst ++ rest.map PeerRecord.address = cands := by
      rw [← hsplit,List.map_append,List.append_assoc]
      rfl
    exact .stopped rfl rfl hvs hcands
  | record => exact h.judge rfl rfl (by simp)

theorem honest_judges (h : Honest d sched vs) (hj : Judges d sched sched' ws) :
    Honest d sched' (vs ++ ws) := by
  have hnew : (∀ net, sched'.chosen = some net → d.acceptable net = true) ∧
      ∀ v ∈ ws, v.2 = .unacceptable ↔ d.acceptable v.1 = false := by
    cases hj with
    | pass _ hacc => exact ⟨by simp [Sched.chosen],by simpa using hacc⟩
    | choose hacc => exact ⟨by simpa [Sched.chosen] using hacc,by simp⟩
    | @accept now net rest => exact ⟨by simpa [Sched.chosen] using h.chosen net rfl,by simp⟩
    | @bounce now net rest => exact ⟨by simpa [Sched.chosen] using h.chosen net rfl,by simp⟩
    | @refuse now net rest => exact ⟨by simp [Sched.chosen],by simpa using h.chosen net rfl⟩
    | @record now net rest => exact ⟨by simp [Sched.chosen],by simpa using h.chosen net rfl⟩
    | _ => exact ⟨by simp [Sched.chosen],by simp⟩
  refine ⟨hnew.1,fun v hv => ?_⟩
  rcases List.mem_append.mp hv with hv | hv
  · exact h.verdicts v hv
  · exact hnew.2 v hv

theorem sched_of_moves {e : Event} {op : Option StoreOp} (hm : Moves d s e t op) (he : e ≠ .sched)
    (htick : e ≠ .tick) : t.sched = s.sched ∨ s.sched.resting = true ∧ t.sched.resting = true ∧
      t.sched.chosen = none := by
  cases hm with
  | sched _ => exact absurd rfl he
  | tick _ => exact absurd rfl htick
  | seed _ hidle => exact Or.inr ⟨by rw [hidle]; rfl,rfl,rfl⟩
  | prune hidle => exact Or.inr ⟨by rw [hidle]; rfl,rfl,rfl⟩
  | _ => exact Or.inl rfl

theorem visits_step {l m : Judged} {e : Event} (hv : Visits cands l.system.sched l.verdicts)
    (hh : Honest d l.system.sched l.verdicts) (htick : e ≠ .tick) (hs : judged d l e = some m) :
    Visits cands m.system.sched m.verdicts ∧ Honest d m.system.sched m.verdicts := by
  obtain ⟨t,ht,rfl⟩ := Option.map_eq_some_iff.mp hs
  obtain ⟨⟨u,op⟩,hm,rfl⟩ := Option.map_eq_some_iff.mp ht
  by_cases he : e = .sched
  · subst he
    have hj := judges_of_schedMove hm
    exact ⟨visits_judges hv hj,honest_judges hh hj⟩
  · have hnone : verdictsOf d l.system e = [] := by
      cases e with
      | sched => exact absurd rfl he
      | _ => rfl
    rw [hnone,List.append_nil]
    rcases sched_of_moves (moves_of_move hm) he htick with hsame | ⟨hrest,hrest',hchosen⟩
    · change Visits cands u.sched l.verdicts ∧ Honest d u.sched l.verdicts
      rw [hsame]
      exact ⟨hv,hh⟩
    · refine ⟨hv.rested hrest hrest',fun net hnet => ?_,hh.verdicts⟩
      change u.sched.chosen = some net at hnet
      rw [hchosen] at hnet
      cases hnet

theorem visits_run {l m : Judged} {es : List Event} (hv : Visits cands l.system.sched l.verdicts)
    (hh : Honest d l.system.sched l.verdicts) (htick : ∀ e ∈ es, e ≠ .tick)
    (hrun : run (judged d) l es = some m) :
    Visits cands m.system.sched m.verdicts ∧ Honest d m.system.sched m.verdicts := by
  have hstep : ∀ l e l', e ≠ .tick →
      (Visits cands l.system.sched l.verdicts ∧ Honest d l.system.sched l.verdicts) → judged d l e = some l' →
      Visits cands l'.system.sched l'.verdicts ∧ Honest d l'.system.sched l'.verdicts :=
    fun _ _ _ he h hs => visits_step h.1 h.2 he hs
  exact run_invariant_on hstep htick ⟨hv,hh⟩ hrun

theorem Visits.leading (h : Visits cands sched vs) : vs.map Prod.fst <+: cands := by
  cases h with
  | ongoing _ _ hsplit => exact ⟨_,hsplit⟩
  | finished _ _ hall => exact hall ▸ List.prefix_refl _
  | stopped _ _ _ hsplit => exact ⟨_,hsplit⟩

theorem Visits.visited {entries : List (Bytes × PeerRecord)} {n i : Nat} {v : NetAddress × Verdict}
    (h : Visits (((entries.take n).map Prod.snd).map PeerRecord.address) sched vs) (hi : vs[i]? = some v) :
    i < n ∧ ∃ entry, entries[i]? = some entry ∧ entry.2.address = v.1 := by
  obtain ⟨rest,hsplit⟩ := h.leading
  have hlt : i < (vs.map Prod.fst).length := by
    rw [List.length_map]
    exact (List.getElem?_eq_some_iff.mp hi).1
  have hcand : (((entries.take n).map Prod.snd).map PeerRecord.address)[i]? = some v.1 := by
    rw [← hsplit,List.getElem?_append_left hlt,List.getElem?_map,hi,Option.map_some]
  simp only [List.getElem?_map,List.getElem?_take,Option.map_map,Option.map_eq_some_iff] at hcand
  obtain ⟨entry,hentry,haddr⟩ := hcand
  split at hentry
  · next hin => exact ⟨hin,entry,hentry,haddr⟩
  · cases hentry

theorem Visits.refused_last (h : Visits cands sched vs) {i : Nat} {v : NetAddress × Verdict}
    (hi : vs[i]? = some v) (hv : v.2 = .refused) : i + 1 = vs.length := by
  cases h with
  | ongoing _ hvs _ => exact absurd hv (hvs v (List.mem_of_getElem? hi))
  | finished _ hvs _ => exact absurd hv (hvs v (List.mem_of_getElem? hi))
  | @stopped pre net rest _ hlast hpre _ =>
    rw [hlast] at hi ⊢
    rw [List.length_append,List.length_singleton]
    by_contra hne
    have hlt := (List.getElem?_eq_some_iff.mp hi).1
    rw [List.length_append,List.length_singleton] at hlt
    rw [List.getElem?_append_left (by omega)] at hi
    exact hpre v (List.mem_of_getElem? hi) hv

theorem Visits.exhausted (h : Visits cands sched vs) (hidle : sched = .idle)
    (hv : ∀ v ∈ vs, v.2 ≠ .refused) : vs.map Prod.fst = cands := by
  subst hidle
  cases h with
  | ongoing hp _ _ => cases hp
  | finished _ _ hall => exact hall
  | @stopped pre net rest _ hlast _ _ => exact absurd rfl (hv (net,.refused) (by rw [hlast]; simp))

theorem visits_query {now : Int64} {recs : List PeerRecord} {m : Judged} (hs : s.sched = .ticking now)
    (hdue : dueForProbe d.codec (dueQuery d now) (fetchTarget d) s.db = some recs)
    (hstep : judged d ⟨s,[]⟩ .sched = some m) :
    Visits (recs.map PeerRecord.address) m.system.sched m.verdicts ∧
      Honest d m.system.sched m.verdicts := by
  simp only [judged,step,move,schedMove,hs,hdue,verdictsOf,verdictOf,Option.map_some,Option.some.injEq] at hstep
  obtain rfl := hstep
  exact ⟨.ongoing rfl (by simp) rfl,by simp [Sched.chosen],by simp⟩

theorem oldest_first (d : Node) (hfit : 4 * (durationToMs d.config.staleGood).toInt < 2^63) (s : System)
    (hx : Indexed d.codec s.db) (now : Int64) (hs : s.sched = .ticking now) (es : List Event)
    (htick : ∀ e ∈ es, e ≠ .tick) (t : Judged) (hrun : run (judged d) ⟨s,[]⟩ (.sched :: es) = some t) :
    (∀ i v, t.verdicts[i]? = some v → i < fetchTarget d ∧
      ∃ entry, (fullScan d.codec s.db (dueQuery d now))[i]? = some entry ∧ entry.2.address = v.1 ∧
        (v.2 = .unacceptable ↔ d.acceptable v.1 = false)) ∧
    (∀ i v, t.verdicts[i]? = some v → v.2 = .refused → i + 1 = t.verdicts.length) ∧
    (t.system.sched = .idle → (∀ v ∈ t.verdicts, v.2 ≠ .refused) →
      t.verdicts.length = min (fetchTarget d) (fullScan d.codec s.db (dueQuery d now)).length) := by
  rw [run_cons] at hrun
  obtain ⟨m,hm,hrest⟩ := Option.bind_eq_some_iff.mp hrun
  obtain ⟨hv,hh⟩ := visits_query hs (Tick.fetch_fits hx hfit) hm
  obtain ⟨hvisits,hhonest⟩ := visits_run hv hh htick hrest
  refine ⟨?_,fun i v hi => hvisits.refused_last hi,?_⟩
  · intro i v hi
    obtain ⟨hin,entry,hentry,haddr⟩ := hvisits.visited hi
    exact ⟨hin,entry,hentry,haddr,hhonest.verdicts v (List.mem_of_getElem? hi)⟩
  · intro hidle hnone
    have hall := congrArg List.length (hvisits.exhausted hidle hnone)
    rw [List.length_map,List.length_map,List.length_map,List.length_take] at hall
    exact hall

def foreignFirst : System :=
  { start Tick.strictNode (filled Bincode.standard [triedAt 2 16111 1000,triedAt 1 16112 0]) 10000000 with
    sched := .ticking 10000000 }

theorem oldest_first_foreign : ∃ t,
    run (judged Tick.strictNode) ⟨foreignFirst,[]⟩ (.sched :: List.replicate 5 .sched) = some t ∧
    t.verdicts.map Prod.fst = [⟨.v4 1,16112⟩,⟨.v4 2,16111⟩] ∧
    ∃ entry, (fullScan Bincode.standard foreignFirst.db (dueQuery Tick.strictNode 10000000))[0]? = some entry ∧
      entry.2.address = ⟨.v4 1,16112⟩ := by
  obtain ⟨t,ht⟩ : ∃ t, run (judged Tick.strictNode) ⟨foreignFirst,[]⟩ (.sched :: List.replicate 5 .sched) =
    some t := ⟨_,rfl⟩
  have hfirst : t.verdicts[0]? = some (⟨.v4 1,16112⟩,.unacceptable) := by
    obtain rfl := Option.some.inj ht
    rfl
  have hall : t.verdicts.map Prod.fst = [⟨.v4 1,16112⟩,⟨.v4 2,16111⟩] := by
    obtain rfl := Option.some.inj ht
    rfl
  have h := oldest_first Tick.strictNode (by decide) foreignFirst (exact_filled _ _).index 10000000 rfl
    (List.replicate 5 .sched) (by simp) t ht
  obtain ⟨_,entry,hentry,haddr,_⟩ := h.1 0 _ hfirst
  exact ⟨t,ht,hall,entry,hentry,haddr⟩

end System

end DnsSeeder
