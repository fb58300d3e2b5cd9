import DnsSeeder.Store.FullScan

namespace DnsSeeder

open Lib

theorem isDead_iff {rec : PeerRecord} {cutoff : Int64} : isDead rec cutoff = true ↔
    (0 < rec.lastSuccessMs ∧ rec.lastSuccessMs < cutoff) ∨
      (rec.lastSeenMs < cutoff ∧ rec.firstSeenMs < cutoff) := by
  unfold isDead
  split
  · next h => exact ⟨fun _ => Or.inl h,fun _ => rfl⟩
  · next h =>
    rw [Bool.and_eq_true,decide_eq_true_eq,decide_eq_true_eq]
    exact ⟨Or.inr,fun hor => hor.resolve_left h⟩

theorem isDead_mono {rec : PeerRecord} {cutoff cutoff' : Int64} (hle : cutoff ≤ cutoff')
    (h : isDead rec cutoff = true) : isDead rec cutoff' = true := by
  rw [isDead_iff] at h ⊢
  refine h.imp ?_ ?_
  · exact fun ⟨hpos,hlt⟩ => ⟨hpos,Int64.lt_of_lt_of_le hlt hle⟩
  · exact fun ⟨hseen,hfirst⟩ => ⟨Int64.lt_of_lt_of_le hseen hle,Int64.lt_of_lt_of_le hfirst hle⟩

theorem isDead_max (rec : PeerRecord) (cutoff cutoff' : Int64) :
    isDead rec (max cutoff cutoff') = (isDead rec cutoff || isDead rec cutoff') := by
  change isDead rec (if cutoff ≤ cutoff' then cutoff' else cutoff) = _
  split
  · next hle =>
    cases h : isDead rec cutoff with
    | false => rfl
    | true => rw [isDead_mono hle h]; rfl
  · next hlt =>
    have hle : cutoff' ≤ cutoff := (Int64.le_total cutoff cutoff').resolve_left hlt
    cases h : isDead rec cutoff' with
    | false => rw [Bool.or_false]
    | true => rw [isDead_mono hle h]; rfl

namespace PeerStore

structure Pruned (c : Codec) (cutoff : Int64) (db : Db) (deleted : Nat) (db' : Db) : Prop where
  deleted : deleted = (stored c db).countP (fun entry => isDead entry.2 cutoff)
  rows : ∀ key, db'.peers.get key = if deadAt c cutoff db key then none else db.peers.get key
  index : ∀ t key, (t,key) ∈ db'.attemptIdx ↔ (t,key) ∈ db.attemptIdx ∧ deadAt c cutoff db key = false

variable {c : Codec} {db db' db'' : Db} {cutoff cutoff' : Int64} {n n' : Nat}

theorem deadRow_isSome (key v : Bytes) : (deadRow c cutoff (key,v)).isSome =
    (((c.decodeRecord v).toOption.map (fun rec => (key,rec))).map
      (fun entry => isDead entry.2 cutoff)).getD false := by
  unfold deadRow
  cases c.decodeRecord v with
  | error e => rfl
  | ok rec =>
    change (if isDead rec cutoff = true then some (key,rec.lastAttemptMs) else none).isSome =
      isDead rec cutoff
    cases isDead rec cutoff <;> rfl

theorem pruneDead_count (cutoff : Int64) (db : Db) :
    (pruneDead c cutoff db).1 = (stored c db).countP (fun entry => isDead entry.2 cutoff) := by
  rw [stored,List.countP_filterMap]
  refine List.length_filterMap_eq_countP.trans (congrArg (List.countP · _) ?_)
  funext entry
  exact deadRow_isSome entry.1 entry.2

theorem pruned (hx : Exact c db) (cutoff : Int64) :
    Pruned c cutoff db (pruneDead c cutoff db).1 (pruneDead c cutoff db).2 := by
  refine ⟨pruneDead_count cutoff db,pruneDead_get cutoff db,?_⟩
  intro t key
  rw [(exact_pruneDead hx cutoff).index,hx.index,row_pruneDead,deadAt]
  cases row c db key with
  | none => simp
  | some rec => cases hd : isDead rec cutoff <;> simp [hd]

theorem stored_pruned (cutoff : Int64) (db : Db) :
    (stored c (pruneDead c cutoff db).2).Perm
      ((stored c db).filter (fun entry => !isDead entry.2 cutoff)) := by
  rw [List.perm_ext_iff_of_nodup stored_nodup (stored_nodup.filter _)]
  rintro ⟨key,rec⟩
  rw [mem_stored,row_pruneDead,Option.filter_eq_some_iff,List.mem_filter,mem_stored]

theorem pruneDead_twice (hx : Exact c db) (cutoff cutoff' : Int64) :
    (pruneDead c cutoff' (pruneDead c cutoff db).2).2 = (pruneDead c (max cutoff cutoff') db).2 := by
  have hfirst := pruned hx cutoff
  have hboth := pruned hx (max cutoff cutoff')
  have hsecond := pruned (exact_pruneDead hx cutoff) cutoff'
  have hdead : ∀ key, deadAt c (max cutoff cutoff') db key =
      (deadAt c cutoff db key || deadAt c cutoff' (pruneDead c cutoff db).2 key) := by
    intro key
    rw [deadAt,deadAt,deadAt,row_pruneDead]
    cases row c db key with
    | none => rfl
    | some rec => cases hd : isDead rec cutoff <;> simp [hd,isDead_max]
  apply Db.ext
  · intro key
    rw [hsecond.rows,hfirst.rows,hboth.rows,hdead]
    cases deadAt c cutoff db key <;> simp
  · rintro ⟨t,key⟩
    rw [hsecond.index,hfirst.index,hboth.index,hdead,Bool.or_eq_false_iff,and_assoc]

theorem pruneDead_counts_add (cutoff cutoff' : Int64) (db : Db) :
    (pruneDead c cutoff db).1 + (pruneDead c cutoff' (pruneDead c cutoff db).2).1 =
      (pruneDead c (max cutoff cutoff') db).1 := by
  rw [pruneDead_count,pruneDead_count,pruneDead_count,(stored_pruned cutoff db).countP_eq,
    List.countP_eq_countP_filter_add (stored c db) (fun entry => isDead entry.2 (max cutoff cutoff'))
      (fun entry => isDead entry.2 cutoff),List.countP_filter,List.countP_filter,List.countP_filter]
  congr 1
  · refine List.countP_congr (fun entry _ => ?_)
    rw [isDead_max]
    cases isDead entry.2 cutoff <;> simp
  · refine List.countP_congr (fun entry _ => ?_)
    rw [isDead_max]
    cases isDead entry.2 cutoff <;> simp

theorem not_dead_of_eligible {q : DueQuery} {rec : PeerRecord} (hle : cutoff ≤ q.deadCutoffMs)
    (h : q.eligible rec = some true) : isDead rec cutoff = false := by
  cases hd : isDead rec cutoff with
  | false => rfl
  | true =>
    rw [DueQuery.eligible,isEligibleForProbe,if_pos (isDead_mono hle hd)] at h
    cases h

theorem fullScan_pruned (hx : Exact c db) {q : DueQuery} (hle : cutoff ≤ q.deadCutoffMs) :
    fullScan c (pruneDead c cutoff db).2 q = fullScan c db q := by
  have hx' := exact_pruneDead hx cutoff
  have hsame : (fun entry : Bytes × PeerRecord =>
      decide (q.eligible entry.2 = some true) && !isDead entry.2 cutoff) =
      fun entry => decide (q.eligible entry.2 = some true) := by
    funext entry
    cases h : decide (q.eligible entry.2 = some true) with
    | false => rfl
    | true => rw [not_dead_of_eligible hle (of_decide_eq_true h)]; rfl
  have hperm := (stored_pruned (c := c) cutoff db).filter (fun entry => q.eligible entry.2 = some true)
  rw [List.filter_filter,hsame] at hperm
  rw [← candidates_eq_fullScan hx'.index]
  exact (sort_eq_of_ordered (candidates_ordered hx'.index) ((candidates_perm hx'.index).trans hperm)).symm

theorem prune_exact (c : Codec) (db : Db) (hx : Exact c db) (c₁ c₂ : Int64) :
    Pruned c c₁ db (pruneDead c c₁ db).1 (pruneDead c c₁ db).2 ∧
    (pruneDead c c₂ (pruneDead c c₁ db).2).2 = (pruneDead c (max c₁ c₂) db).2 ∧
    (pruneDead c c₁ db).1 + (pruneDead c c₂ (pruneDead c c₁ db).2).1 = (pruneDead c (max c₁ c₂) db).1 ∧
    ∀ q : DueQuery, c₁ ≤ q.deadCutoffMs → 0 ≤ q.staleGoodMs.toInt → 4 * q.staleGoodMs.toInt < 2^63 →
      0 ≤ q.staleBadMs.toInt → ∀ limit,
      dueForProbe c q limit (pruneDead c c₁ db).2 = dueForProbe c q limit db := by
  refine ⟨pruned hx c₁,pruneDead_twice hx c₁ c₂,pruneDead_counts_add c₁ c₂ db,?_⟩
  intro q hle hgood hfit hbad limit
  rw [dueForProbe_take (exact_pruneDead hx c₁).index hgood hfit hbad,dueForProbe_take hx.index hgood hfit hbad,
    fullScan_pruned hx hle]

def prunable : List PeerRecord :=
  [triedAt 1 16111 50,{ triedAt 2 16111 20 with firstSeenMs := 100 },
    { triedAt 3 16111 30 with lastSuccessMs := 40 }]

theorem prune_exact_filled :
    (pruneDead Bincode.standard 950 (pruneDead Bincode.standard 500 (filled Bincode.standard prunable)).2).2 =
      (pruneDead Bincode.standard (max 500 950) (filled Bincode.standard prunable)).2 ∧
    dueForProbe Bincode.standard ⟨1000,500,100,600⟩ 1
        (pruneDead Bincode.standard 500 (filled Bincode.standard prunable)).2 =
      dueForProbe Bincode.standard ⟨1000,500,100,600⟩ 1 (filled Bincode.standard prunable) := by
  obtain ⟨_,htwice,_,hdue⟩ :=
    prune_exact Bincode.standard (filled Bincode.standard prunable) (exact_filled _ _) 500 950
  exact ⟨htwice,hdue ⟨1000,500,100,600⟩ (by decide) (by decide) (by decide) (by decide) 1⟩

end PeerStore

end DnsSeeder
