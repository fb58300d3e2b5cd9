import DnsSeeder.Lib.SortedScan
import DnsSeeder.Store.Bincode
import DnsSeeder.Store.Due

namespace DnsSeeder

open Lib

namespace PeerStore

def Indexed (c : Codec) (db : Db) : Prop :=
  ∀ t k, (t,k) ∈ db.attemptIdx ↔ ∃ rec, row c db k = some rec ∧ rec.lastAttemptMs = t

def stored (c : Codec) (db : Db) : List (Bytes × PeerRecord) :=
  db.peers.iter.filterMap (fun entry => (c.decodeRecord entry.2).toOption.map (fun rec => (entry.1,rec)))

def scanKey (entry : Bytes × PeerRecord) : Int64 × Bytes := (entry.2.lastAttemptMs,entry.1)

def fullScan (c : Codec) (db : Db) (q : DueQuery) : List (Bytes × PeerRecord) :=
  ((stored c db).filter (fun entry => q.eligible entry.2 = some true)).insertionSort
    (ascending lexCmp scanKey)

def candidate (c : Codec) (db : Db) (q : DueQuery) (entry : Int64 × Bytes) : Option (Bytes × PeerRecord) :=
  ((row c db entry.2).filter (fun rec => q.eligible rec = some true)).map (fun rec => (entry.2,rec))

variable {c : Codec} {db : Db} {q : DueQuery} {max : Nat}

theorem mem_stored {key : Bytes} {rec : PeerRecord} :
    (key,rec) ∈ stored c db ↔ row c db key = some rec := by
  simp only [stored,List.mem_filterMap,row,Option.bind_eq_some_iff]
  constructor
  · rintro ⟨⟨k,v⟩,hmem,hdecode⟩
    obtain ⟨r,hr,he⟩ := Option.map_eq_some_iff.mp hdecode
    obtain ⟨rfl,rfl⟩ := Prod.mk.inj he
    exact ⟨v,(Table.mem_iter _ _ _).mp hmem,hr⟩
  · rintro ⟨v,hv,hr⟩
    exact ⟨(key,v),(Table.mem_iter _ _ _).mpr hv,by rw [hr]; rfl⟩

theorem stored_nodup : (stored c db).Nodup := by
  have hkeys : (db.peers.iter.map Prod.fst).Nodup := db.peers.iter_nodup
  rw [List.Nodup,List.pairwise_map] at hkeys
  refine List.Pairwise.filterMap _ ?_ hkeys
  intro a a' hne b hb b' hb' he
  obtain ⟨_,_,rfl⟩ := Option.map_eq_some_iff.mp hb
  obtain ⟨_,_,rfl⟩ := Option.map_eq_some_iff.mp hb'
  exact hne (Prod.mk.inj he).1

theorem mem_fullScan {key : Bytes} {rec : PeerRecord} :
    (key,rec) ∈ fullScan c db q ↔ row c db key = some rec ∧ q.eligible rec = some true := by
  rw [fullScan,(List.perm_insertionSort _ _).mem_iff,List.mem_filter,mem_stored,decide_eq_true_eq]

theorem candidate_eq_some {entry : Int64 × Bytes} {found : Bytes × PeerRecord} :
    candidate c db q entry = some found ↔
      entry.2 = found.1 ∧ row c db found.1 = some found.2 ∧ q.eligible found.2 = some true := by
  simp only [candidate,Option.map_eq_some_iff,Option.filter_eq_some_iff,decide_eq_true_eq]
  constructor
  · rintro ⟨rec,⟨hrow,helig⟩,rfl⟩
    exact ⟨rfl,hrow,helig⟩
  · rintro ⟨he,hrow,helig⟩
    exact ⟨found.2,⟨he ▸ hrow,helig⟩,by rw [he]⟩

theorem scanKey_candidate (hx : Indexed c db) {entry : Int64 × Bytes} {found : Bytes × PeerRecord}
    (hmem : entry ∈ db.attemptIdx) (hfound : candidate c db q entry = some found) :
    scanKey found = entry := by
  obtain ⟨hkey,hrow,_⟩ := candidate_eq_some.mp hfound
  obtain ⟨rec,hrow',ht⟩ := (hx entry.1 entry.2).mp hmem
  obtain rfl := Option.some.inj (hrow.symm.trans (hkey ▸ hrow'))
  exact Prod.ext ht hkey.symm

theorem candidates_ordered (hx : Indexed c db) :
    (db.attemptIdx.iter.filterMap (candidate c db q)).Pairwise
      (fun a b => lexCmp (scanKey a) (scanKey b) = .lt) := by
  rw [List.pairwise_filterMap]
  refine db.attemptIdx.iter_ordered.imp_of_mem ?_
  intro e e' he he' hlt found hfound found' hfound'
  rw [scanKey_candidate hx ((Multimap.mem_iter _ _).mp he) hfound,
    scanKey_candidate hx ((Multimap.mem_iter _ _).mp he') hfound']
  exact hlt

theorem candidates_perm (hx : Indexed c db) :
    (db.attemptIdx.iter.filterMap (candidate c db q)).Perm
      ((stored c db).filter (fun entry => q.eligible entry.2 = some true)) := by
  rw [List.perm_ext_iff_of_nodup (nodup_of_ordered (candidates_ordered hx)) (stored_nodup.filter _)]
  rintro ⟨key,rec⟩
  simp only [List.mem_filterMap,candidate_eq_some,List.mem_filter,mem_stored,decide_eq_true_eq]
  constructor
  · rintro ⟨_,_,_,hrow,helig⟩
    exact ⟨hrow,helig⟩
  · rintro ⟨hrow,helig⟩
    have hmem : (rec.lastAttemptMs,key) ∈ db.attemptIdx := (hx _ _).mpr ⟨rec,hrow,rfl⟩
    exact ⟨_,(Multimap.mem_iter _ _).mpr hmem,rfl,hrow,helig⟩

theorem candidates_eq_fullScan (hx : Indexed c db) :
    db.attemptIdx.iter.filterMap (candidate c db q) = fullScan c db q :=
  (sort_eq_of_ordered (candidates_ordered hx) (candidates_perm hx)).symm

theorem collectDue_missing {t : Int64} {key : Bytes} {entries : List (Int64 × Bytes)}
    {out : List PeerRecord} (hrow : row c db key = none) :
    collectDue c db q max ((t,key) :: entries) out = collectDue c db q max entries out := by
  rw [collectDue]
  cases hget : db.peers.get key with
  | none => rfl
  | some v =>
    cases hdecode : c.decodeRecord v with
    | error e => simp [hdecode]
    | ok rec => cases hrow.symm.trans (row_of_decode hget hdecode)

theorem collectDue_row {t : Int64} {key : Bytes} {rec : PeerRecord} {entries : List (Int64 × Bytes)}
    {out : List PeerRecord} (hrow : row c db key = some rec) :
    collectDue c db q max ((t,key) :: entries) out = (q.eligible rec).bind (fun eligible =>
      if eligible then
        if (out ++ [rec]).length ≥ max then some (out ++ [rec])
        else collectDue c db q max entries (out ++ [rec])
      else collectDue c db q max entries out) := by
  obtain ⟨v,hget,hdecode⟩ := row_eq_some.mp hrow
  rw [collectDue,hget]
  simp only [hdecode]
  rfl

theorem collectDue_eq (helig : ∀ rec, (q.eligible rec).isSome) {entries : List (Int64 × Bytes)}
    {out : List PeerRecord} (hout : out.length < max) :
    collectDue c db q max entries out =
      some ((out ++ (entries.filterMap (candidate c db q)).map Prod.snd).take max) := by
  induction entries generalizing out with
  | nil =>
    rw [collectDue,List.filterMap_nil,List.map_nil,List.append_nil,List.take_of_length_le hout.le]
  | cons entry entries ih =>
    obtain ⟨t,key⟩ := entry
    cases hrow : row c db key with
    | none =>
      have hnone : candidate c db q (t,key) = none := by simp [candidate,hrow]
      rw [collectDue_missing hrow,ih hout,List.filterMap_cons_none hnone]
    | some rec =>
      obtain ⟨eligible,he⟩ := Option.isSome_iff_exists.mp (helig rec)
      rw [collectDue_row hrow,he,Option.bind_some]
      cases eligible with
      | false =>
        have hnone : candidate c db q (t,key) = none := by simp [candidate,hrow,Option.filter,he]
        rw [if_neg Bool.false_ne_true,ih hout,List.filterMap_cons_none hnone]
      | true =>
        have hfound : candidate c db q (t,key) = some (key,rec) :=
          candidate_eq_some.mpr ⟨rfl,hrow,he⟩
        have happend : out ++ (((t,key) :: entries).filterMap (candidate c db q)).map Prod.snd =
            (out ++ [rec]) ++ (entries.filterMap (candidate c db q)).map Prod.snd := by
          rw [List.filterMap_cons_some hfound,List.map_cons,List.append_cons]
        rw [if_pos rfl,happend]
        split
        · next hfull =>
          rw [List.take_append_of_le_length hfull,List.take_of_length_le (by simpa using hout)]
        · next hmore => exact ih (Nat.lt_of_not_le hmore)

theorem eligible_isSome {threshold : Int64} (hthr : goodProbeThreshold q.staleGoodMs = some threshold)
    (rec : PeerRecord) : (q.eligible rec).isSome := by
  unfold DueQuery.eligible isEligibleForProbe
  rw [hthr]
  split
  · rfl
  · split <;> rfl

theorem toInt_min (a b : Int64) : (min a b).toInt = min a.toInt b.toInt := by
  change (if a ≤ b then a else b).toInt = _
  split
  · next hle =>
    rw [int64_le_iff] at hle
    omega
  · next hlt =>
    rw [int64_le_iff] at hlt
    omega

theorem attempt_le_ceiling {threshold : Int64} (hthr : goodProbeThreshold q.staleGoodMs = some threshold)
    (h₀ : 0 ≤ threshold.toInt) (hbad : 0 ≤ q.staleBadMs.toInt) {rec : PeerRecord}
    (helig : q.eligible rec = some true) :
    rec.lastAttemptMs ≤ saturatingSub q.nowMs (min threshold q.staleBadMs) := by
  have hgap := eligible_gap hthr h₀ hbad helig
  have hsat := toInt_saturatingSub q.nowMs (min threshold q.staleBadMs)
  have hlow := rec.lastAttemptMs.le_toInt
  have hhigh := rec.lastAttemptMs.toInt_lt
  rw [int64_le_iff,hsat,toInt_min]
  omega

theorem attemptCeiling_covers (hgood : 0 ≤ q.staleGoodMs.toInt) (hfit : 4 * q.staleGoodMs.toInt < 2^63)
    (hbad : 0 ≤ q.staleBadMs.toInt) :
    (∀ rec, (q.eligible rec).isSome) ∧ ∃ ceiling, attemptCeiling q = some ceiling ∧
      ∀ rec, q.eligible rec = some true → rec.lastAttemptMs ≤ ceiling := by
  obtain ⟨threshold,hthr,hval⟩ := goodProbeThreshold_eq hgood hfit
  have hpos : 0 ≤ threshold.toInt := by omega
  refine ⟨eligible_isSome hthr,saturatingSub q.nowMs (min threshold q.staleBadMs),?_,?_⟩
  · rw [attemptCeiling,hthr,Option.map_some]
  · exact fun _ helig => attempt_le_ceiling hthr hpos hbad helig

theorem candidates_below {ceiling : Int64} (hx : Indexed c db)
    (hceiling : ∀ rec, q.eligible rec = some true → rec.lastAttemptMs ≤ ceiling) :
    (db.attemptIdx.iter.filter (fun entry => entry.1 ≤ ceiling)).filterMap (candidate c db q) =
      db.attemptIdx.iter.filterMap (candidate c db q) := by
  rw [List.filterMap_filter]
  refine List.filterMap_congr ?_
  intro entry hmem
  cases hfound : candidate c db q entry with
  | none => exact ite_self none
  | some found =>
    obtain ⟨_,_,helig⟩ := candidate_eq_some.mp hfound
    have hkey := scanKey_candidate hx ((Multimap.mem_iter _ _).mp hmem) hfound
    have hle : entry.1 ≤ ceiling := by
      rw [← hkey]
      exact hceiling found.2 helig
    simp only [hle,decide_true,if_true]

theorem dueForProbe_take (hx : Indexed c db) (hgood : 0 ≤ q.staleGoodMs.toInt)
    (hfit : 4 * q.staleGoodMs.toInt < 2^63) (hbad : 0 ≤ q.staleBadMs.toInt) :
    dueForProbe c q max db = some (((fullScan c db q).take max).map Prod.snd) := by
  obtain ⟨helig,ceiling,hceil,hcovers⟩ := attemptCeiling_covers hgood hfit hbad
  unfold dueForProbe
  split
  · next hmax => rw [hmax]; rfl
  · next hmax =>
    rw [hceil]
    refine (collectDue_eq helig (Nat.pos_of_ne_zero hmax)).trans ?_
    rw [candidates_below hx hcovers,candidates_eq_fullScan hx,List.nil_append,List.map_take]

theorem dueForProbe_overflows (hmax : max ≠ 0) (hover : ¬ 4 * q.staleGoodMs.toInt < 2^63) :
    dueForProbe c q max db = none := by
  have hmul : checkedMul q.staleGoodMs 4 = none := by
    refine if_neg (fun h => hover ?_)
    rw [mul_comm]
    exact h.2
  have hceiling : attemptCeiling q = none := by
    rw [attemptCeiling,goodProbeThreshold,hmul]
    rfl
  rw [dueForProbe,if_neg hmax,hceiling]
  rfl

theorem due_full_scan (hx : Indexed c db) (hgood : 0 ≤ q.staleGoodMs.toInt)
    (hfit : 4 * q.staleGoodMs.toInt < 2^63) (hbad : 0 ≤ q.staleBadMs.toInt) (max : Nat) :
    dueForProbe c q max db = some (((fullScan c db q).take max).map Prod.snd) ∧
    ∃ ceiling, attemptCeiling q = some ceiling ∧
      ∀ rec, q.eligible rec = some true → rec.lastAttemptMs ≤ ceiling :=
  ⟨dueForProbe_take hx hgood hfit hbad,(attemptCeiling_covers hgood hfit hbad).2⟩

def filled (c : Codec) (recs : List PeerRecord) : Db := recs.foldl (fun db rec => upsert c rec db) .empty

theorem exact_filled (c : Codec) (recs : List PeerRecord) : Exact c (filled c recs) := by
  induction recs using List.reverseRecOn with
  | nil => exact ⟨by simp [filled,Db.empty],by simp [filled,Db.empty,row]⟩
  | append_singleton recs rec ih =>
    rw [filled,List.foldl_append]
    exact exact_exec ih (.upsert rec)

def triedAt (n : Nat) (port : UInt16) (lastAttemptMs : Int64) : PeerRecord :=
  { attemptStub ⟨.v4 (BitVec.ofNat 32 n),port⟩ 900 with lastAttemptMs }

theorem due_full_scan_oldest :
    dueForProbe Bincode.standard ⟨1000,500,100,0⟩ 2
        (filled Bincode.standard [triedAt 1 16111 50,triedAt 2 16111 20,triedAt 3 16111 990]) =
      some [triedAt 2 16111 20,triedAt 1 16111 50] := by
  rw [(due_full_scan (exact_filled _ _).index (by decide) (by decide) (by decide) 2).1]
  decide

end PeerStore

end DnsSeeder
