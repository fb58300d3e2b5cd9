import DnsSeeder.Store.View

namespace DnsSeeder

open Lib

namespace PeerStore

structure DueQuery where
  nowMs : Int64
  staleGoodMs : Int64
  staleBadMs : Int64
  deadCutoffMs : Int64

def DueQuery.eligible (q : DueQuery) (rec : PeerRecord) : Option Bool :=
  isEligibleForProbe rec q.nowMs q.staleGoodMs q.staleBadMs q.deadCutoffMs

def attemptCeiling (q : DueQuery) : Option Int64 :=
  (goodProbeThreshold q.staleGoodMs).map (fun threshold => saturatingSub q.nowMs (min threshold q.staleBadMs))

def collectDue (c : Codec) (db : Db) (q : DueQuery) (max : Nat) :
    List (Int64 × Bytes) → List PeerRecord → Option (List PeerRecord)
  | [], out => some out
  | (_,key) :: rest, out =>
      match db.peers.get key with
      | none => collectDue c db q max rest out
      | some v =>
          match c.decodeRecord v with
          | .error _ => collectDue c db q max rest out
          | .ok rec => do
              if ← q.eligible rec then
                let out := out ++ [rec]
                if out.length ≥ max then return out else collectDue c db q max rest out
              else collectDue c db q max rest out

def dueForProbe (c : Codec) (q : DueQuery) (max : Nat) (db : Db) : Option (List PeerRecord) :=
  if max = 0 then some []
  else do
    let ceiling ← attemptCeiling q
    collectDue c db q max (db.attemptIdx.iter.filter (fun entry => entry.1 ≤ ceiling)) []

def Due (c : Codec) (db : Db) (q : DueQuery) (rec : PeerRecord) : Prop :=
  (∃ key, row c db key = some rec) ∧ q.eligible rec = some true

theorem due_of_collectDue {c : Codec} {db : Db} {q : DueQuery} {max : Nat}
    {entries : List (Int64 × Bytes)} {out result : List PeerRecord}
    (hout : ∀ rec ∈ out, Due c db q rec) (h : collectDue c db q max entries out = some result) :
    ∀ rec ∈ result, Due c db q rec := by
  induction entries generalizing out with
  | nil =>
    rw [collectDue,Option.some.injEq] at h
    exact h ▸ hout
  | cons entry entries ih =>
    obtain ⟨t,key⟩ := entry
    rw [collectDue] at h
    split at h
    · exact ih hout h
    · next v hv =>
      split at h
      · exact ih hout h
      · next rec hd =>
        obtain ⟨eligible,he,h⟩ := Option.bind_eq_some_iff.mp h
        cases eligible with
        | false => exact ih hout (by simpa using h)
        | true =>
          have hdue : Due c db q rec := ⟨⟨key,row_of_decode hv hd⟩,he⟩
          have hout' : ∀ r ∈ out ++ [rec], Due c db q r := by
            intro r hr
            rcases List.mem_append.mp hr with hr | hr
            · exact hout r hr
            · rw [List.mem_singleton] at hr
              exact hr ▸ hdue
          simp only [if_true] at h
          split at h
          · obtain rfl := Option.some.inj h
            exact hout'
          · exact ih hout' h

theorem due_of_dueForProbe {c : Codec} {db : Db} {q : DueQuery} {max : Nat} {result : List PeerRecord}
    (h : dueForProbe c q max db = some result) : ∀ rec ∈ result, Due c db q rec := by
  unfold dueForProbe at h
  split at h
  · obtain rfl := Option.some.inj h
    simp
  · obtain ⟨ceiling,_,h⟩ := Option.bind_eq_some_iff.mp h
    exact due_of_collectDue (by simp) h

theorem goodProbeThreshold_eq {staleGoodMs : Int64} (h₀ : 0 ≤ staleGoodMs.toInt)
    (h : 4 * staleGoodMs.toInt < 2^63) :
    ∃ threshold, goodProbeThreshold staleGoodMs = some threshold ∧
      threshold.toInt = 4 * staleGoodMs.toInt / 5 := by
  have hmul : checkedMul staleGoodMs 4 = some (Int64.ofInt (staleGoodMs.toInt * 4)) :=
    checked_of_range (by change _ ≤ staleGoodMs.toInt * 4; omega)
      (by change staleGoodMs.toInt * 4 < _; omega)
  refine ⟨_,by rw [goodProbeThreshold,hmul]; rfl,?_⟩
  have hval : (Int64.ofInt (staleGoodMs.toInt * 4)).toInt = staleGoodMs.toInt * 4 :=
    Int64.toInt_ofInt_of_le (by omega) (by omega)
  rw [Int64.toInt_div,hval,mul_comm]
  change ((4 * staleGoodMs.toInt).tdiv 5).bmod (2^64) = _
  rw [Int.tdiv_eq_ediv_of_nonneg (by omega)]
  exact Int.bmod_eq_of_le (by omega) (by omega)

theorem goodProbeThreshold_nonneg {staleGoodMs threshold : Int64} (h₀ : 0 ≤ staleGoodMs.toInt)
    (h : goodProbeThreshold staleGoodMs = some threshold) : 0 ≤ threshold.toInt := by
  obtain ⟨product,hproduct,_⟩ := Option.map_eq_some_iff.mp h
  have hval : product.toInt = staleGoodMs.toInt * 4 := checked_eq_some hproduct
  have hlt := product.toInt_lt
  obtain ⟨threshold',hthr,hval'⟩ := goodProbeThreshold_eq h₀ (by omega)
  obtain rfl := Option.some.inj (h.symm.trans hthr)
  omega

theorem attempt_le_of_eligible {q : DueQuery} {rec : PeerRecord} (hgood : 0 ≤ q.staleGoodMs.toInt)
    (hbad : 0 ≤ q.staleBadMs.toInt) (h : q.eligible rec = some true) : rec.lastAttemptMs ≤ q.nowMs := by
  have hsat := toInt_saturatingSub q.nowMs rec.lastAttemptMs
  rw [int64_le_iff]
  unfold DueQuery.eligible isEligibleForProbe at h
  split at h
  · simp at h
  · split at h
    · obtain ⟨threshold,hthr,h⟩ := Option.bind_eq_some_iff.mp h
      have hpos := goodProbeThreshold_nonneg hgood hthr
      have hle : threshold ≤ _ := of_decide_eq_true (Option.some.inj h)
      rw [int64_le_iff] at hle
      omega
    · have hle : q.staleBadMs ≤ _ := of_decide_eq_true (Option.some.inj h)
      rw [int64_le_iff] at hle
      omega

theorem eligible_gap {q : DueQuery} {rec : PeerRecord} {threshold : Int64}
    (hthr : goodProbeThreshold q.staleGoodMs = some threshold) (h₀ : 0 ≤ threshold.toInt)
    (hbad : 0 ≤ q.staleBadMs.toInt) (h : q.eligible rec = some true) :
    min threshold.toInt q.staleBadMs.toInt ≤ q.nowMs.toInt - rec.lastAttemptMs.toInt := by
  have hlt := threshold.toInt_lt
  have hsat := toInt_saturatingSub q.nowMs rec.lastAttemptMs
  unfold DueQuery.eligible isEligibleForProbe at h
  rw [hthr] at h
  split at h
  · simp at h
  · split at h
    · simp only [Option.bind_eq_bind,Option.bind_some,Option.pure_def,Option.some.injEq,
        decide_eq_true_eq,ge_iff_le,int64_le_iff] at h
      omega
    · simp only [Option.bind_eq_bind,Option.bind_some,Option.pure_def,Option.some.injEq,
        decide_eq_true_eq,ge_iff_le,int64_le_iff] at h
      omega

end PeerStore

end DnsSeeder
