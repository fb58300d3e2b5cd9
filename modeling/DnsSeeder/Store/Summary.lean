import DnsSeeder.Store.Filter
import DnsSeeder.Store.FullScan

namespace DnsSeeder

open Lib

structure StoreSummary where
  total : Nat
  good : Nat
  filtered : Nat
  stale : Nat
  failed : Nat
  stub : Nat
  v4 : Nat
  v6 : Nat
  avgSuccessAgeMs : Nat
deriving DecidableEq

structure Tally where
  summary : StoreSummary
  sumAgeMs : Nat
  rawGood : Nat

def Tally.finish (t : Tally) : StoreSummary :=
  if t.rawGood > 0 then
    { t.summary with avgSuccessAgeMs := min (t.sumAgeMs / t.rawGood) (2^64 - 1) }
  else t.summary

def Tally.empty : Tally := ⟨⟨0,0,0,0,0,0,0,0,0⟩,0,0⟩

namespace PeerStore

section fold
variable (semver : Semver) (nowMs staleGoodMs : Int64) (validity : Option Filter)

def passes (rec : PeerRecord) : Bool :=
  match validity with
  | some f => f.passesValidity semver rec
  | none => true

def countFamily (ip : IpAddr) (s : StoreSummary) : StoreSummary :=
  match ip with
  | .v4 _ => { s with v4 := s.v4 + 1 }
  | .v6 _ => { s with v6 := s.v6 + 1 }

def tally (t : Tally) (rec : PeerRecord) : Tally :=
  let s := { t.summary with total := t.summary.total + 1 }
  if rec.lastSuccessMs ≤ 0 then
    if rec.lastAttemptMs ≤ 0 then { t with summary := { s with stub := s.stub + 1 } }
    else { t with summary := { s with failed := s.failed + 1 } }
  else
    let age := saturatingSub nowMs rec.lastSuccessMs
    if age ≤ staleGoodMs then
      let s := countFamily rec.address.ip s
      { summary := if passes semver validity rec then { s with good := s.good + 1 }
          else { s with filtered := s.filtered + 1 }
        sumAgeMs := if age > 0 then t.sumAgeMs + age.toInt.toNat else t.sumAgeMs
        rawGood := t.rawGood + 1 }
    else { t with summary := { s with stale := s.stale + 1 } }

def summary (c : Codec) (db : Db) : StoreSummary :=
  ((records c db).foldl (tally semver nowMs staleGoodMs validity) .empty).finish

end fold

inductive Standing where
  | good
  | filtered
  | stale
  | failed
  | stub
deriving DecidableEq

def bucket (s : StoreSummary) : Standing → Nat
  | .good => s.good
  | .filtered => s.filtered
  | .stale => s.stale
  | .failed => s.failed
  | .stub => s.stub

section spec
variable (semver : Semver) (now staleGood : Int64) (validity : Option Filter)

def current (rec : PeerRecord) : Bool :=
  decide (0 < rec.lastSuccessMs.toInt ∧ now.toInt - rec.lastSuccessMs.toInt ≤ staleGood.toInt)

def currentIn (family : Family) (rec : PeerRecord) : Bool :=
  current now staleGood rec && family.contains rec.address.ip

def successAge (rec : PeerRecord) : Nat := (now.toInt - rec.lastSuccessMs.toInt).toNat

def standing (rec : PeerRecord) : Standing :=
  if rec.lastSuccessMs ≤ 0 then if rec.lastAttemptMs ≤ 0 then .stub else .failed
  else if current now staleGood rec then if passes semver validity rec then .good else .filtered
  else .stale

structure Counted (recs : List PeerRecord) (t : Tally) : Prop where
  total : t.summary.total = recs.length
  buckets : ∀ k, bucket t.summary k = recs.countP (fun rec => standing semver now staleGood validity rec = k)
  parts : t.summary.total =
    t.summary.good + t.summary.filtered + t.summary.stale + t.summary.failed + t.summary.stub
  rawGood : t.rawGood = t.summary.good + t.summary.filtered
  v4 : t.summary.v4 = recs.countP (currentIn now staleGood .v4)
  v6 : t.summary.v6 = recs.countP (currentIn now staleGood .v6)
  window : t.rawGood = recs.countP (current now staleGood)
  ages : t.sumAgeMs = ((recs.filter (current now staleGood)).map (successAge now)).sum
  average : t.summary.avgSuccessAgeMs = 0

structure Summarized (recs : List PeerRecord) (s : StoreSummary) : Prop where
  total : s.total = recs.length
  buckets : ∀ k, bucket s k = recs.countP (fun rec => standing semver now staleGood validity rec = k)
  parts : s.total = s.good + s.filtered + s.stale + s.failed + s.stub
  window : s.good + s.filtered = recs.countP (current now staleGood)
  v4 : s.v4 = recs.countP (currentIn now staleGood .v4)
  v6 : s.v6 = recs.countP (currentIn now staleGood .v6)
  average : s.avgSuccessAgeMs =
    ((recs.filter (current now staleGood)).map (successAge now)).sum / recs.countP (current now staleGood)
  bounded : s.avgSuccessAgeMs ≤ staleGood.toInt.toNat

structure Advanced (rec : PeerRecord) (t t' : Tally) : Prop where
  total : t'.summary.total = t.summary.total + 1
  buckets : ∀ k, bucket t'.summary k =
    bucket t.summary k + if standing semver now staleGood validity rec = k then 1 else 0
  rawGood : t'.rawGood = t.rawGood + if current now staleGood rec then 1 else 0
  v4 : t'.summary.v4 = t.summary.v4 + if currentIn now staleGood .v4 rec then 1 else 0
  v6 : t'.summary.v6 = t.summary.v6 + if currentIn now staleGood .v6 rec then 1 else 0
  ages : t'.sumAgeMs = t.sumAgeMs + if current now staleGood rec then successAge now rec else 0
  average : t'.summary.avgSuccessAgeMs = t.summary.avgSuccessAgeMs

end spec

variable {semver : Semver} {now staleGood : Int64} {validity : Option Filter} {rec : PeerRecord}
  {recs : List PeerRecord} {t : Tally}

theorem current_iff : current now staleGood rec = true ↔
    ¬ rec.lastSuccessMs ≤ 0 ∧ saturatingSub now rec.lastSuccessMs ≤ staleGood := by
  have h0 : (0 : Int64).toInt = 0 := rfl
  have hlow := staleGood.le_toInt
  have hnow := now.toInt_lt
  rw [current,decide_eq_true_eq,int64_le_iff,int64_le_iff,toInt_saturatingSub,h0]
  omega

theorem add_successAge (now : Int64) (h : ¬ rec.lastSuccessMs ≤ 0) (n : Nat) :
    (if saturatingSub now rec.lastSuccessMs > 0
      then n + (saturatingSub now rec.lastSuccessMs).toInt.toNat else n) = n + successAge now rec := by
  have h0 : (0 : Int64).toInt = 0 := rfl
  have hnow := now.toInt_lt
  have hsat := toInt_saturatingSub now rec.lastSuccessMs
  rw [int64_le_iff,h0] at h
  unfold successAge
  split
  · next hpos =>
    rw [gt_iff_lt,int64_lt_iff,h0] at hpos
    omega
  · next hneg =>
    rw [gt_iff_lt,int64_lt_iff,h0] at hneg
    omega

theorem counted_empty : Counted semver now staleGood validity [] .empty :=
  ⟨rfl,by rintro (_ | _) <;> rfl,rfl,rfl,rfl,rfl,rfl,rfl,rfl⟩

theorem countFamily_spec (ip : IpAddr) (s : StoreSummary) :
    countFamily ip s = { s with
      v4 := s.v4 + if Family.v4.contains ip then 1 else 0
      v6 := s.v6 + if Family.v6.contains ip then 1 else 0 } := by
  cases ip <;> rfl

theorem families_current (recs : List PeerRecord) :
    recs.countP (currentIn now staleGood .v4) + recs.countP (currentIn now staleGood .v6) =
      recs.countP (current now staleGood) := by
  induction recs with
  | nil => rfl
  | cons rec recs ih =>
    simp only [List.countP_cons,← ih]
    cases hcur : current now staleGood rec with
    | false => simp [currentIn,hcur]
    | true =>
      cases hip : rec.address.ip with
      | v4 a => simp [currentIn,hcur,hip,Family.contains,Nat.add_right_comm]
      | v6 a => simp [currentIn,hcur,hip,Family.contains,Nat.add_assoc]

theorem current_outside (h : ¬ (¬ rec.lastSuccessMs ≤ 0 ∧ saturatingSub now rec.lastSuccessMs ≤ staleGood)) :
    current now staleGood rec = false := by
  rw [← current_iff] at h
  simpa using h

theorem current_standing (semver : Semver) (validity : Option Filter) :
    current now staleGood rec = decide (standing semver now staleGood validity rec = .good ∨
      standing semver now staleGood validity rec = .filtered) := by
  unfold standing
  split
  · next hle =>
    rw [current_outside (fun h => h.1 hle)]
    split <;> rfl
  · split
    · next hcur => split <;> simp [hcur]
    · next hcur => simp [hcur]

def bump (s : StoreSummary) : Standing → StoreSummary
  | .good => { s with good := s.good + 1 }
  | .filtered => { s with filtered := s.filtered + 1 }
  | .stale => { s with stale := s.stale + 1 }
  | .failed => { s with failed := s.failed + 1 }
  | .stub => { s with stub := s.stub + 1 }

theorem bucket_bump (s : StoreSummary) (k k' : Standing) :
    bucket (bump s k) k' = bucket s k' + if k = k' then 1 else 0 := by
  cases k <;> cases k' <;> rfl

theorem bump_frame (s : StoreSummary) (k : Standing) :
    (bump s k).total = s.total ∧ (bump s k).v4 = s.v4 ∧ (bump s k).v6 = s.v6 ∧
      (bump s k).avgSuccessAgeMs = s.avgSuccessAgeMs := by
  cases k <;> exact ⟨rfl,rfl,rfl,rfl⟩

def counting (s : StoreSummary) : StoreSummary := { s with total := s.total + 1 }

theorem advanced_outside {k : Standing} (hst : standing semver now staleGood validity rec = k)
    (hcur : current now staleGood rec = false) (t : Tally) :
    Advanced semver now staleGood validity rec t { t with summary := bump (counting t.summary) k } := by
  obtain ⟨htotal,hv4,hv6,havg⟩ := bump_frame (counting t.summary) k
  have hout : ∀ family, currentIn now staleGood family rec = false := fun family => by simp [currentIn,hcur]
  refine ⟨htotal,?_,by simp [hcur],?_,?_,by simp [hcur],havg⟩
  · intro k'
    rw [hst]
    exact bucket_bump _ k k'
  · rw [hv4,hout]
    rfl
  · rw [hv6,hout]
    rfl

theorem advanced_current {k : Standing} (hst : standing semver now staleGood validity rec = k)
    (hcur : current now staleGood rec = true) (hle : ¬ rec.lastSuccessMs ≤ 0) (t : Tally) :
    Advanced semver now staleGood validity rec t
      { summary := bump (countFamily rec.address.ip (counting t.summary)) k
        sumAgeMs := if saturatingSub now rec.lastSuccessMs > 0
          then t.sumAgeMs + (saturatingSub now rec.lastSuccessMs).toInt.toNat else t.sumAgeMs
        rawGood := t.rawGood + 1 } := by
  rw [countFamily_spec,add_successAge now hle]
  obtain ⟨htotal,hv4,hv6,havg⟩ := bump_frame { counting t.summary with
    v4 := (counting t.summary).v4 + if Family.v4.contains rec.address.ip then 1 else 0
    v6 := (counting t.summary).v6 + if Family.v6.contains rec.address.ip then 1 else 0 } k
  have hin : ∀ family : Family, currentIn now staleGood family rec = family.contains rec.address.ip :=
    fun family => by simp [currentIn,hcur]
  refine ⟨htotal,?_,by simp [hcur],?_,?_,by simp [hcur],havg⟩
  · intro k'
    rw [hst]
    exact bucket_bump _ k k'
  · rw [hv4,hin]
    rfl
  · rw [hv6,hin]
    rfl

theorem tally_advanced (t : Tally) (rec : PeerRecord) :
    Advanced semver now staleGood validity rec t (tally semver now staleGood validity t rec) := by
  unfold tally
  split
  · next hle =>
    have hcur : current now staleGood rec = false := current_outside (fun h => h.1 hle)
    split
    · next hattempt => exact advanced_outside (k := .stub) (by simp [standing,hle,hattempt]) hcur t
    · next hattempt => exact advanced_outside (k := .failed) (by simp [standing,hle,hattempt]) hcur t
  · next hle =>
    dsimp only
    split
    · next hage =>
      have hcur : current now staleGood rec = true := current_iff.mpr ⟨hle,hage⟩
      split
      · next hpass => exact advanced_current (k := .good) (by simp [standing,hle,hcur,hpass]) hcur hle t
      · next hpass => exact advanced_current (k := .filtered) (by simp [standing,hle,hcur,hpass]) hcur hle t
    · next hage =>
      have hcur : current now staleGood rec = false := current_outside (fun h => hage h.2)
      exact advanced_outside (k := .stale) (by simp [standing,hle,hcur]) hcur t

theorem counted_snoc (h : Counted semver now staleGood validity recs t) (rec : PeerRecord) :
    Counted semver now staleGood validity (recs ++ [rec]) (tally semver now staleGood validity t rec) := by
  have ha : Advanced semver now staleGood validity rec t _ := tally_advanced t rec
  generalize tally semver now staleGood validity t rec = t' at ha ⊢
  have hgood := ha.buckets .good
  have hfiltered := ha.buckets .filtered
  refine ⟨?_,?_,?_,?_,?_,?_,?_,?_,ha.average.trans h.average⟩
  · rw [ha.total,h.total,List.length_append]
    rfl
  · intro k
    rw [ha.buckets,h.buckets,List.countP_append,List.countP_singleton]
    simp
  · have hstale := ha.buckets .stale
    have hfailed := ha.buckets .failed
    have hstub := ha.buckets .stub
    have hold := h.parts
    have hnew := ha.total
    cases hst : standing semver now staleGood validity rec <;>
      simp only [bucket,hst,reduceCtorEq,if_true,if_false] at hgood hfiltered hstale hfailed hstub <;> omega
  · have hold := h.rawGood
    have hnew := ha.rawGood
    rw [current_standing semver validity] at hnew
    cases hst : standing semver now staleGood validity rec <;>
      simp [bucket,hst] at hgood hfiltered hnew <;> omega
  · rw [ha.v4,h.v4,List.countP_append,List.countP_singleton]
  · rw [ha.v6,h.v6,List.countP_append,List.countP_singleton]
  · rw [ha.rawGood,h.window,List.countP_append,List.countP_singleton]
  · rw [ha.ages,h.ages,List.filter_append,List.map_append,List.sum_append]
    cases hcur : current now staleGood rec <;> simp [hcur]

theorem counted_records (recs : List PeerRecord) :
    Counted semver now staleGood validity recs
      (recs.foldl (tally semver now staleGood validity) .empty) := by
  induction recs using List.reverseRecOn with
  | nil => exact counted_empty
  | append_singleton recs rec ih =>
    rw [List.foldl_append]
    exact counted_snoc ih rec

theorem sum_successAge_le (hpos : 0 ≤ staleGood.toInt) (recs : List PeerRecord) :
    ((recs.filter (current now staleGood)).map (successAge now)).sum ≤
      recs.countP (current now staleGood) * staleGood.toInt.toNat := by
  rw [List.countP_eq_length_filter,← List.length_map (f := successAge now)]
  refine List.sum_le_card_nsmul _ _ ?_
  intro age hage
  obtain ⟨rec,hrec,rfl⟩ := List.mem_map.mp hage
  have hcur := (List.mem_filter.mp hrec).2
  rw [current,decide_eq_true_eq] at hcur
  unfold successAge
  omega

theorem Counted.average_le (h : Counted semver now staleGood validity recs t) (hpos : 0 ≤ staleGood.toInt) :
    t.sumAgeMs / t.rawGood ≤ staleGood.toInt.toNat := by
  rw [h.ages,h.window]
  exact Nat.div_le_of_le_mul (sum_successAge_le hpos recs)

theorem Counted.finish (h : Counted semver now staleGood validity recs t) (hpos : 0 ≤ staleGood.toInt) :
    Summarized semver now staleGood validity recs t.finish := by
  have hle := h.average_le hpos
  have hlt := staleGood.toInt_lt
  have havg : t.finish = { t.summary with avgSuccessAgeMs := t.sumAgeMs / t.rawGood } := by
    unfold Tally.finish
    split
    · rw [Nat.min_eq_left (by omega)]
    · next hzero =>
      have hraw : t.rawGood = 0 := by omega
      rw [hraw,Nat.div_zero,← h.average]
  rw [havg]
  refine ⟨h.total,fun k => ?_,h.parts,h.rawGood.symm.trans h.window,h.v4,h.v6,?_,hle⟩
  · rw [← h.buckets]
    cases k <;> rfl
  · rw [← h.ages,← h.window]

theorem summarized (c : Codec) (semver : Semver) (db : Db) (now : Int64) (hpos : 0 ≤ staleGood.toInt)
    (validity : Option Filter) : Summarized semver now staleGood validity (records c db)
      (summary semver now staleGood validity c db) :=
  (counted_records _).finish hpos

theorem length_records {c : Codec} {db : Db}
    (hd : ∀ k v, db.peers.get k = some v → ∃ rec, c.decodeRecord v = .ok rec) :
    (records c db).length = db.peers.iter.length := by
  have hrows : ∀ row ∈ db.peers.iter, ∃ rec, c.decodeRecord row.2 = .ok rec :=
    fun row hrow => hd row.1 row.2 ((Table.mem_iter _ _ _).mp hrow)
  unfold records
  generalize db.peers.iter = rows at hrows
  induction rows with
  | nil => rfl
  | cons row rows ih =>
    obtain ⟨rec,hrec⟩ := hrows row (by simp)
    have hrest := ih (fun r hr => hrows r (by simp [hr]))
    simpa [hrec,Except.toOption] using hrest

theorem current_eq (now staleGood : Int64) : current now staleGood = fun rec =>
    decide (0 < rec.lastSuccessMs.toInt) && decide (now.toInt - rec.lastSuccessMs.toInt ≤ staleGood.toInt) := by
  funext rec
  rw [current,Bool.decide_and]

theorem successAge_eq (now : Int64) :
    successAge now = fun rec => (max 0 (now.toInt - rec.lastSuccessMs.toInt)).toNat := by
  funext rec
  rw [successAge]
  omega

theorem int64_le_zero_iff (v : Int64) : v ≤ 0 ↔ (!decide (0 < v.toInt)) = true := by
  have h0 : (0 : Int64).toInt = 0 := rfl
  rw [int64_le_iff,h0,Bool.not_eq_true',decide_eq_false_iff_not,Int.not_lt]

theorem standing_spelled (semver : Semver) (now staleGood : Int64) (validity : Option Filter)
    (rec : PeerRecord) :
    let answered := decide (0 < rec.lastSuccessMs.toInt)
    let recent := decide (now.toInt - rec.lastSuccessMs.toInt ≤ staleGood.toInt)
    let tried := decide (0 < rec.lastAttemptMs.toInt)
    ∀ k, decide (standing semver now staleGood validity rec = k) = match k with
      | .good => answered && recent && passes semver validity rec
      | .filtered => answered && recent && !passes semver validity rec
      | .stale => answered && !recent
      | .failed => !answered && tried
      | .stub => !answered && !tried := by
  intro answered recent tried k
  have hcur : current now staleGood rec = (answered && recent) := congrFun (current_eq now staleGood) rec
  simp only [standing,hcur,int64_le_zero_iff]
  change decide ((if (!answered) = true then if (!tried) = true then Standing.stub else .failed else _) = k) = _
  cases answered <;> cases recent <;> cases tried <;> cases passes semver validity rec <;> cases k <;> rfl

theorem summary_partition (c : Codec) (semver : Semver) (db : Db)
    (hd : ∀ k v, db.peers.get k = some v → ∃ rec, c.decodeRecord v = .ok rec) (now staleGood : Int64)
    (hpos : 0 ≤ staleGood.toInt) (validity : Option Filter) :
    let s := summary semver now staleGood validity c db
    let answered := fun rec : PeerRecord => decide (0 < rec.lastSuccessMs.toInt)
    let recent := fun rec : PeerRecord => decide (now.toInt - rec.lastSuccessMs.toInt ≤ staleGood.toInt)
    let tried := fun rec : PeerRecord => decide (0 < rec.lastAttemptMs.toInt)
    s.total = db.peers.iter.length ∧
    s.total = s.good + s.filtered + s.stale + s.failed + s.stub ∧
    s.good = (records c db).countP (fun rec => answered rec && recent rec && passes semver validity rec) ∧
    s.filtered = (records c db).countP (fun rec => answered rec && recent rec && !passes semver validity rec) ∧
    s.stale = (records c db).countP (fun rec => answered rec && !recent rec) ∧
    s.failed = (records c db).countP (fun rec => !answered rec && tried rec) ∧
    s.stub = (records c db).countP (fun rec => !answered rec && !tried rec) ∧
    s.v4 = (records c db).countP (fun rec => answered rec && recent rec && Family.v4.contains rec.address.ip) ∧
    s.v6 = (records c db).countP (fun rec => answered rec && recent rec && Family.v6.contains rec.address.ip) ∧
    s.v4 + s.v6 = s.good + s.filtered ∧
    (∀ validity', (summary semver now staleGood validity' c db).good +
      (summary semver now staleGood validity' c db).filtered = s.good + s.filtered) ∧
    (validity = none → s.filtered = 0) ∧
    (s.avgSuccessAgeMs : Int) ≤ staleGood.toInt ∧
    s.avgSuccessAgeMs =
      (((records c db).filter (fun rec => answered rec && recent rec)).map
        (fun rec => (max 0 (now.toInt - rec.lastSuccessMs.toInt)).toNat)).sum /
      (records c db).countP (fun rec => answered rec && recent rec) := by
  intro s answered recent tried
  have hs : Summarized semver now staleGood validity (records c db) s :=
    summarized c semver db now hpos validity
  have hbucket : ∀ k, bucket s k = _ := fun k => (hs.buckets k).trans
    (congrArg (List.countP · _) (funext fun rec => standing_spelled semver now staleGood validity rec k))
  have hcurrent : current now staleGood = fun rec => answered rec && recent rec := current_eq now staleGood
  have hfamily : ∀ family, currentIn now staleGood family =
      fun rec => answered rec && recent rec && family.contains rec.address.ip := by
    intro family
    funext rec
    rw [currentIn,hcurrent]
  refine ⟨hs.total.trans (length_records hd),hs.parts,hbucket .good,hbucket .filtered,hbucket .stale,
    hbucket .failed,hbucket .stub,hfamily .v4 ▸ hs.v4,hfamily .v6 ▸ hs.v6,?_,?_,?_,?_,?_⟩
  · rw [hs.v4,hs.v6,families_current,hs.window]
  · intro validity'
    rw [hs.window]
    exact (summarized c semver db now hpos validity').window
  · rintro rfl
    refine (hbucket .filtered).trans (List.countP_eq_zero.mpr ?_)
    intro rec _
    simp [passes]
  · have hle := hs.bounded
    omega
  · rw [hs.average,hcurrent,successAge_eq]

def answeredAt (n : Nat) (protocolVersion : UInt32) (lastSuccessMs : Int64) : PeerRecord :=
  { triedAt n 16111 lastSuccessMs with protocolVersion, lastSuccessMs }

def mixedRows : List PeerRecord :=
  [triedAt 1 16111 0,triedAt 2 16111 20,answeredAt 3 7 900,answeredAt 4 7 1200,answeredAt 5 6 970,
    answeredAt 6 7 499]

theorem summary_partition_answered :
    let validity : Filter := .serving 1000 500 (some 7) none none none
    let s := summary ⟨fun _ => none⟩ 1000 500 (some validity) Bincode.standard
      (filled Bincode.standard mixedRows)
    s.total = 6 ∧ s.good = 2 ∧ s.filtered = 1 ∧ s.stale = 1 ∧ s.failed = 1 ∧ s.stub = 1 ∧
      s.v4 + s.v6 = s.good + s.filtered ∧ (s.avgSuccessAgeMs : Int) ≤ 500 ∧ s.avgSuccessAgeMs = 43 := by
  intro validity s
  obtain ⟨htotal,_,hgood,hfiltered,hstale,hfailed,hstub,_,_,hfamilies,_,_,hbound,havg⟩ :=
    summary_partition Bincode.standard ⟨fun _ => none⟩ (filled Bincode.standard mixedRows)
      (exact_filled _ _).decodes 1000 500 (by decide) (some validity)
  refine ⟨htotal.trans ?_,hgood.trans ?_,hfiltered.trans ?_,hstale.trans ?_,hfailed.trans ?_,hstub.trans ?_,
    hfamilies,hbound,havg.trans ?_⟩
  all_goals decide

end PeerStore

end DnsSeeder
