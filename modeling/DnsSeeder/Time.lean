import Mathlib.Tactic

namespace DnsSeeder.Lib

def checked (x : Int) : Option Int64 :=
  if -2^63 ≤ x ∧ x < 2^63 then some (Int64.ofInt x) else none

def checkedSub (a b : Int64) : Option Int64 := checked (a.toInt - b.toInt)
def checkedMul (a b : Int64) : Option Int64 := checked (a.toInt * b.toInt)
def saturatingSub (a b : Int64) : Int64 := Int64.ofIntClamp (a.toInt - b.toInt)

theorem checked_eq_some {x : Int} {r : Int64} (h : checked x = some r) : r.toInt = x := by
  unfold checked at h
  split at h
  · next hx =>
    obtain rfl := Option.some.inj h
    exact Int64.toInt_ofInt_of_le hx.1 hx.2
  · simp at h

theorem checked_of_range {x : Int} (h : -2^63 ≤ x) (h' : x < 2^63) :
    checked x = some (Int64.ofInt x) := if_pos ⟨h,h'⟩

theorem toInt_ofIntClamp (x : Int) :
    (Int64.ofIntClamp x).toInt = max (-2^63) (min (2^63-1) x) := by
  have hmin := Int64.toInt_minValue
  have hmax := Int64.toInt_maxValue
  unfold Int64.ofIntClamp
  split
  · split
    · rw [Int64.toInt_ofIntLE]; omega
    · omega
  · omega

theorem toInt_saturatingSub (a b : Int64) :
    (saturatingSub a b).toInt = max (-2^63) (min (2^63-1) (a.toInt - b.toInt)) :=
  toInt_ofIntClamp _

theorem int64_le_iff {a b : Int64} : a ≤ b ↔ a.toInt ≤ b.toInt := Int64.le_iff_toInt_le
theorem int64_lt_iff {a b : Int64} : a < b ↔ a.toInt < b.toInt := Int64.lt_iff_toInt_lt

end DnsSeeder.Lib

namespace DnsSeeder

structure Duration where
  secs : UInt64
  nanos : UInt32
  nanos_lt : nanos.toNat < 10^9
deriving DecidableEq

namespace Duration

def asMillis (d : Duration) : Nat := d.secs.toNat * 1000 + d.nanos.toNat / 10^6

def asNanos (d : Duration) : Nat := d.secs.toNat * 10^9 + d.nanos.toNat

def fromSecs (secs : UInt64) : Duration := ⟨secs,0,by decide⟩

def ofNanos (total : Nat) : Option Duration :=
  if total < 2^64 * 10^9 then
    some ⟨UInt64.ofNat (total / 10^9),UInt32.ofNat (total % 10^9),by
      rw [UInt32.toNat_ofNat_of_lt' (by change _ < 2^32; omega)]
      omega⟩
  else none

def checkedAdd (d e : Duration) : Option Duration := ofNanos (d.asNanos + e.asNanos)

def checkedMul (d : Duration) (n : Nat) : Option Duration := ofNanos (d.asNanos * n)

theorem ofNanos_fits {total : Nat} (h : total < 2^64 * 10^9) :
    ∃ d, ofNanos total = some d ∧ d.asNanos = total := by
  refine ⟨_,if_pos h,?_⟩
  simp only [asNanos]
  rw [UInt64.toNat_ofNat_of_lt' (by change _ < 2^64; omega),
    UInt32.toNat_ofNat_of_lt' (by change _ < 2^32; omega)]
  omega

theorem ofNanos_isSome_iff {total : Nat} : (ofNanos total).isSome ↔ total < 2^64 * 10^9 := by
  simp only [ofNanos,Option.isSome_ite]

theorem ofNanos_overflow {total : Nat} (h : ¬ total < 2^64 * 10^9) : ofNanos total = none := if_neg h

theorem ofNanos_checkedAdd (total : Nat) (e : Duration) :
    (ofNanos total).bind (fun d => d.checkedAdd e) = ofNanos (total + e.asNanos) := by
  by_cases h : total < 2^64 * 10^9
  · obtain ⟨d,hd,hval⟩ := ofNanos_fits h
    rw [hd,Option.bind_some,checkedAdd,hval]
  · rw [ofNanos_overflow h,ofNanos_overflow (by omega),Option.bind_none]

theorem checkedMul_sum (d e f : Duration) {m n : Nat} (h : e.asNanos * n < 2^64 * 10^9) :
    (d.checkedMul m).bind (fun a => (e.checkedMul n).bind (fun b =>
      (a.checkedAdd b).bind (fun total => total.checkedAdd f))) =
      ofNanos (d.asNanos * m + e.asNanos * n + f.asNanos) := by
  obtain ⟨b,hb,hbval⟩ := ofNanos_fits h
  by_cases hd : d.asNanos * m < 2^64 * 10^9
  · obtain ⟨a,ha,haval⟩ := ofNanos_fits hd
    rw [checkedMul,ha,Option.bind_some,checkedMul,hb,Option.bind_some,checkedAdd,haval,hbval,
      ofNanos_checkedAdd]
  · rw [checkedMul,ofNanos_overflow hd,Option.bind_none,ofNanos_overflow (by omega)]

end Duration

def durationToMs (d : Duration) : Int64 :=
  if d.asMillis < 2^63 then Int64.ofNat d.asMillis else Int64.maxValue

def instantAdd (instant : Nat) (d : Duration) : Option Nat :=
  if instant + d.asNanos < 2^63 * 10^9 then some (instant + d.asNanos) else none

theorem instantAdd_eq {instant later : Nat} {d : Duration} (h : instantAdd instant d = some later) :
    later = instant + d.asNanos := by
  simp only [instantAdd,Option.ite_none_right_eq_some,Option.some.injEq] at h
  exact h.2.symm

theorem instantAdd_earlier {instant instant' : Nat} {d : Duration} (hle : instant ≤ instant')
    (h : (instantAdd instant' d).isSome) : (instantAdd instant d).isSome := by
  simp only [instantAdd,Option.isSome_ite] at h ⊢
  omega

theorem toInt_durationToMs (d : Duration) :
    (durationToMs d).toInt = min (2^63-1) (d.asMillis : Int) := by
  unfold durationToMs
  split
  · next h =>
    rw [Int64.toInt_ofNat_of_lt h]
    omega
  · rw [Int64.toInt_maxValue]
    omega

theorem durationToMs_nonneg (d : Duration) : 0 ≤ (durationToMs d).toInt := by
  rw [toInt_durationToMs]
  omega

theorem four_durationToMs_lt_iff (d : Duration) :
    4 * (durationToMs d).toInt < 2^63 ↔ 4 * d.asMillis < 2^63 := by
  rw [toInt_durationToMs]
  omega

end DnsSeeder
