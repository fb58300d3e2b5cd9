import DnsSeeder.Lib.FixedWindow
import DnsSeeder.Net
import DnsSeeder.Time

namespace DnsSeeder

open Lib

def sweepInterval : UInt64 := 1024

structure Bucket where
  tokens : UInt32
  refillAt : Nat

structure RateLimiter where
  capacity : UInt32
  window : Duration
  buckets : IpAddr → Option Bucket
  ops : UInt64

namespace RateLimiter

def new (capacity : UInt32) (window : Duration) : RateLimiter := ⟨capacity,window,fun _ => none,0⟩

def maybeSweep (l : RateLimiter) (now : Nat) : RateLimiter :=
  if l.ops % sweepInterval ≠ 0 then { l with ops := l.ops + 1 }
  else { l with
    ops := l.ops + 1
    buckets := fun ip => (l.buckets ip).filter (fun b => now < b.refillAt) }

def entry (l : RateLimiter) (ip : IpAddr) (now refillAt : Nat) : Bucket :=
  let bucket := (l.buckets ip).getD ⟨l.capacity,refillAt⟩
  if bucket.refillAt ≤ now then ⟨l.capacity,refillAt⟩ else bucket

def check (l : RateLimiter) (ip : IpAddr) (now : Nat) : Option (Bool × RateLimiter) :=
  if l.capacity = 0 then some (true,l)
  else (instantAdd now l.window).map (fun refillAt =>
    let entry := l.entry ip now refillAt
    if entry.tokens = 0 then
      (false,maybeSweep { l with buckets := Function.update l.buckets ip (some entry) } now)
    else
      (true,maybeSweep { l with
        buckets := Function.update l.buckets ip (some { entry with tokens := entry.tokens - 1 }) } now))

def Metered (l : RateLimiter) (ip : IpAddr) (now : Nat) (log : List Grant) : Prop :=
  match l.buckets ip with
  | none => Expired l.window.asNanos l.capacity.toNat now log
  | some b => Running l.window.asNanos l.capacity.toNat now b.refillAt b.tokens.toNat log

variable {l l' : RateLimiter} {ip ip' : IpAddr} {now now' refillAt : Nat} {log : List Grant}

theorem metered_new (capacity : UInt32) (window : Duration) (ip : IpAddr) (now : Nat) :
    Metered (new capacity window) ip now [] :=
  ⟨⟨by simp,by simp,by simp⟩,by simp⟩

theorem Metered.paced (h : Metered l ip now log) : Paced l.window.asNanos l.capacity.toNat log := by
  unfold Metered at h
  split at h
  · exact Expired.paced h
  · exact Running.paced h

theorem Metered.later (h : Metered l ip now log) (hle : now ≤ now') : Metered l ip now' log := by
  unfold Metered at h ⊢
  split at h
  · exact Expired.later h hle
  · exact Running.later h hle

theorem Metered.congr (h : Metered l ip now log) (hb : l'.buckets ip = l.buckets ip)
    (hw : l'.window = l.window) (hc : l'.capacity = l.capacity) : Metered l' ip now log := by
  unfold Metered at h ⊢
  rw [hb,hw,hc]
  exact h

theorem Metered.sweep (h : Metered l ip now log) : Metered (l.maybeSweep now) ip now log := by
  unfold maybeSweep
  split
  · exact h.congr rfl rfl rfl
  · unfold Metered at h ⊢
    cases hb : l.buckets ip with
    | none =>
      rw [hb] at h
      simpa [hb] using h
    | some b =>
      rw [hb] at h
      by_cases hlive : now < b.refillAt
      · simpa [hb,Option.filter,hlive] using h
      · simpa [hb,Option.filter,hlive] using Running.expired h (Nat.le_of_not_lt hlive)

theorem entry_running (h : Metered l ip now log) (hw : 0 < l.window.asNanos)
    (hadd : instantAdd now l.window = some refillAt) :
    now < (l.entry ip now refillAt).refillAt ∧
    Running l.window.asNanos l.capacity.toNat now (l.entry ip now refillAt).refillAt
      (l.entry ip now refillAt).tokens.toNat log := by
  have hrefill : refillAt = now + l.window.asNanos := instantAdd_eq hadd
  unfold Metered at h
  unfold RateLimiter.entry
  cases hb : l.buckets ip with
  | none =>
    rw [hb] at h
    simp only [Option.getD_none,ite_self]
    exact ⟨by omega,hrefill ▸ Expired.refill h hw⟩
  | some b =>
    rw [hb] at h
    simp only [Option.getD_some]
    split
    · next hle => exact ⟨by simp only; omega,hrefill ▸ (Running.expired h hle).refill hw⟩
    · next hlive => exact ⟨Nat.lt_of_not_le hlive,h⟩

theorem check_config {allowed : Bool} (h : l.check ip now = some (allowed,l')) :
    l'.window = l.window ∧ l'.capacity = l.capacity := by
  unfold check at h
  split at h
  · obtain ⟨_,rfl⟩ := Prod.mk.inj (Option.some.inj h)
    exact ⟨rfl,rfl⟩
  · obtain ⟨refillAt,_,h⟩ := Option.map_eq_some_iff.mp h
    dsimp only at h
    split at h
    all_goals
      obtain ⟨_,rfl⟩ := Prod.mk.inj h
      unfold maybeSweep
      split <;> exact ⟨rfl,rfl⟩

theorem metered_update {b : Bucket}
    (h : Running l.window.asNanos l.capacity.toNat now b.refillAt b.tokens.toNat log) :
    Metered { l with buckets := Function.update l.buckets ip (some b) } ip now log := by
  unfold Metered
  simpa using h

theorem toNat_sub_one {n : UInt32} (h : n ≠ 0) : n.toNat = (n - 1).toNat + 1 := by
  have hpos : n.toNat ≠ 0 := fun hz => h (UInt32.toNat_inj.mp hz)
  have hone : (1 : UInt32) ≤ n := UInt32.le_iff_toNat_le.mpr (Nat.one_le_iff_ne_zero.mpr hpos)
  rw [UInt32.toNat_sub_of_le n 1 hone,UInt32.toNat_one]
  omega

theorem check_self {allowed : Bool} (h : Metered l ip now log) (hw : 0 < l.window.asNanos)
    (hc : l.capacity ≠ 0) (hs : l.check ip now = some (allowed,l')) :
    ∃ log', Metered l' ip now log' ∧
      ((allowed = false ∧ log' = log) ∨ ∃ e, allowed = true ∧ log' = log ++ [⟨now,e⟩]) := by
  unfold check at hs
  rw [if_neg hc] at hs
  obtain ⟨refillAt,hadd,hs⟩ := Option.map_eq_some_iff.mp hs
  obtain ⟨hlive,hrun⟩ := entry_running h hw hadd
  dsimp only at hs
  split at hs
  · obtain ⟨rfl,rfl⟩ := Prod.mk.inj hs
    exact ⟨log,(metered_update hrun).sweep,Or.inl ⟨rfl,rfl⟩⟩
  · next htokens =>
    obtain ⟨rfl,rfl⟩ := Prod.mk.inj hs
    rw [toNat_sub_one htokens] at hrun
    obtain ⟨e,hspent⟩ := hrun.spend hlive
    exact ⟨_,(metered_update hspent).sweep,Or.inr ⟨e,rfl,rfl⟩⟩

theorem check_other {allowed : Bool} (h : Metered l ip now log) (hne : ip ≠ ip')
    (hs : l.check ip' now = some (allowed,l')) : Metered l' ip now log := by
  unfold check at hs
  split at hs
  · obtain ⟨_,rfl⟩ := Prod.mk.inj (Option.some.inj hs)
    exact h
  · obtain ⟨refillAt,_,hs⟩ := Option.map_eq_some_iff.mp hs
    dsimp only at hs
    split at hs
    all_goals
      obtain ⟨_,rfl⟩ := Prod.mk.inj hs
      refine Metered.sweep (h.congr ?_ rfl rfl)
      exact Function.update_of_ne hne _ _

end RateLimiter

end DnsSeeder
