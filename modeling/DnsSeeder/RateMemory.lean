import DnsSeeder.RateCounters

namespace DnsSeeder

open Lib

namespace RateLimiter

def lastSweep (n : Nat) : Nat := (n - 1) / sweepInterval.toNat * sweepInterval.toNat

def Swept (calls : Calls) (refillAt i : Nat) : Prop :=
  lastSweep calls.length ≤ i ∨ ∃ ip now, calls[lastSweep calls.length]? = some (ip,now) ∧ now < refillAt

structure Opened (window : Nat) (calls : Calls) (ip : IpAddr) (b : Bucket) (i time : Nat) : Prop where
  call : calls[i]? = some (ip,time)
  refill : b.refillAt = time + window
  swept : Swept calls b.refillAt i

structure Remembers (window : Nat) (calls : Calls) (l : RateLimiter) : Prop where
  ops : l.ops = UInt64.ofNat calls.length
  tracked : ∀ ip b, l.buckets ip = some b → ∃ i time, Opened window calls ip b i time

variable {l l' : RateLimiter} {ip : IpAddr} {now refillAt : Nat} {calls : Calls} {window : Nat}

theorem sweeps_iff (n : Nat) : UInt64.ofNat n % sweepInterval = 0 ↔ n % 1024 = 0 := by
  rw [← UInt64.toNat_inj,UInt64.toNat_mod,UInt64.toNat_ofNat']
  change n % 2 ^ 64 % 1024 = 0 ↔ _
  omega

theorem lastSweep_due {n : Nat} (h : n % 1024 = 0) : lastSweep (n + 1) = n := by
  change (n + 1 - 1) / 1024 * 1024 = n
  omega

theorem lastSweep_undue {n : Nat} (h : n % 1024 ≠ 0) : lastSweep (n + 1) = lastSweep n := by
  change (n + 1 - 1) / 1024 * 1024 = (n - 1) / 1024 * 1024
  omega

theorem lastSweep_near (n : Nat) : n ≤ lastSweep n + 1024 := by
  change n ≤ (n - 1) / 1024 * 1024 + 1024
  omega

theorem Swept.kept {i : Nat} (h : Swept calls refillAt i) (hdue : calls.length % 1024 ≠ 0)
    (call : IpAddr × Nat) : Swept (calls ++ [call]) refillAt i := by
  unfold Swept
  rw [List.length_append,List.length_singleton,lastSweep_undue hdue]
  rcases h with h | ⟨ip,now,hget,hlt⟩
  · exact Or.inl h
  · refine Or.inr ⟨ip,now,?_,hlt⟩
    rw [List.getElem?_append_left (List.getElem?_eq_some_iff.mp hget).1]
    exact hget

theorem swept_live (hlive : now < refillAt) (i : Nat) (hdue : calls.length % 1024 = 0) :
    Swept (calls ++ [(ip,now)]) refillAt i := by
  refine Or.inr ⟨ip,now,?_,hlive⟩
  rw [List.length_append,List.length_singleton,lastSweep_due hdue]
  simp

theorem Opened.later {b : Bucket} {i time : Nat} {ip' : IpAddr} (h : Opened window calls ip' b i time)
    (hlive : calls.length % 1024 = 0 → now < b.refillAt) :
    Opened window (calls ++ [(ip,now)]) ip' b i time := by
  refine ⟨?_,h.refill,?_⟩
  · rw [List.getElem?_append_left (List.getElem?_eq_some_iff.mp h.call).1]
    exact h.call
  · by_cases hdue : calls.length % 1024 = 0
    · exact swept_live (hlive hdue) i hdue
    · exact h.swept.kept hdue _

theorem opened_new (b : Bucket) (hb : b.refillAt = now + window) :
    Opened window (calls ++ [(ip,now)]) ip b calls.length now := by
  refine ⟨by simp,hb,Or.inl ?_⟩
  rw [List.length_append,List.length_singleton]
  change (calls.length + 1 - 1) / 1024 * 1024 ≤ calls.length
  omega

theorem opened_entry (ip : IpAddr) (h : Remembers window calls l) (hadd : refillAt = now + window) :
    ∃ i time, Opened window (calls ++ [(ip,now)]) ip (l.entry ip now refillAt) i time := by
  unfold RateLimiter.entry
  cases hb : l.buckets ip with
  | none => exact ⟨_,_,opened_new _ (by simp [hadd])⟩
  | some b =>
    simp only [Option.getD_some]
    split
    · exact ⟨_,_,opened_new _ hadd⟩
    · next hlive =>
      obtain ⟨i,time,hopened⟩ := h.tracked ip b hb
      exact ⟨i,time,hopened.later (fun _ => Nat.lt_of_not_le hlive)⟩

theorem remembers_write (h : Remembers window calls l) {b : Bucket}
    (hb : ∃ i time, Opened window (calls ++ [(ip,now)]) ip b i time) :
    Remembers window (calls ++ [(ip,now)])
      (maybeSweep { l with buckets := Function.update l.buckets ip (some b) } now) := by
  have hops : l.ops + 1 = UInt64.ofNat (calls ++ [(ip,now)]).length := by
    rw [List.length_append,List.length_singleton,UInt64.ofNat_add,h.ops]
    rfl
  have hkeep : ∀ ip' b', Function.update l.buckets ip (some b) ip' = some b' →
      (calls.length % 1024 = 0 → now < b'.refillAt) →
      ∃ i time, Opened window (calls ++ [(ip,now)]) ip' b' i time := by
    intro ip' b' hb' hlive
    rcases eq_or_ne ip' ip with rfl | hne
    · rw [Function.update_self] at hb'
      exact Option.some.inj hb' ▸ hb
    · rw [Function.update_of_ne hne] at hb'
      obtain ⟨i,time,hopened⟩ := h.tracked ip' b' hb'
      exact ⟨i,time,hopened.later hlive⟩
  unfold maybeSweep
  split
  · next hundue =>
    change l.ops % sweepInterval ≠ 0 at hundue
    rw [h.ops,Ne,sweeps_iff] at hundue
    exact ⟨hops,fun ip' b' hb' => hkeep ip' b' hb' (fun hdue => absurd hdue hundue)⟩
  · refine ⟨hops,fun ip' b' hb' => ?_⟩
    obtain ⟨hget,hlive⟩ := Option.filter_eq_some_iff.mp hb'
    exact hkeep ip' b' hget (fun _ => of_decide_eq_true hlive)

theorem remembers_check (hc : l.capacity ≠ 0) (h : Remembers l.window.asNanos calls l) {allowed : Bool}
    (hcheck : l.check ip now = some (allowed,l')) : Remembers l.window.asNanos (calls ++ [(ip,now)]) l' := by
  rw [check,if_neg hc] at hcheck
  obtain ⟨refillAt,hadd,heq⟩ := Option.map_eq_some_iff.mp hcheck
  have hentry := opened_entry ip h (instantAdd_eq hadd)
  dsimp only at heq
  split at heq <;> obtain ⟨_,rfl⟩ := Prod.mk.inj heq
  · exact remembers_write h hentry
  · obtain ⟨i,time,hopened⟩ := hentry
    exact remembers_write h ⟨i,time,hopened.call,hopened.refill,hopened.swept⟩

theorem remembers_after {capacity : UInt32} {window : Duration} (hc : capacity ≠ 0)
    (hfit : ∀ call ∈ calls, (instantAdd call.2 window).isSome) :
    Remembers window.asNanos calls ((new capacity window).after calls) := by
  induction calls using List.reverseRecOn with
  | nil => exact ⟨rfl,fun _ _ hb => by cases hb⟩
  | append_singleton calls call ih =>
    obtain ⟨ip,now⟩ := call
    have ih := ih (fun call hcall => hfit call (List.mem_append_left _ hcall))
    obtain ⟨hw,hcap⟩ := after_config (l := new capacity window) calls
    obtain ⟨l',hcheck,_⟩ := check_after hc (hfit (ip,now) (by simp)) calls ip
    rw [after_snoc,hcheck]
    have hwindow : ((new capacity window).after calls).window.asNanos = window.asNanos := by rw [hw]; rfl
    have h := remembers_check (by rw [hcap]; exact hc) (hwindow.symm ▸ ih) hcheck
    exact hwindow ▸ h

theorem after_disabled (window : Duration) (calls : Calls) : (new 0 window).after calls = new 0 window := by
  induction calls using List.reverseRecOn with
  | nil => rfl
  | append_singleton calls call ih =>
    rw [after_snoc,ih]
    rfl

theorem tracked_ips_recent (capacity : UInt32) (window : Duration) (calls : Calls)
    (hfit : ∀ call ∈ calls, (instantAdd call.2 window).isSome) (ip : IpAddr)
    (htracked : (((new capacity window).after calls).buckets ip).isSome) :
    capacity ≠ 0 ∧ ∃ i time, calls[i]? = some (ip,time) ∧
      (calls.length ≤ i + sweepInterval.toNat ∨
        ∃ j ip' now, calls[j]? = some (ip',now) ∧ calls.length ≤ j + sweepInterval.toNat ∧
          now < time + window.asNanos) := by
  have hc : capacity ≠ 0 := by
    rintro rfl
    rw [after_disabled] at htracked
    cases htracked
  obtain ⟨b,hb⟩ := Option.isSome_iff_exists.mp htracked
  obtain ⟨i,time,hopened⟩ := (remembers_after hc hfit).tracked ip b hb
  have hnear := lastSweep_near calls.length
  refine ⟨hc,i,time,hopened.call,?_⟩
  rcases hopened.swept with hrecent | ⟨ip',now,hget,hlive⟩
  · exact Or.inl (hnear.trans (Nat.add_le_add_right hrecent _))
  · exact Or.inr ⟨_,ip',now,hget,hnear,hopened.refill ▸ hlive⟩

theorem tracked_of_check (hc : l.capacity ≠ 0) (hw : 0 < l.window.asNanos) {allowed : Bool}
    (hcheck : l.check ip now = some (allowed,l')) : (l'.buckets ip).isSome = true := by
  rw [check,if_neg hc] at hcheck
  obtain ⟨refillAt,hadd,heq⟩ := Option.map_eq_some_iff.mp hcheck
  have hlive : now < (l.entry ip now refillAt).refillAt := by
    have hrefill := instantAdd_eq hadd
    unfold RateLimiter.entry
    dsimp only
    split
    · dsimp only
      omega
    · next hlive => exact Nat.lt_of_not_le hlive
  have hkept : ∀ (k : RateLimiter) (b : Bucket), k.buckets ip = some b → now < b.refillAt →
      ((maybeSweep k now).buckets ip).isSome = true := by
    intro k b hb hlt
    unfold maybeSweep
    split
    · exact Option.isSome_iff_exists.mpr ⟨b,hb⟩
    · simp [hb,hlt]
  dsimp only at heq
  split at heq <;> obtain ⟨_,rfl⟩ := Prod.mk.inj heq <;>
    exact hkept _ _ (Function.update_self ..) hlive

def burst (n : Nat) : Calls := (resolver 1,0) :: List.replicate n (resolver 2,5 * 10^9)

theorem burst_succ (n : Nat) : burst (n + 1) = burst n ++ [(resolver 2,5 * 10^9)] := by
  rw [burst,burst,List.cons_append,List.replicate_succ']

theorem length_burst (n : Nat) : (burst n).length = n + 1 := by
  rw [burst,List.length_cons,List.length_replicate]

theorem burst_get {n i now : Nat} (h : (burst n)[i]? = some (ip,now)) :
    i = 0 ∧ ip = resolver 1 ∧ now = 0 ∨ ip = resolver 2 ∧ now = 5 * 10^9 := by
  cases i with
  | zero =>
    obtain ⟨rfl,rfl⟩ := Prod.mk.inj (Option.some.inj h)
    exact Or.inl ⟨rfl,rfl,rfl⟩
  | succ i =>
    have hmem : (ip,now) ∈ List.replicate n (resolver 2,5 * 10^9) := List.mem_of_getElem? h
    exact Or.inr (Prod.mk.inj (List.eq_of_mem_replicate hmem))

theorem burst_fits (n : Nat) : ∀ call ∈ burst n, (instantAdd call.2 (.fromSecs 1)).isSome = true := by
  intro call hcall
  rcases List.mem_cons.mp hcall with rfl | hcall
  · decide
  · rw [List.eq_of_mem_replicate hcall]
    decide

theorem tracked_burst (n : Nat) :
    (((new 1 (.fromSecs 1)).after (burst (n + 1))).buckets (resolver 2)).isSome = true := by
  have hfit : (instantAdd (5 * 10^9) (.fromSecs 1)).isSome = true := by decide
  obtain ⟨hw,hcap⟩ := after_config (l := new 1 (.fromSecs 1)) (burst n)
  obtain ⟨l',hcheck,_⟩ := check_after (show (1 : UInt32) ≠ 0 by decide) hfit (burst n) (resolver 2)
  rw [burst_succ,after_snoc,hcheck]
  exact tracked_of_check (by rw [hcap]; decide) (by rw [hw]; decide) hcheck

theorem tracked_ips_recent_swept :
    (∃ i time, (burst 1024)[i]? = some (resolver 2,time) ∧ ((burst 1024).length ≤ i + sweepInterval.toNat ∨
      ∃ j ip' now, (burst 1024)[j]? = some (ip',now) ∧ (burst 1024).length ≤ j + sweepInterval.toNat ∧
        now < time + (Duration.fromSecs 1).asNanos)) ∧
    (((new 1 (.fromSecs 1)).after (burst 1024)).buckets (resolver 1)).isSome = false := by
  -- with the numeral hidden nothing unfolds the burst call by call
  obtain ⟨n,hn⟩ : ∃ n, n + 1 = 1024 := ⟨1023,rfl⟩
  have hinterval : sweepInterval.toNat = 1024 := rfl
  rw [← hn]
  constructor
  · exact (tracked_ips_recent 1 (.fromSecs 1) (burst (n + 1)) (burst_fits _) (resolver 2) (tracked_burst n)).2
  · refine Bool.eq_false_iff.mpr (fun htracked => ?_)
    obtain ⟨_,i,time,hcall,hnear⟩ := tracked_ips_recent 1 (.fromSecs 1) (burst (n + 1)) (burst_fits _)
      (resolver 1) htracked
    obtain ⟨rfl,_,rfl⟩ := (burst_get hcall).resolve_right (fun h => absurd h.1 (by decide))
    rw [length_burst] at hnear
    rcases hnear with hnear | ⟨j,ip',now,hget,hnear,hlive⟩
    · omega
    · rcases burst_get hget with ⟨rfl,_⟩ | ⟨_,rfl⟩
      · omega
      · exact absurd hlive (by decide)

end RateLimiter

end DnsSeeder
