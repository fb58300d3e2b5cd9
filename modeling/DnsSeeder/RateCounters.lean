import DnsSeeder.Lib.Expiring
import DnsSeeder.RateLimit

namespace DnsSeeder

open Lib

structure WindowCounter where
  tokens : Nat
  refillAt : Nat
deriving DecidableEq

namespace WindowCounter

def current (capacity window : Nat) (counter : Option WindowCounter) (now : Nat) : WindowCounter :=
  match counter with
  | some k => if k.refillAt ≤ now then ⟨capacity,now + window⟩ else k
  | none => ⟨capacity,now + window⟩

def ask (capacity window : Nat) (counter : Option WindowCounter) (now : Nat) : Bool × WindowCounter :=
  let k := current capacity window counter now
  if k.tokens = 0 then (false,k) else (true,⟨k.tokens - 1,k.refillAt⟩)

def machine (capacity window : Nat) : Expiring WindowCounter Bool where
  ask := ask capacity window
  expired k now := k.refillAt ≤ now
  later := fun h hle => h.trans hle
  ask_expired := by
    intro k now h
    have hfresh : current capacity window (some k) now = current capacity window none now := if_pos h
    simp only [ask,hfresh]

end WindowCounter

def Bucket.counter (b : Bucket) : WindowCounter := ⟨b.tokens.toNat,b.refillAt⟩

namespace RateLimiter

open WindowCounter

def counters (l : RateLimiter) (ip : IpAddr) : Option WindowCounter := (l.buckets ip).map Bucket.counter

def machineOf (l : RateLimiter) : Expiring WindowCounter Bool :=
  machine l.capacity.toNat l.window.asNanos

variable {l : RateLimiter} {ip : IpAddr} {now refillAt : Nat}

theorem counter_entry (ip : IpAddr) (hadd : instantAdd now l.window = some refillAt) :
    (l.entry ip now refillAt).counter =
      current l.capacity.toNat l.window.asNanos (l.counters ip) now := by
  obtain rfl := instantAdd_eq hadd
  unfold entry counters
  cases l.buckets ip with
  | none => simp [current,Bucket.counter]
  | some b =>
    by_cases hle : b.refillAt ≤ now
    · simp [current,Bucket.counter,hle]
    · simp [current,Bucket.counter,hle]

theorem counters_sweep (capacity window : Nat) (ip : IpAddr) :
    (machine capacity window).Stands now ((l.maybeSweep now).counters ip) (l.counters ip) := by
  unfold maybeSweep
  split
  · exact .kept _
  · unfold counters
    cases hb : l.buckets ip with
    | none => simpa [hb] using Expiring.Stands.kept none
    | some b =>
      by_cases hlive : now < b.refillAt
      · simpa [hb,Option.filter,hlive] using Expiring.Stands.kept _
      · simpa [hb,Option.filter,hlive] using Expiring.Stands.dropped (Nat.le_of_not_lt hlive)

theorem counters_update (b : Bucket) :
    counters { l with buckets := Function.update l.buckets ip (some b) } =
      Function.update l.counters ip (some b.counter) := by
  funext ip'
  by_cases h : ip' = ip
  · subst h
    simp [counters]
  · simp [counters,h]

theorem ask_entry {b : Bucket}
    (hb : b.counter = current l.capacity.toNat l.window.asNanos (l.counters ip) now) :
    l.machineOf.ask (l.counters ip) now =
      if b.tokens = 0 then (false,b.counter)
      else (true,Bucket.counter { b with tokens := b.tokens - 1 }) := by
  change ask _ _ _ _ = _
  rw [ask,← hb]
  by_cases htokens : b.tokens = 0
  · simp [Bucket.counter,htokens]
  · have hsub := toNat_sub_one htokens
    have hne : b.counter.tokens ≠ 0 := by
      change b.tokens.toNat ≠ 0
      omega
    rw [if_neg htokens,if_neg hne,Bucket.counter,Bucket.counter,hsub,Nat.add_sub_cancel]

theorem check_ask (hc : l.capacity ≠ 0) (hadd : (instantAdd now l.window).isSome) :
    ∃ l', l.check ip now = some ((l.machineOf.ask (l.counters ip) now).1,l') ∧
      ∀ ip', l.machineOf.Stands now (l'.counters ip')
        (Function.update l.counters ip (some (l.machineOf.ask (l.counters ip) now).2) ip') := by
  obtain ⟨refillAt,hadd⟩ := Option.isSome_iff_exists.mp hadd
  have hask := ask_entry (counter_entry ip hadd)
  simp only [check,if_neg hc,hadd,Option.map_some]
  split at hask
  · next htokens =>
    rw [if_pos htokens,hask,← counters_update]
    exact ⟨_,rfl,counters_sweep _ _⟩
  · next htokens =>
    rw [if_neg htokens,hask,← counters_update]
    exact ⟨_,rfl,counters_sweep _ _⟩

abbrev Calls := List (IpAddr × Nat)

-- A call whose window end does not fit in an Instant panics and so ends the process (`panic = "abort"`). It is
-- stepped over here; when times never run back, every call after it panics as well.
def after (l : RateLimiter) (calls : Calls) : RateLimiter :=
  calls.foldl (fun l call => ((l.check call.1 call.2).map Prod.snd).getD l) l

def Timely (calls : Calls) : Prop := (calls.map Prod.snd).Pairwise (· ≤ ·)

theorem after_snoc (calls : Calls) (call : IpAddr × Nat) :
    l.after (calls ++ [call]) =
      (((l.after calls).check call.1 call.2).map Prod.snd).getD (l.after calls) := by
  simp [after,List.foldl_append]

theorem after_config (calls : Calls) :
    (l.after calls).window = l.window ∧ (l.after calls).capacity = l.capacity := by
  induction calls using List.reverseRecOn with
  | nil => exact ⟨rfl,rfl⟩
  | append_singleton calls call ih =>
    rw [after_snoc]
    cases hs : (l.after calls).check call.1 call.2 with
    | none => exact ih
    | some r =>
      obtain ⟨hw,hc⟩ := check_config hs
      exact ⟨hw.trans ih.1,hc.trans ih.2⟩

theorem check_after {capacity : UInt32} {window : Duration} (hc : capacity ≠ 0)
    (hadd : (instantAdd now window).isSome) (calls : Calls) (ip : IpAddr) :
    ∃ l', ((new capacity window).after calls).check ip now =
        some (((machine capacity.toNat window.asNanos).ask
          (((new capacity window).after calls).counters ip) now).1,l') ∧
      ∀ ip', (machine capacity.toNat window.asNanos).Stands now (l'.counters ip')
        (Function.update ((new capacity window).after calls).counters ip
          (some ((machine capacity.toNat window.asNanos).ask
            (((new capacity window).after calls).counters ip) now).2) ip') := by
  obtain ⟨hw,hcap⟩ := after_config (l := new capacity window) calls
  have hmachine : ((new capacity window).after calls).machineOf =
      machine capacity.toNat window.asNanos := by
    rw [machineOf,hw,hcap]
    rfl
  rw [← hmachine]
  exact check_ask (by rw [hcap]; exact hc) (by rw [hw]; exact hadd)

theorem timely_snoc {calls : Calls} (h : Timely (calls ++ [(ip,now)])) :
    Timely calls ∧ ∀ call ∈ calls, call.2 ≤ now := by
  simp only [Timely,List.map_append,List.pairwise_append] at h
  exact ⟨h.1,fun call hcall => h.2.2 call.2 (List.mem_map_of_mem hcall) now (by simp)⟩

theorem after_refines {capacity : UInt32} {window : Duration} {calls : Calls} (hc : capacity ≠ 0)
    (htimes : Timely calls) (hlast : ∀ call ∈ calls, call.2 ≤ now)
    (hadd : (instantAdd now window).isSome) :
    (machine capacity.toNat window.asNanos).Refines now ((new capacity window).after calls).counters calls := by
  induction calls using List.reverseRecOn generalizing now with
  | nil => exact Expiring.refines_empty
  | append_singleton calls call ih =>
    obtain ⟨ip,time⟩ := call
    have hle : time ≤ now := hlast (ip,time) (by simp)
    obtain ⟨htimes,hbefore⟩ := timely_snoc htimes
    have hfit : (instantAdd time window).isSome := instantAdd_earlier hle hadd
    obtain ⟨l',hcheck,hstands⟩ := check_after hc hfit calls ip
    rw [after_snoc,hcheck]
    exact ((ih htimes hbefore hfit).record hstands).later hle

theorem check_panics {capacity : UInt32} {window : Duration} (hc : capacity ≠ 0)
    (hadd : instantAdd now window = none) (calls : Calls) (ip : IpAddr) :
    ((new capacity window).after calls).check ip now = none := by
  obtain ⟨hw,hcap⟩ := after_config (l := new capacity window) calls
  have hne : ((new capacity window).after calls).capacity ≠ 0 := by
    rw [hcap]
    exact hc
  have hfull : instantAdd now ((new capacity window).after calls).window = none := by
    rw [hw]
    exact hadd
  rw [check,if_neg hne,hfull,Option.map_none]

theorem check_own_counter {capacity : UInt32} (window : Duration) (hc : capacity ≠ 0) (calls : Calls)
    (ip : IpAddr) (now : Nat) (htimes : Timely (calls ++ [(ip,now)])) :
    (((new capacity window).after calls).check ip now).map Prod.fst =
      (instantAdd now window).map (fun _ =>
        (ask capacity.toNat window.asNanos
          ((machine capacity.toNat window.asNanos).own (Expiring.timesOf ip calls)) now).1) := by
  obtain ⟨htimes,hbefore⟩ := timely_snoc htimes
  cases hadd : instantAdd now window with
  | none => rw [check_panics hc hadd,Option.map_none,Option.map_none]
  | some refillAt =>
    have hfit : (instantAdd now window).isSome := by rw [hadd]; rfl
    obtain ⟨l',hcheck,_⟩ := check_after hc hfit calls ip
    rw [hcheck,(after_refines hc htimes hbefore hfit ip).ask]
    rfl

def resolver (n : Nat) : IpAddr := .v4 (BitVec.ofNat 32 n)

theorem check_own_counter_boundary :
    (((new 1 (.fromSecs 2)).after [(resolver 1,0),(resolver 2,5),(resolver 1,7)]).check
      (resolver 1) (2 * 10^9)).map Prod.fst = some true := by
  rw [check_own_counter (.fromSecs 2) (by decide) [(resolver 1,0),(resolver 2,5),(resolver 1,7)]
    (resolver 1) (2 * 10^9) (by simp [Timely])]
  decide

end RateLimiter

end DnsSeeder
