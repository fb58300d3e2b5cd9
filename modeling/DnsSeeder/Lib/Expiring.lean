import Mathlib.Tactic

namespace DnsSeeder.Lib

structure Expiring (S D : Type) where
  ask : Option S → Nat → D × S
  expired : S → Nat → Prop
  later : ∀ {s : S} {now now' : Nat}, expired s now → now ≤ now' → expired s now'
  ask_expired : ∀ {s : S} {now : Nat}, expired s now → ask (some s) now = ask none now

namespace Expiring

variable {S D : Type} (m : Expiring S D)

def own (times : List Nat) : Option S := times.foldl (fun s now => some (m.ask s now).2) none

theorem own_snoc (times : List Nat) (now : Nat) :
    m.own (times ++ [now]) = some (m.ask (m.own times) now).2 := by
  simp [own,List.foldl_append]

inductive Stands (now : Nat) : Option S → Option S → Prop
  | kept (s : Option S) : Stands now s s
  | dropped {s : S} (h : m.expired s now) : Stands now none (some s)

variable {m} {now now' : Nat} {r s t : Option S}

theorem Stands.later (h : m.Stands now s t) (hle : now ≤ now') : m.Stands now' s t := by
  cases h with
  | kept => exact .kept s
  | dropped h => exact .dropped (m.later h hle)

theorem Stands.ask (h : m.Stands now s t) : m.ask s now = m.ask t now := by
  cases h with
  | kept => rfl
  | dropped h => exact (m.ask_expired h).symm

theorem Stands.trans (h : m.Stands now r s) (h' : m.Stands now s t) : m.Stands now r t := by
  cases h' with
  | kept => exact h
  | dropped h' =>
    cases h with
    | kept => exact .dropped h'

section keyed
variable {K : Type} [DecidableEq K]

def timesOf (key : K) (calls : List (K × Nat)) : List Nat :=
  (calls.filter (fun call => call.1 = key)).map Prod.snd

theorem timesOf_snoc_self (key : K) (now : Nat) (calls : List (K × Nat)) :
    timesOf key (calls ++ [(key,now)]) = timesOf key calls ++ [now] := by
  simp [timesOf]

theorem timesOf_snoc_ne {key key' : K} (hne : key' ≠ key) (now : Nat) (calls : List (K × Nat)) :
    timesOf key (calls ++ [(key',now)]) = timesOf key calls := by
  simp [timesOf,hne]

def Refines (m : Expiring S D) (now : Nat) (store : K → Option S) (calls : List (K × Nat)) : Prop :=
  ∀ key, m.Stands now (store key) (m.own (timesOf key calls))

variable {store store' : K → Option S} {calls : List (K × Nat)} {key : K}

theorem refines_empty : m.Refines now (fun _ : K => none) [] := fun _ => .kept none

theorem Refines.later (h : m.Refines now store calls) (hle : now ≤ now') : m.Refines now' store calls :=
  fun key => (h key).later hle

theorem Refines.record (h : m.Refines now store calls)
    (hkept : ∀ k, m.Stands now (store' k)
      (Function.update store key (some (m.ask (store key) now).2) k)) :
    m.Refines now store' (calls ++ [(key,now)]) := by
  intro k
  refine (hkept k).trans ?_
  by_cases hk : k = key
  · subst hk
    rw [Function.update_self,timesOf_snoc_self,own_snoc,(h k).ask]
    exact .kept _
  · rw [Function.update_of_ne hk,timesOf_snoc_ne (Ne.symm hk)]
    exact h k

end keyed

end Expiring

end DnsSeeder.Lib
