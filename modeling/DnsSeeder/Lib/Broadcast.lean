import Mathlib.Tactic

namespace DnsSeeder.Lib

structure Broadcast (ι : Type) where
  capacity : Nat
  sent : Nat
  cursor : ι → Option Nat

inductive Received where
  | message
  | lagged (skipped : Nat)

namespace Broadcast

variable {ι : Type} {c c' : Broadcast ι} {i j : ι}

def channel (capacity : Nat) : Broadcast ι := ⟨capacity,0,fun _ => none⟩

def send (c : Broadcast ι) : Broadcast ι := { c with sent := c.sent + 1 }

def Pending (c : Broadcast ι) (i : ι) : Prop := ∃ n, c.cursor i = some n ∧ n < c.sent

def Behind (c : Broadcast ι) : Prop := ∀ i n, c.cursor i = some n → n ≤ c.sent

theorem behind_channel (capacity : Nat) : (channel capacity : Broadcast ι).Behind := by
  intro i n h
  cases h

theorem behind_send (h : c.Behind) : c.send.Behind :=
  fun i n hi => (h i n hi).trans (Nat.le_succ _)

theorem pending_send (h : c.Behind) (hi : c.cursor i ≠ none) : c.send.Pending i := by
  obtain ⟨n,hn⟩ := Option.ne_none_iff_exists'.mp hi
  exact ⟨n,hn,Nat.lt_succ_of_le (h i n hn)⟩

theorem not_pending_of_none (h : c.cursor i = none) : ¬ c.Pending i := by
  rintro ⟨n,hn,_⟩
  cases h.symm.trans hn

variable [DecidableEq ι]

def place (c : Broadcast ι) (i : ι) (n : Nat) : Broadcast ι :=
  { c with cursor := Function.update c.cursor i (some n) }

def subscribe (c : Broadcast ι) (i : ι) : Broadcast ι := c.place i c.sent

def recv (c : Broadcast ι) (i : ι) : Option (Received × Broadcast ι) :=
  match c.cursor i with
  | none => none
  | some n =>
      if c.sent ≤ n then none
      else if c.capacity < c.sent - n then
        some (.lagged (c.sent - c.capacity - n),c.place i (c.sent - c.capacity))
      else some (.message,c.place i (n + 1))

theorem cursor_place_self (c : Broadcast ι) (i : ι) (n : Nat) : (c.place i n).cursor i = some n :=
  Function.update_self ..

theorem cursor_place_of_ne (hne : j ≠ i) (n : Nat) : (c.place i n).cursor j = c.cursor j :=
  Function.update_of_ne hne ..

theorem behind_place (h : c.Behind) (i : ι) {n : Nat} (hn : n ≤ c.sent) : (c.place i n).Behind := by
  intro j m hj
  rcases eq_or_ne j i with rfl | hne
  · rw [cursor_place_self] at hj
    exact Option.some.inj hj ▸ hn
  · rw [cursor_place_of_ne hne] at hj
    exact h j m hj

theorem pending_place_of_ne (hne : j ≠ i) (n : Nat) : (c.place i n).Pending j ↔ c.Pending j := by
  unfold Pending
  rw [cursor_place_of_ne hne]
  rfl

theorem not_pending_subscribe (c : Broadcast ι) (i : ι) : ¬ (c.subscribe i).Pending i := by
  rintro ⟨n,hn,hlt⟩
  rw [subscribe,cursor_place_self] at hn
  exact absurd (Option.some.inj hn) (Nat.ne_of_gt hlt)

theorem placed_of_recv {r : Received} (h : c.recv i = some (r,c')) :
    c.Pending i ∧ ∃ n ≤ c.sent, c' = c.place i n := by
  unfold recv at h
  split at h
  · cases h
  · next n hn =>
    split at h
    · cases h
    · next hlt =>
      refine ⟨⟨n,hn,Nat.lt_of_not_le hlt⟩,?_⟩
      split at h
      · cases h
        exact ⟨_,Nat.sub_le _ _,rfl⟩
      · cases h
        exact ⟨_,Nat.lt_of_not_le hlt,rfl⟩

theorem recv_of_pending (h : c.Pending i) : ∃ r, c.recv i = some r := by
  obtain ⟨n,hn,hlt⟩ := h
  unfold recv
  rw [hn]
  dsimp only
  rw [if_neg (Nat.not_le.mpr hlt)]
  split
  · exact ⟨_,rfl⟩
  · exact ⟨_,rfl⟩

end Broadcast

end DnsSeeder.Lib
