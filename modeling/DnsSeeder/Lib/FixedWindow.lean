import Mathlib.Tactic

namespace DnsSeeder.Lib

theorem length_le_two_labels {α β : Type} [DecidableEq β] {l : List α} {f : α → β} {c : Nat}
    (hcount : ∀ b, l.countP (fun a => f a = b) ≤ c)
    (hthree : ∀ x ∈ l, ∀ y ∈ l, ∀ z ∈ l, f x = f y ∨ f y = f z ∨ f x = f z) : l.length ≤ 2 * c := by
  cases l with
  | nil => simp
  | cons x l =>
    rw [List.length_eq_countP_add_countP (fun a => f a = f x)]
    simp only [decide_eq_true_eq,decide_not]
    by_cases hall : ∀ y ∈ x :: l, f y = f x
    · have hnone : (x :: l).countP (fun a => !decide (f a = f x)) = 0 := by
        rw [List.countP_eq_zero]
        intro y hy
        simp [hall y hy]
      have := hcount (f x)
      omega
    · push Not at hall
      obtain ⟨y,hy,hne⟩ := hall
      have hother : (x :: l).countP (fun a => !decide (f a = f x)) ≤ (x :: l).countP (fun a => f a = f y) := by
        refine List.countP_mono_left ?_
        intro z hz hzx
        have hzx : f z ≠ f x := by simpa using hzx
        rcases hthree x List.mem_cons_self y hy z hz with h | h | h
        · exact absurd h.symm hne
        · simp [h]
        · exact absurd h.symm hzx
      have := hcount (f x)
      have := hcount (f y)
      omega

structure Grant where
  time : Nat
  epoch : Nat

structure Paced (w c : Nat) (log : List Grant) : Prop where
  inside : ∀ g ∈ log, g.epoch ≤ g.time ∧ g.time < g.epoch + w
  apart : ∀ g ∈ log, ∀ h ∈ log, g.epoch < h.epoch → g.epoch + w ≤ h.epoch
  full : ∀ e, log.countP (fun g => g.epoch = e) ≤ c

namespace Paced

variable {w c : Nat} {log : List Grant}

theorem window_le (h : Paced w c log) (x : Nat) :
    log.countP (fun g => x ≤ g.time ∧ g.time < x + w) ≤ 2 * c := by
  rw [List.countP_eq_length_filter]
  refine length_le_two_labels (f := Grant.epoch) ?_ ?_
  · intro e
    exact (List.Sublist.countP_le List.filter_sublist).trans (h.full e)
  · intro g hg g' hg' g'' hg''
    simp only [List.mem_filter,decide_eq_true_eq] at hg hg' hg''
    have hi := h.inside g hg.1
    have hi' := h.inside g' hg'.1
    have hi'' := h.inside g'' hg''.1
    have := h.apart g hg.1 g' hg'.1
    have := h.apart g' hg'.1 g hg.1
    have := h.apart g hg.1 g'' hg''.1
    have := h.apart g'' hg''.1 g hg.1
    have := h.apart g' hg'.1 g'' hg''.1
    have := h.apart g'' hg''.1 g' hg'.1
    omega

theorem snoc {g : Grant} (h : Paced w c log) (hinside : g.epoch ≤ g.time ∧ g.time < g.epoch + w)
    (hbefore : ∀ g' ∈ log, g'.epoch = g.epoch ∨ g'.epoch + w ≤ g.epoch)
    (hfull : log.countP (fun g' => g'.epoch = g.epoch) < c) : Paced w c (log ++ [g]) := by
  refine ⟨?_,?_,?_⟩
  · intro g' hg'
    rcases List.mem_append.mp hg' with hg' | hg'
    · exact h.inside g' hg'
    · rw [List.mem_singleton.mp hg']
      exact hinside
  · intro g₁ h₁ g₂ h₂ hlt
    rcases List.mem_append.mp h₁ with h₁ | h₁ <;> rcases List.mem_append.mp h₂ with h₂ | h₂
    · exact h.apart g₁ h₁ g₂ h₂ hlt
    · rw [List.mem_singleton.mp h₂] at hlt ⊢
      have := hbefore g₁ h₁
      omega
    · rw [List.mem_singleton.mp h₁] at hlt ⊢
      have := hbefore g₂ h₂
      omega
    · rw [List.mem_singleton.mp h₁,List.mem_singleton.mp h₂] at hlt
      omega
  · intro e
    rw [List.countP_append,List.countP_singleton]
    split
    · next he =>
      rw [decide_eq_true_eq] at he
      subst he
      omega
    · exact h.full e

end Paced

structure Expired (w c now : Nat) (log : List Grant) : Prop where
  paced : Paced w c log
  past : ∀ g ∈ log, g.epoch + w ≤ now

structure Running (w c now refillAt tokens : Nat) (log : List Grant) : Prop where
  paced : Paced w c log
  epoch : ∃ e, refillAt = e + w ∧ e ≤ now ∧ log.countP (fun g => g.epoch = e) + tokens = c ∧
    ∀ g ∈ log, g.epoch = e ∨ g.epoch + w ≤ e

variable {w c now now' refillAt tokens : Nat} {log : List Grant}

theorem Expired.later (h : Expired w c now log) (hle : now ≤ now') : Expired w c now' log :=
  ⟨h.paced,fun g hg => (h.past g hg).trans hle⟩

theorem Running.later (h : Running w c now refillAt tokens log) (hle : now ≤ now') :
    Running w c now' refillAt tokens log := by
  obtain ⟨hp,e,he,hnow,hrest⟩ := h
  exact ⟨hp,e,he,hnow.trans hle,hrest⟩

theorem Running.expired (h : Running w c now refillAt tokens log) (hle : refillAt ≤ now') :
    Expired w c now' log := by
  obtain ⟨hp,e,rfl,_,_,hbefore⟩ := h
  refine ⟨hp,fun g hg => ?_⟩
  have := hbefore g hg
  omega

theorem Expired.refill (h : Expired w c now log) (hw : 0 < w) : Running w c now (now + w) c log := by
  refine ⟨h.paced,now,rfl,le_refl now,?_,fun g hg => Or.inr (h.past g hg)⟩
  rw [List.countP_eq_zero.mpr,Nat.zero_add]
  intro g hg
  have := h.past g hg
  simp only [decide_eq_true_eq]
  omega

theorem Running.spend (h : Running w c now refillAt (tokens + 1) log) (hlive : now < refillAt) :
    ∃ e, Running w c now refillAt tokens (log ++ [⟨now,e⟩]) := by
  obtain ⟨hp,e,rfl,hnow,hcount,hbefore⟩ := h
  have hroom : log.countP (fun g => g.epoch = e) < c := by omega
  refine ⟨e,hp.snoc ⟨hnow,hlive⟩ hbefore hroom,e,rfl,hnow,?_,?_⟩
  · rw [List.countP_append,List.countP_singleton]
    simp only [decide_true,if_true]
    omega
  · intro g hg
    rcases List.mem_append.mp hg with hg | hg
    · exact hbefore g hg
    · exact Or.inl (by rw [List.mem_singleton.mp hg])

end DnsSeeder.Lib
