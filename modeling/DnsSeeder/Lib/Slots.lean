import Mathlib.Tactic

namespace DnsSeeder.Lib

theorem split_at {α : Type} {l : List α} {i : Nat} {x : α} (h : l[i]? = some x) :
    ∃ l₁ l₂, l = l₁ ++ x :: l₂ ∧ (∀ y, l.set i y = l₁ ++ y :: l₂) ∧ l.eraseIdx i = l₁ ++ l₂ := by
  obtain ⟨hi,rfl⟩ := List.getElem?_eq_some_iff.mp h
  refine ⟨l.take i,l.drop (i+1),?_,?_,?_⟩
  · rw [← List.drop_eq_getElem_cons hi,List.take_append_drop]
  · intro y
    rw [List.set_eq_take_append_cons_drop,if_pos hi]
  · exact List.eraseIdx_eq_take_drop_succ l i

theorem getElem?_set_some {α : Type} {l : List α} {i j : Nat} {x y : α} (h : (l.set i y)[j]? = some x) :
    (j = i ∧ x = y) ∨ (j ≠ i ∧ l[j]? = some x) := by
  rw [List.getElem?_set] at h
  split at h
  · next hij =>
    split at h
    · exact Or.inl ⟨hij.symm,(Option.some.inj h).symm⟩
    · cases h
  · next hij => exact Or.inr ⟨fun hji => hij hji.symm,h⟩

theorem mem_set_of_ne {α : Type} {l : List α} {i : Nat} {x y a : α} (hi : l[i]? = some x) (ha : a ∈ l)
    (hne : a ≠ x) : a ∈ l.set i y := by
  obtain ⟨l₁,l₂,hl,hset,_⟩ := split_at hi
  rw [hl] at ha
  rw [hset]
  rcases List.mem_append.mp ha with ha | ha
  · exact List.mem_append_left _ ha
  · rcases List.mem_cons.mp ha with rfl | ha
    · exact absurd rfl hne
    · exact List.mem_append_right _ (List.mem_cons_of_mem _ ha)

theorem mem_set_self {α : Type} {l : List α} {i : Nat} {x : α} (hi : l[i]? = some x) (y : α) :
    y ∈ l.set i y := by
  obtain ⟨l₁,l₂,_,hset,_⟩ := split_at hi
  rw [hset]
  exact List.mem_append_right _ List.mem_cons_self

section tally
variable {α : Type} {l : List α} {i : Nat} {x : α}

theorem sum_set (f : α → Nat) (h : l[i]? = some x) (y : α) :
    ((l.set i y).map f).sum + f x = (l.map f).sum + f y := by
  obtain ⟨l₁,l₂,hl,hset,_⟩ := split_at h
  rw [hset,hl]
  simp only [List.map_append,List.map_cons,List.sum_append,List.sum_cons]
  omega

theorem sum_eraseIdx (f : α → Nat) (h : l[i]? = some x) :
    ((l.eraseIdx i).map f).sum + f x = (l.map f).sum := by
  obtain ⟨l₁,l₂,hl,_,herase⟩ := split_at h
  rw [herase,hl]
  simp only [List.map_append,List.map_cons,List.sum_append,List.sum_cons]
  omega

theorem countP_set (p : α → Bool) (h : l[i]? = some x) (y : α) :
    (l.set i y).countP p + (if p x then 1 else 0) = l.countP p + if p y then 1 else 0 := by
  obtain ⟨l₁,l₂,hl,hset,_⟩ := split_at h
  rw [hset,hl]
  simp only [List.countP_append,List.countP_cons]
  omega

theorem countP_eraseIdx (p : α → Bool) (h : l[i]? = some x) :
    (l.eraseIdx i).countP p + (if p x then 1 else 0) = l.countP p := by
  obtain ⟨l₁,l₂,hl,_,herase⟩ := split_at h
  rw [herase,hl]
  simp only [List.countP_append,List.countP_cons]
  omega

end tally

structure Slots {α : Type} (taken : Finset α) (owners : List α) : Prop where
  nodup : owners.Nodup
  mem : ∀ a, a ∈ taken ↔ a ∈ owners

namespace Slots

variable {α : Type} {s : Finset α} {l l' : List α} {a : α}

theorem perm (h : Slots s l) (hp : l.Perm l') : Slots s l' :=
  ⟨hp.nodup_iff.mp h.nodup,fun b => (h.mem b).trans hp.mem_iff⟩

variable [DecidableEq α]

theorem add (h : Slots s l) (ha : a ∉ s) (hp : l'.Perm (a :: l)) : Slots (insert a s) l' := by
  refine Slots.perm ⟨List.nodup_cons.mpr ⟨?_,h.nodup⟩,?_⟩ hp.symm
  · exact fun hm => ha ((h.mem a).mpr hm)
  · intro b
    rw [Finset.mem_insert,List.mem_cons,h.mem]

theorem remove (h : Slots s l) (hp : l.Perm (a :: l')) : Slots (s.erase a) l' := by
  have h' := h.perm hp
  obtain ⟨hna,hnd⟩ := List.nodup_cons.mp h'.nodup
  refine ⟨hnd,?_⟩
  intro b
  rw [Finset.mem_erase,h'.mem,List.mem_cons]
  constructor
  · rintro ⟨hne,rfl | hm⟩
    · exact absurd rfl hne
    · exact hm
  · intro hm
    exact ⟨fun he => hna (he ▸ hm),Or.inr hm⟩

end Slots

section paired
variable {α β : Type} {R : α → β → Prop} {l : List α} {m : List β}

theorem forall₂_getElem? (h : List.Forall₂ R l m) {i : Nat} {x : α} (hi : l[i]? = some x) :
    ∃ y, m[i]? = some y ∧ R x y := by
  induction h generalizing i with
  | nil => cases hi
  | @cons a b l m hab _ ih =>
    cases i with
    | zero =>
      obtain rfl := Option.some.inj hi
      exact ⟨b,rfl,hab⟩
    | succ i => exact ih hi

theorem forall₂_set (h : List.Forall₂ R l m) (i : Nat) {x : α} {y : β} (hxy : R x y) :
    List.Forall₂ R (l.set i x) (m.set i y) := by
  induction h generalizing i with
  | nil => exact .nil
  | @cons a b l m hab hrest ih =>
    cases i with
    | zero => exact .cons hxy hrest
    | succ i => exact .cons hab (ih i)

theorem forall₂_set_left (h : List.Forall₂ R l m) {i : Nat} {x : α} {y : β} (hi : m[i]? = some y)
    (hxy : R x y) : List.Forall₂ R (l.set i x) m := by
  obtain ⟨hlt,rfl⟩ := List.getElem?_eq_some_iff.mp hi
  simpa using forall₂_set h i hxy

theorem forall₂_set_right (h : List.Forall₂ R l m) (i : Nat) {y : β} (hy : ∀ x, R x y) :
    List.Forall₂ R l (m.set i y) := by
  induction h generalizing i with
  | nil => exact .nil
  | @cons a b l m hab hrest ih =>
    cases i with
    | zero => exact .cons (hy a) hrest
    | succ i => exact .cons hab (ih i)

theorem forall₂_eraseIdx (h : List.Forall₂ R l m) (i : Nat) :
    List.Forall₂ R (l.eraseIdx i) (m.eraseIdx i) := by
  induction h generalizing i with
  | nil => exact .nil
  | @cons a b l m hab hrest ih =>
    cases i with
    | zero => exact hrest
    | succ i => exact .cons hab (ih i)

end paired

end DnsSeeder.Lib
