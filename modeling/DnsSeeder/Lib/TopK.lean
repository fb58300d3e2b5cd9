import Mathlib.Tactic

namespace DnsSeeder.Lib

variable {α β κ : Type}

def filterChecked (p : α → Option Bool) : List α → Option (List α)
  | [] => some []
  | a :: as =>
      match p a with
      | none => none
      | some keep => (filterChecked p as).map (fun rest => if keep then a :: rest else rest)

theorem filterChecked_eq {p : α → Option Bool} {l : List α} (h : ∀ a ∈ l, (p a).isSome) :
    filterChecked p l = some (l.filter (fun a => p a == some true)) := by
  induction l with
  | nil => rfl
  | cons a l ih =>
    have ih := ih (fun b hb => h b (by simp [hb]))
    obtain ⟨keep,hk⟩ := Option.isSome_iff_exists.mp (h a (by simp))
    rw [filterChecked,hk,ih]
    cases keep <;> simp [hk]

theorem mem_filterChecked {p : α → Option Bool} {l out : List α} (h : filterChecked p l = some out) :
    ∀ a ∈ out, a ∈ l ∧ p a = some true := by
  induction l generalizing out with
  | nil =>
    obtain rfl := Option.some.inj h
    simp
  | cons b l ih =>
    rw [filterChecked] at h
    split at h
    · simp at h
    · next keep hk =>
      obtain ⟨rest,hrest,rfl⟩ := Option.map_eq_some_iff.mp h
      have ih := ih hrest
      intro a ha
      cases keep with
      | false => exact ⟨List.mem_cons_of_mem _ (ih a ha).1,(ih a ha).2⟩
      | true =>
        rcases List.mem_cons.mp ha with rfl | ha
        · exact ⟨by simp,hk⟩
        · exact ⟨List.mem_cons_of_mem _ (ih a ha).1,(ih a ha).2⟩

theorem length_filterChecked {p : α → Option Bool} {l out : List α} (h : filterChecked p l = some out) :
    out.length = l.countP (fun a => p a == some true) := by
  induction l generalizing out with
  | nil =>
    obtain rfl := Option.some.inj h
    rfl
  | cons b l ih =>
    rw [filterChecked] at h
    split at h
    · cases h
    · next keep hk =>
      obtain ⟨rest,hrest,rfl⟩ := Option.map_eq_some_iff.mp h
      have ih := ih hrest
      cases keep with
      | false => simpa [hk] using ih
      | true => simpa [hk] using ih

structure DescendingSort (key : α → κ) [LE κ] where
  sort : List α → List α
  perm : ∀ l, (sort l).Perm l
  sorted : ∀ l, (sort l).Pairwise (fun a b => key b ≤ key a)

namespace DescendingSort

variable [LE κ] {key : α → κ} (srt : DescendingSort key)

def top (k : Nat) (l : List α) : List α := (srt.sort l).take k

theorem mem_of_top {k : Nat} {l : List α} {a : α} (h : a ∈ srt.top k l) : a ∈ l :=
  (srt.perm l).mem_iff.mp (List.mem_of_mem_take h)

theorem length_top (k : Nat) (l : List α) : (srt.top k l).length = min k l.length := by
  rw [top,List.length_take,(srt.perm l).length_eq]

theorem nodup_top {f : α → β} {k : Nat} {l : List α} (h : (l.map f).Nodup) :
    ((srt.top k l).map f).Nodup := by
  have hperm : ((srt.sort l).map f).Nodup := ((srt.perm l).map f).nodup_iff.mpr h
  exact hperm.sublist ((List.take_sublist k _).map f)

theorem top_dominates {k : Nat} {l : List α} {a b : α} (ha : a ∈ srt.top k l) (hb : b ∈ l)
    (hb' : b ∉ srt.top k l) : key b ≤ key a := by
  have hsplit := srt.sorted l
  rw [← List.take_append_drop k (srt.sort l),List.pairwise_append] at hsplit
  have hdrop : b ∈ (srt.sort l).drop k := by
    have hm : b ∈ srt.sort l := (srt.perm l).mem_iff.mpr hb
    rw [← List.take_append_drop k (srt.sort l)] at hm
    rcases List.mem_append.mp hm with hm | hm
    · exact absurd hm hb'
    · exact hm
  exact hsplit.2.2 a ha b hdrop

end DescendingSort

theorem pairwise_sort_descending {key : α → Int64} (l : List α) :
    (l.insertionSort (fun a b => key b ≤ key a)).Pairwise (fun a b => key b ≤ key a) := by
  have : Std.Total (fun a b : α => key b ≤ key a) := ⟨fun a b => Int64.le_total _ _⟩
  have : IsTrans α (fun a b => key b ≤ key a) := ⟨fun a b c h h' => Int64.le_trans h' h⟩
  exact List.pairwise_insertionSort _ l

theorem filter_project {f : α → β} {p : α → Bool} {q : β → Bool} {l : List α}
    (h : ∀ a ∈ l, p a = q (f a)) : (l.filter p).map f = (l.map f).filter q := by
  rw [List.filter_map]
  exact congrArg _ (List.filter_congr h)

theorem perm_filter_project {f : α → β} {p : α → Bool} {q : β → Bool} {l l' : List α}
    (hl : ∀ a ∈ l, p a = q (f a)) (hl' : ∀ a ∈ l', p a = q (f a)) (h : (l.map f).Perm (l'.map f)) :
    ((l.filter p).map f).Perm ((l'.filter p).map f) := by
  rw [filter_project hl,filter_project hl']
  exact h.filter q

theorem keys_eq_of_perm [LE κ] (hanti : ∀ x y : κ, x ≤ y → y ≤ x → x = y) {key : β → κ} {l l' : List β}
    (h : l.Perm l') (hl : l.Pairwise (fun a b => key b ≤ key a))
    (hl' : l'.Pairwise (fun a b => key b ≤ key a)) : l.map key = l'.map key := by
  have hk : (l.map key).Pairwise (fun x y => y ≤ x) := List.pairwise_map.mpr hl
  have hk' : (l'.map key).Pairwise (fun x y => y ≤ x) := List.pairwise_map.mpr hl'
  exact List.Perm.eq_of_pairwise (fun x y _ _ hxy hyx => hanti x y hyx hxy) hk hk' (h.map key)

end DnsSeeder.Lib
