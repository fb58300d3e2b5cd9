import DnsSeeder.Lib.Table

namespace DnsSeeder.Lib

section ordered
variable {α β : Type} {cmp : β → β → Ordering} [Std.TransCmp cmp] {f : α → β} {l l' : List α}

theorem eq_of_cmp_eq (hordered : l.Pairwise (fun a b => cmp (f a) (f b) = .lt)) {a b : α} (ha : a ∈ l)
    (hb : b ∈ l) (heq : cmp (f a) (f b) = .eq) : a = b := by
  have : Std.Symm (fun a b => cmp (f a) (f b) = .eq → a = b) :=
    ⟨fun _ _ h he => (h (Std.OrientedCmp.eq_symm he)).symm⟩
  refine List.Pairwise.forall_of_forall (R := fun a b => cmp (f a) (f b) = .eq → a = b) ?_ ?_ ha hb heq
  · exact fun _ _ _ => rfl
  · exact hordered.imp (fun hlt he => nomatch hlt.symm.trans he)

def ascending (cmp : β → β → Ordering) (f : α → β) (a b : α) : Prop := (cmp (f a) (f b)).isLE = true

instance (cmp : β → β → Ordering) (f : α → β) : DecidableRel (ascending cmp f) :=
  fun _ _ => inferInstanceAs (Decidable (_ = _))

instance : Std.Total (ascending cmp f) where
  total a b := by
    have hswap : cmp (f b) (f a) = (cmp (f a) (f b)).swap := Std.OrientedCmp.eq_swap
    unfold ascending
    rw [hswap]
    cases cmp (f a) (f b) <;> simp

instance : IsTrans α (ascending cmp f) where
  trans _ _ _ hab hbc := Std.TransCmp.isLE_trans hab hbc

theorem sort_eq_of_ordered (hordered : l.Pairwise (fun a b => cmp (f a) (f b) = .lt))
    (hperm : l.Perm l') : l'.insertionSort (ascending cmp f) = l := by
  have hsorted : l.Pairwise (ascending cmp f) := hordered.imp (fun h => by rw [ascending,h]; rfl)
  have hsame : (l'.insertionSort (ascending cmp f)).Perm l := (List.perm_insertionSort _ _).trans hperm.symm
  refine List.Perm.eq_of_pairwise ?_ (List.pairwise_insertionSort _ _) hsorted hsame
  intro a b ha hb hab hba
  exact eq_of_cmp_eq hordered (hsame.mem_iff.mp ha) hb (Std.OrientedCmp.isLE_antisymm hab hba)

theorem nodup_of_ordered (hordered : l.Pairwise (fun a b => cmp (f a) (f b) = .lt)) : l.Nodup := by
  refine hordered.imp ?_
  rintro a _ hlt rfl
  cases hlt.symm.trans Std.ReflCmp.compare_self

end ordered

theorem exists_mem_take_iff {α : Type} {p : α → Bool} {l : List α} {n : Nat} :
    (∃ a ∈ l.take n, p a = true) ↔
      (∃ a ∈ l, p a = true) ∧ (l.takeWhile (fun a => !p a)).length < n := by
  induction l generalizing n with
  | nil => simp
  | cons a l ih =>
    cases n with
    | zero => simp
    | succ n =>
      cases hp : p a with
      | true => simp [hp]
      | false => simp [hp,ih]

namespace Multimap

variable {κ ν : Type} [Ord κ] [Std.TransOrd κ] [Ord ν] [Std.TransOrd ν]

theorem iter_ordered (m : Multimap κ ν) : m.iter.Pairwise (fun p q => lexCmp p q = .lt) :=
  Std.ExtTreeSet.ordered_toList

end Multimap

end DnsSeeder.Lib
