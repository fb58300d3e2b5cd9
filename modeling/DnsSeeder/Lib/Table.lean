import Mathlib.Tactic

namespace DnsSeeder.Lib

structure Table (κ ν : Type) [Ord κ] where
  rows : Std.ExtTreeMap κ ν

namespace Table

variable {κ ν : Type} [Ord κ] [Std.TransOrd κ]

def empty : Table κ ν := ⟨∅⟩
def get (t : Table κ ν) (k : κ) : Option ν := t.rows[k]?
def insert (t : Table κ ν) (k : κ) (v : ν) : Table κ ν := ⟨t.rows.insert k v⟩
def remove (t : Table κ ν) (k : κ) : Table κ ν := ⟨t.rows.erase k⟩
def iter (t : Table κ ν) : List (κ × ν) := t.rows.toList

@[simp] theorem get_empty (k : κ) : (empty : Table κ ν).get k = none := by
  simp [get,empty]

variable [Std.LawfulEqOrd κ]

@[simp] theorem mem_iter (t : Table κ ν) (k : κ) (v : ν) :
    (k,v) ∈ t.iter ↔ t.get k = some v := by
  simp [iter,get,Std.ExtTreeMap.mem_toList_iff_getElem?_eq_some]

@[ext] theorem ext {t u : Table κ ν} (h : ∀ k, t.get k = u.get k) : t = u := by
  cases t; cases u
  congr 1
  exact Std.ExtTreeMap.ext_getElem? h

theorem iter_nodup (t : Table κ ν) : (t.iter.map Prod.fst).Nodup := by
  rw [List.Nodup,List.pairwise_map]
  refine Std.ExtTreeMap.distinct_keys_toList.imp ?_
  intro a b h he
  exact h (by simp [he])

variable [DecidableEq κ]

@[simp] theorem get_insert (t : Table κ ν) (k k' : κ) (v : ν) :
    (t.insert k v).get k' = if k = k' then some v else t.get k' := by
  simp [get,insert,Std.ExtTreeMap.getElem?_insert]

@[simp] theorem get_remove (t : Table κ ν) (k k' : κ) :
    (t.remove k).get k' = if k = k' then none else t.get k' := by
  simp [get,remove,Std.ExtTreeMap.getElem?_erase]

theorem get_removeAll (ks : List κ) (t : Table κ ν) (k : κ) :
    (ks.foldl remove t).get k = if k ∈ ks then none else t.get k := by
  induction ks generalizing t with
  | nil => simp
  | cons a ks ih =>
    simp only [List.foldl_cons,ih,get_remove,List.mem_cons]
    by_cases hk : k ∈ ks
    · simp [hk]
    · simp [hk,eq_comm]

end Table

def lexCmp {α β : Type} [Ord α] [Ord β] : α × β → α × β → Ordering :=
  compareLex (compareOn Prod.fst) (compareOn Prod.snd)

section lexCmp
variable {α β : Type} [Ord α] [Ord β]

instance [Std.TransOrd α] [Std.TransOrd β] : Std.TransCmp (@lexCmp α β _ _) :=
  inferInstanceAs (Std.TransCmp (compareLex _ _))

theorem lexCmp_eq [Std.LawfulEqOrd α] [Std.LawfulEqOrd β] (p q : α × β) :
    lexCmp p q = .eq ↔ p = q := by
  rw [lexCmp,compareLex_eq_eq,Prod.ext_iff]
  simp [compareOn]

instance [Std.TransOrd α] [Std.LawfulEqOrd α] [Std.TransOrd β] [Std.LawfulEqOrd β] :
    Std.LawfulEqCmp (@lexCmp α β _ _) where
  eq_of_compare h := (lexCmp_eq _ _).mp h
  compare_self := (lexCmp_eq _ _).mpr rfl

end lexCmp

structure Multimap (κ ν : Type) [Ord κ] [Ord ν] where
  pairs : Std.ExtTreeSet (κ × ν) lexCmp

namespace Multimap

variable {κ ν : Type} [Ord κ] [Std.TransOrd κ] [Ord ν] [Std.TransOrd ν]

def empty : Multimap κ ν := ⟨∅⟩
def insert (m : Multimap κ ν) (k : κ) (v : ν) : Multimap κ ν := ⟨m.pairs.insert (k,v)⟩
def remove (m : Multimap κ ν) (k : κ) (v : ν) : Multimap κ ν := ⟨m.pairs.erase (k,v)⟩
def iter (m : Multimap κ ν) : List (κ × ν) := m.pairs.toList

instance : Membership (κ × ν) (Multimap κ ν) := ⟨fun m p => p ∈ m.pairs⟩

theorem mem_def (m : Multimap κ ν) (p : κ × ν) : p ∈ m ↔ p ∈ m.pairs := Iff.rfl

@[simp] theorem not_mem_empty (p : κ × ν) : p ∉ (empty : Multimap κ ν) := by
  simp [mem_def,empty]

variable [Std.LawfulEqOrd κ] [Std.LawfulEqOrd ν]

@[simp] theorem mem_insert (m : Multimap κ ν) (k : κ) (v : ν) (p : κ × ν) :
    p ∈ m.insert k v ↔ p = (k,v) ∨ p ∈ m := by
  rw [mem_def,mem_def,insert,Std.ExtTreeSet.mem_insert,lexCmp_eq,eq_comm]

@[simp] theorem mem_remove (m : Multimap κ ν) (k : κ) (v : ν) (p : κ × ν) :
    p ∈ m.remove k v ↔ p ≠ (k,v) ∧ p ∈ m := by
  rw [mem_def,mem_def,remove,Std.ExtTreeSet.mem_erase,Ne,lexCmp_eq,eq_comm]

@[simp] theorem mem_iter (m : Multimap κ ν) (p : κ × ν) : p ∈ m.iter ↔ p ∈ m := by
  rw [iter,Std.ExtTreeSet.mem_toList,mem_def]

@[ext] theorem ext {m n : Multimap κ ν} (h : ∀ p, p ∈ m ↔ p ∈ n) : m = n := by
  cases m; cases n
  congr 1
  exact Std.ExtTreeSet.ext_mem h

end Multimap

end DnsSeeder.Lib
