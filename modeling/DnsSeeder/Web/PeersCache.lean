import DnsSeeder.Time

namespace DnsSeeder

structure Key where
  all : Bool
  expose : Bool
deriving DecidableEq

structure Entry (B : Type) where
  key : Key
  body : B
  inserted : Nat

structure PeersCache (B : Type) where
  ttl : Duration
  entries : List (Entry B)

namespace PeersCache

variable {B : Type}

def new (ttl : Duration) : PeersCache B := ⟨ttl,[]⟩

def retain (cache : PeersCache B) (keep : Entry B → Bool) : PeersCache B :=
  { cache with entries := cache.entries.filter keep }

def fresh (ttl : Duration) (now : Nat) (e : Entry B) : Bool := now - e.inserted < ttl.asNanos

def get (cache : PeersCache B) (key : Key) (now : Nat) : Option B × PeersCache B :=
  let cache := cache.retain (fresh cache.ttl now)
  ((cache.entries.find? (fun e => e.key = key)).map Entry.body,cache)

def put (cache : PeersCache B) (key : Key) (body : B) (now : Nat) : PeersCache B :=
  let cache := cache.retain (fun e => e.key ≠ key)
  { cache with entries := cache.entries ++ [⟨key,body,now⟩] }

variable {cache : PeersCache B} {key : Key} {body : B} {now : Nat} {e : Entry B}

theorem mem_get (h : e ∈ (cache.get key now).2.entries) : e ∈ cache.entries := List.mem_of_mem_filter h

theorem get_hit (h : (cache.get key now).1 = some body) :
    ∃ e ∈ cache.entries, e.key = key ∧ e.body = body ∧ now < e.inserted + cache.ttl.asNanos := by
  obtain ⟨e,he,rfl⟩ := Option.map_eq_some_iff.mp h
  have hkey := List.find?_some he
  obtain ⟨hm,hfresh⟩ := List.mem_filter.mp (List.mem_of_find?_eq_some he)
  simp only [fresh,decide_eq_true_eq] at hkey hfresh
  exact ⟨e,hm,hkey,rfl,by omega⟩

theorem mem_put (h : e ∈ (cache.put key body now).entries) : e ∈ cache.entries ∨ e = ⟨key,body,now⟩ := by
  rcases List.mem_append.mp h with h | h
  · exact Or.inl (List.mem_of_mem_filter h)
  · exact Or.inr (List.mem_singleton.mp h)

structure EntryAlike (R : Key → B → B → Prop) (e e' : Entry B) : Prop where
  key : e'.key = e.key
  inserted : e'.inserted = e.inserted
  body : R e.key e.body e'.body

structure Alike (R : Key → B → B → Prop) (cache cache' : PeersCache B) : Prop where
  ttl : cache'.ttl = cache.ttl
  entries : List.Forall₂ (EntryAlike R) cache.entries cache'.entries

variable {R : Key → B → B → Prop} {cache' : PeersCache B}

theorem Alike.retain {keep : Entry B → Bool} (h : Alike R cache cache')
    (hkeep : ∀ e e', EntryAlike R e e' → keep e = keep e') :
    Alike R (cache.retain keep) (cache'.retain keep) := by
  refine ⟨h.ttl,?_⟩
  refine List.rel_filter ?_ h.entries
  intro e e' he
  simp only [hkeep e e' he]

theorem find_alike {es es' : List (Entry B)} (h : List.Forall₂ (EntryAlike R) es es') :
    Option.Rel (R key) ((es.find? (fun e => e.key = key)).map Entry.body)
      ((es'.find? (fun e => e.key = key)).map Entry.body) := by
  induction h with
  | nil => exact .none
  | @cons e e' es es' he _ ih =>
    rw [List.find?_cons,List.find?_cons,he.key]
    by_cases hk : e.key = key
    · simpa [hk] using Option.Rel.some (hk ▸ he.body)
    · simpa [hk] using ih

theorem Alike.get (h : Alike R cache cache') (key : Key) (now : Nat) :
    Option.Rel (R key) (cache.get key now).1 (cache'.get key now).1 ∧
      Alike R (cache.get key now).2 (cache'.get key now).2 := by
  have hretain : Alike R (cache.retain (fresh cache.ttl now)) (cache'.retain (fresh cache'.ttl now)) := by
    rw [h.ttl]
    refine h.retain ?_
    intro e e' he
    rw [fresh,fresh,he.inserted]
  exact ⟨find_alike hretain.entries,hretain⟩

theorem Alike.put {body' : B} (h : Alike R cache cache') (hbody : R key body body') :
    Alike R (cache.put key body now) (cache'.put key body' now) := by
  have hretain : Alike R (cache.retain (fun e => e.key ≠ key)) (cache'.retain (fun e => e.key ≠ key)) := by
    refine h.retain ?_
    intro e e' he
    rw [he.key]
  exact ⟨hretain.ttl,List.rel_append hretain.entries (.cons ⟨rfl,rfl,hbody⟩ .nil)⟩

end PeersCache

end DnsSeeder
