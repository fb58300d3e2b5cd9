import DnsSeeder.Lib.Run
import DnsSeeder.Lib.Slots

namespace DnsSeeder.Lib

structure Split (S T R : Type) where
  first : T → S → R ⊕ S
  second : T → R → S → S

inductive Progress (R : Type) where
  | waiting
  | holding (r : R)
  | done

structure Thread (T R : Type) where
  task : T
  progress : Progress R

structure Threads (S T R : Type) where
  state : S
  threads : List (Thread T R)

def Threads.load {S T R : Type} (s : S) (ts : List T) : Threads S T R := ⟨s,ts.map (fun t => ⟨t,.waiting⟩)⟩

namespace Progress

variable {R : Type}

def isDone : Progress R → Bool
  | .done => true
  | _ => false

end Progress

namespace Split

variable {S T R : Type} (p : Split S T R)

def whole (s : S) (t : T) : S :=
  match p.first t s with
  | .inl r => p.second t r s
  | .inr s' => s'

def serial (s : S) (ts : List T) : S := ts.foldl p.whole s

def step (q : Threads S T R) (i : Nat) : Option (Threads S T R) :=
  match q.threads[i]? with
  | some ⟨t,.waiting⟩ =>
      match p.first t q.state with
      | .inl r => some ⟨q.state,q.threads.set i ⟨t,.holding r⟩⟩
      | .inr s => some ⟨s,q.threads.set i ⟨t,.done⟩⟩
  | some ⟨t,.holding r⟩ => some ⟨p.second t r q.state,q.threads.set i ⟨t,.done⟩⟩
  | _ => none

def Current (q : Threads S T R) (i : Nat) : Prop :=
  ∀ t r, q.threads[i]? = some ⟨t,.holding r⟩ → p.second t r q.state = p.whole q.state t

variable {p}

inductive Moves (p : Split S T R) (q : Threads S T R) (i : Nat) : Threads S T R → Prop
  | read {t : T} {r : R} (hi : q.threads[i]? = some ⟨t,.waiting⟩) (hr : p.first t q.state = .inl r) :
      Moves p q i ⟨q.state,q.threads.set i ⟨t,.holding r⟩⟩
  | single {t : T} {s : S} (hi : q.threads[i]? = some ⟨t,.waiting⟩) (hs : p.first t q.state = .inr s) :
      Moves p q i ⟨s,q.threads.set i ⟨t,.done⟩⟩
  | write {t : T} {r : R} (hi : q.threads[i]? = some ⟨t,.holding r⟩) :
      Moves p q i ⟨p.second t r q.state,q.threads.set i ⟨t,.done⟩⟩

theorem moves_of_step {q q' : Threads S T R} {i : Nat} (h : p.step q i = some q') : Moves p q i q' := by
  unfold step at h
  split at h
  · next t hi =>
    split at h
    · next r hr => exact Option.some.inj h ▸ .read hi hr
    · next s hs => exact Option.some.inj h ▸ .single hi hs
  · next t r hi => exact Option.some.inj h ▸ .write hi
  · cases h

structure Serial (p : Split S T R) (s : S) (ts order : List T) (q : Threads S T R) : Prop where
  state : q.state = p.serial s order
  done : order.Perm ((q.threads.filter (·.progress.isDone)).map Thread.task)
  tasks : q.threads.map Thread.task = ts

theorem serial_load (s : S) (ts : List T) : Serial p s ts [] (Threads.load s ts) := by
  refine ⟨rfl,?_,?_⟩
  · simp [Threads.load,Progress.isDone]
  · simp [Threads.load,Function.comp_def]

theorem serial_snoc (s : S) (order : List T) (t : T) :
    p.serial s (order ++ [t]) = p.whole (p.serial s order) t := by
  simp [serial]

theorem tasks_set {l : List (Thread T R)} {i : Nat} {t : T} {x y : Progress R}
    (hi : l[i]? = some ⟨t,x⟩) : (l.set i ⟨t,y⟩).map Thread.task = l.map Thread.task := by
  obtain ⟨l₁,l₂,hl,hset,_⟩ := split_at hi
  rw [hset,hl]
  simp

theorem finished_set {l : List (Thread T R)} {i : Nat} {t : T} {x y : Progress R}
    (hi : l[i]? = some ⟨t,x⟩) (hx : x.isDone = false) (hy : y.isDone = true) :
    ((l.filter (·.progress.isDone)).map Thread.task ++ [t]).Perm
      (((l.set i ⟨t,y⟩).filter (·.progress.isDone)).map Thread.task) := by
  obtain ⟨l₁,l₂,hl,hset,_⟩ := split_at hi
  rw [hset,hl]
  simp only [List.filter_append,List.filter_cons,hx,hy,List.map_append,List.map_cons,if_true,
    Bool.false_eq_true,if_false,List.append_assoc]
  exact List.Perm.append_left _ (List.perm_append_singleton t _)

theorem Serial.commit {s s' : S} {ts order : List T} {q : Threads S T R} {i : Nat} {t : T} {x : Progress R}
    (h : Serial p s ts order q) (hi : q.threads[i]? = some ⟨t,x⟩) (hx : x.isDone = false)
    (hs : s' = p.whole q.state t) :
    Serial p s ts (order ++ [t]) ⟨s',q.threads.set i ⟨t,.done⟩⟩ where
  state := by rw [serial_snoc,← h.state,hs]
  done := (h.done.append_right [t]).trans (finished_set hi hx rfl)
  tasks := (tasks_set hi).trans h.tasks

theorem serial_step {s : S} {ts order : List T} {q q' : Threads S T R} {i : Nat}
    (h : Serial p s ts order q) (hc : p.Current q i) (hs : p.step q i = some q') :
    ∃ order', Serial p s ts order' q' := by
  cases moves_of_step hs with
  | @read t r hi hr =>
    refine ⟨order,h.state,?_,(tasks_set hi).trans h.tasks⟩
    obtain ⟨l₁,l₂,hl,hset,_⟩ := split_at hi
    have hdone := h.done
    rw [hl] at hdone
    simpa [hset,Progress.isDone] using hdone
  | @single t s' hi hs' => exact ⟨_,h.commit hi rfl (by rw [whole,hs'])⟩
  | @write t r hi => exact ⟨_,h.commit hi rfl (hc t r hi)⟩

theorem serializable {J : Threads S T R → Prop} {allowed : Threads S T R → Nat → Bool} {s : S} {ts : List T}
    {is : List Nat} {q : Threads S T R}
    (hstep : ∀ q i q', J q → restrict allowed p.step q i = some q' → J q')
    (hcurrent : ∀ q i, J q → allowed q i = true → p.Current q i) (hload : J (Threads.load s ts))
    (hr : run (restrict allowed p.step) (Threads.load s ts) is = some q)
    (hdone : ∀ th ∈ q.threads, th.progress.isDone = true) :
    ∃ order, order.Perm ts ∧ q.state = p.serial s order := by
  obtain ⟨_,order,hq⟩ : J q ∧ ∃ order, Serial p s ts order q := by
    have hstart : J (Threads.load s ts) ∧ ∃ order, Serial p s ts order (Threads.load s ts) :=
      ⟨hload,[],serial_load s ts⟩
    refine run_invariant (I := fun q => J q ∧ ∃ order, Serial p s ts order q) ?_ hstart hr
    rintro q i q' ⟨hJ,order,hq⟩ hs
    obtain ⟨ha,hs'⟩ := restrict_eq_some.mp hs
    exact ⟨hstep q i q' hJ hs,serial_step hq (hcurrent q i hJ ha) hs'⟩
  refine ⟨order,?_,hq.state⟩
  have hperm := hq.done
  rwa [List.filter_eq_self.mpr hdone,hq.tasks] at hperm

end Split

end DnsSeeder.Lib
