import DnsSeeder.Lib.Run

namespace DnsSeeder.Lib

structure TaskServer (S Q T I A : Type) where
  accept : Q → T
  request : T → Q
  turn : S → T → I → Option (S × T)
  ambient : S → A → S

structure Served (S T : Type) where
  shared : S
  ids : List Nat
  tasks : Nat → Option T

inductive ServerEvent (Q I A : Type) where
  | arrive (id : Nat) (request : Q)
  | advance (id : Nat) (input : I)
  | ambient (a : A)

namespace Served

variable {S T : Type}

def start (shared : S) : Served S T := ⟨shared,[],fun _ => none⟩

def count (P : T → Bool) (s : Served S T) : Nat := s.ids.countP (fun id => (s.tasks id).any P)

def AllTasks (ok : T → Prop) (s : Served S T) : Prop := ∀ id task, s.tasks id = some task → ok task

structure Tracked (s : Served S T) : Prop where
  nodup : s.ids.Nodup
  mem : ∀ id, id ∈ s.ids ↔ (s.tasks id).isSome = true

theorem tracked_start (shared : S) : (start shared : Served S T).Tracked := ⟨List.nodup_nil,by simp [start]⟩

end Served

theorem countP_update_absent {T : Type} (P : Option T → Bool) (f : Nat → Option T) {id : Nat} (x : Option T)
    {ids : List Nat} (hid : id ∉ ids) :
    ids.countP (fun j => P (Function.update f id x j)) = ids.countP (fun j => P (f j)) := by
  refine List.countP_congr (fun j hj => ?_)
  have hne : j ≠ id := fun he => hid (he ▸ hj)
  rw [Function.update_of_ne hne]

theorem countP_update {T : Type} (P : Option T → Bool) (f : Nat → Option T) (id : Nat) (x : Option T)
    {ids : List Nat} (hnodup : ids.Nodup) (hmem : id ∈ ids) :
    ids.countP (fun j => P (Function.update f id x j)) + (P (f id)).toNat =
      ids.countP (fun j => P (f j)) + (P x).toNat := by
  induction ids with
  | nil => cases hmem
  | cons j ids ih =>
    obtain ⟨hj,hnodup⟩ := List.nodup_cons.mp hnodup
    rw [List.countP_cons,List.countP_cons]
    rcases List.mem_cons.mp hmem with rfl | hmem
    · rw [countP_update_absent P f x hj,Function.update_self]
      cases P (f id) <;> cases P x <;> simp
    · have hne : j ≠ id := fun he => hj (he ▸ hmem)
      have := ih hnodup hmem
      rw [Function.update_of_ne hne]
      omega

theorem Served.count_sum {S T : Type} {P : T → Bool} {parts : List (T → Bool)}
    (h : ∀ t, (P t).toNat = (parts.map (fun R => (R t).toNat)).sum) (s : Served S T) :
    s.count P = (parts.map (fun R => s.count R)).sum := by
  unfold Served.count
  induction s.ids with
  | nil => simp
  | cons id ids ih =>
    simp only [List.countP_cons,ih]
    cases s.tasks id with
    | none => simp
    | some t =>
      have ht := h t
      simp only [Option.any_some,List.sum_map_add]
      simpa [Bool.toNat,Bool.cond_eq_ite] using ht

namespace TaskServer

variable {S Q T I A : Type} (v : TaskServer S Q T I A)

def step (s : Served S T) : ServerEvent Q I A → Option (Served S T)
  | .arrive id request =>
      match s.tasks id with
      | some _ => none
      | none => some ⟨s.shared,id :: s.ids,Function.update s.tasks id (some (v.accept request))⟩
  | .advance id input =>
      match s.tasks id with
      | none => none
      | some task => (v.turn s.shared task input).map (fun r =>
          ⟨r.1,s.ids,Function.update s.tasks id (some r.2)⟩)
  | .ambient a => some { s with shared := v.ambient s.shared a }

inductive Moves (s : Served S T) : ServerEvent Q I A → Served S T → Prop
  | arrive {id : Nat} {request : Q} (free : s.tasks id = none) :
      Moves s (.arrive id request)
        ⟨s.shared,id :: s.ids,Function.update s.tasks id (some (v.accept request))⟩
  | advance {id : Nat} {input : I} {task task' : T} {shared : S} (held : s.tasks id = some task)
      (turn : v.turn s.shared task input = some (shared,task')) :
      Moves s (.advance id input) ⟨shared,s.ids,Function.update s.tasks id (some task')⟩
  | ambient {a : A} : Moves s (.ambient a) { s with shared := v.ambient s.shared a }

variable {v} {s t : Served S T} {e : ServerEvent Q I A}

theorem moves_of_step (h : v.step s e = some t) : Moves v s e t := by
  cases e with
  | arrive id request =>
    cases hid : s.tasks id with
    | some task => simp [step,hid] at h
    | none =>
      obtain rfl : _ = t := Option.some.inj (by simpa only [step,hid] using h)
      exact .arrive hid
  | advance id input =>
    cases hid : s.tasks id with
    | none => simp [step,hid] at h
    | some task =>
      obtain ⟨⟨shared,task'⟩,hturn,rfl⟩ := Option.map_eq_some_iff.mp (by simpa only [step,hid] using h)
      exact .advance hid hturn
  | ambient a =>
    obtain rfl := Option.some.inj h
    exact .ambient

theorem step_advance {id : Nat} {input : I} {task task' : T} {shared : S} (held : s.tasks id = some task)
    (turn : v.turn s.shared task input = some (shared,task')) :
    v.step s (.advance id input) = some ⟨shared,s.ids,Function.update s.tasks id (some task')⟩ := by
  simp [step,held,turn]

theorem tracked_step (hs : s.Tracked) (h : v.step s e = some t) : t.Tracked := by
  cases moves_of_step h with
  | @arrive id request free =>
    refine ⟨List.nodup_cons.mpr ⟨fun hmem => ?_,hs.nodup⟩,fun j => ?_⟩
    · have := (hs.mem id).mp hmem
      rw [free] at this
      cases this
    · rcases eq_or_ne j id with rfl | hj
      · simp
      · simp [hj,hs.mem]
  | @advance id input task task' shared held turn =>
    refine ⟨hs.nodup,fun j => ?_⟩
    rcases eq_or_ne j id with rfl | hj
    · simp [hs.mem,held]
    · simp [Function.update_of_ne hj,hs.mem]
  | ambient => exact ⟨hs.nodup,hs.mem⟩

theorem count_arrive (P : T → Bool) {id : Nat} {request : Q} (hs : s.Tracked) (free : s.tasks id = none)
    (hP : P (v.accept request) = false) :
    Served.count P ⟨s.shared,id :: s.ids,Function.update s.tasks id (some (v.accept request))⟩ =
      s.count P := by
  have hid : id ∉ s.ids := fun hmem => by
    have := (hs.mem id).mp hmem
    rw [free] at this
    cases this
  have hrest := countP_update_absent (fun x => Option.any P x) s.tasks (some (v.accept request)) hid
  simp only [Served.count,List.countP_cons,Function.update_self,Option.any_some,hP]
  exact hrest

theorem count_advance (P : T → Bool) {id : Nat} {task : T} (hs : s.Tracked) (held : s.tasks id = some task)
    (shared : S) (task' : T) :
    Served.count P ⟨shared,s.ids,Function.update s.tasks id (some task')⟩ + (P task).toNat =
      s.count P + (P task').toNat := by
  have hmem : id ∈ s.ids := (hs.mem id).mpr (by rw [held]; rfl)
  have h := countP_update (fun x => Option.any P x) s.tasks id (some task') hs.nodup hmem
  rw [held] at h
  exact h

structure Keeps (v : TaskServer S Q T I A) (inv : S → Prop) (ok : T → Prop) : Prop where
  accept : ∀ request, ok (v.accept request)
  turn : ∀ s t i s' t', inv s → ok t → v.turn s t i = some (s',t') → inv s' ∧ ok t'
  ambient : ∀ s a, inv s → inv (v.ambient s a)

structure Sound (inv : S → Prop) (ok : T → Prop) (s : Served S T) : Prop where
  shared : inv s.shared
  tasks : s.AllTasks ok
  tracked : s.Tracked

theorem allTasks_update {ok : T → Prop} (hs : s.AllTasks ok) {id : Nat} {task : T} (htask : ok task)
    (shared : S) (ids : List Nat) :
    Served.AllTasks ok ⟨shared,ids,Function.update s.tasks id (some task)⟩ := by
  intro j t ht
  change Function.update s.tasks id (some task) j = some t at ht
  rcases eq_or_ne j id with rfl | hne
  · rw [Function.update_self] at ht
    exact Option.some.inj ht ▸ htask
  · rw [Function.update_of_ne hne] at ht
    exact hs j t ht

theorem sound_step {inv : S → Prop} {ok : T → Prop} (hv : Keeps v inv ok) (hs : Sound inv ok s)
    (h : v.step s e = some t) : Sound inv ok t := by
  refine ⟨?_,?_,tracked_step hs.tracked h⟩
  · cases moves_of_step h with
    | arrive _ => exact hs.shared
    | advance held turn => exact (hv.turn _ _ _ _ _ hs.shared (hs.tasks _ _ held) turn).1
    | ambient => exact hv.ambient _ _ hs.shared
  · cases moves_of_step h with
    | arrive _ => exact allTasks_update hs.tasks (hv.accept _) _ _
    | advance held turn =>
      exact allTasks_update hs.tasks (hv.turn _ _ _ _ _ hs.shared (hs.tasks _ _ held) turn).2 _ _
    | ambient => exact hs.tasks

theorem sound_start {inv : S → Prop} (ok : T → Prop) {shared : S} (hinv : inv shared) :
    Sound inv ok (.start shared) where
  shared := hinv
  tasks _ _ ht := by cases ht
  tracked := Served.tracked_start shared

theorem sound_run {inv : S → Prop} {ok : T → Prop} (hv : Keeps v inv ok) {shared : S} (hinv : inv shared)
    {es : List (ServerEvent Q I A)} (h : run v.step (.start shared) es = some t) : Sound inv ok t :=
  run_invariant (fun _ _ _ hs hstep => sound_step hv hs hstep) (sound_start ok hinv) h

theorem count_le {P R : T → Bool} (h : s.AllTasks (fun t => P t = true → R t = true)) :
    s.count P ≤ s.count R := by
  refine List.countP_mono_left (fun id _ hid => ?_)
  cases htask : s.tasks id with
  | none => simp [htask] at hid
  | some task =>
    rw [htask,Option.any_some] at hid
    exact h id task htask hid

theorem count_mono {P : T → Bool} (hP : ∀ s t i s' t', v.turn s t i = some (s',t') → P t = true → P t' = true)
    (haccept : ∀ request, P (v.accept request) = false) (hs : s.Tracked) (h : v.step s e = some t) :
    s.count P ≤ t.count P := by
  cases moves_of_step h with
  | arrive free => exact (count_arrive P hs free (haccept _)).ge
  | @advance id input task task' shared held turn =>
    have hcount := count_advance P hs held shared task'
    have hle : (P task).toNat ≤ (P task').toNat := by
      cases hp : P task with
      | false => exact Nat.zero_le _
      | true => rw [hP _ _ _ _ _ turn hp]
    omega
  | ambient => exact Nat.le_refl _

structure Tallies (v : TaskServer S Q T I A) (inv : S → Prop) (ok : T → Prop) (value : S → UInt64)
    (P : T → Bool) : Prop where
  accept : ∀ request, P (v.accept request) = false
  turn : ∀ s t i s' t', inv s → ok t → v.turn s t i = some (s',t') →
    value s' + UInt64.ofNat (P t).toNat = value s + UInt64.ofNat (P t').toNat
  ambient : ∀ s a, value (v.ambient s a) = value s

theorem tally_step {inv : S → Prop} {ok : T → Prop} {value : S → UInt64} {P : T → Bool}
    (hv : Tallies v inv ok value P) (hs : Sound inv ok s)
    (hcount : value s.shared = UInt64.ofNat (s.count P)) (h : v.step s e = some t) :
    value t.shared = UInt64.ofNat (t.count P) := by
  cases moves_of_step h with
  | arrive free => rw [count_arrive P hs.tracked free (hv.accept _),← hcount]
  | @advance id input task task' shared held turn =>
    have hc := congrArg UInt64.ofNat (count_advance P hs.tracked held shared task')
    have hturn := hv.turn _ _ _ _ _ hs.shared (hs.tasks id task held) turn
    rw [UInt64.ofNat_add,UInt64.ofNat_add,← hcount,← hturn] at hc
    exact (UInt64.add_left_inj _).mp hc.symm
  | ambient => exact (hv.ambient _ _).trans hcount

theorem tally_run {inv : S → Prop} {ok : T → Prop} {value : S → UInt64} {P : T → Bool}
    (hkeep : Keeps v inv ok) (hv : Tallies v inv ok value P) {shared : S} (hinv : inv shared)
    (hzero : value shared = 0) {es : List (ServerEvent Q I A)}
    (h : run v.step (.start shared) es = some t) : value t.shared = UInt64.ofNat (t.count P) :=
  (run_invariant (I := fun s => Sound inv ok s ∧ value s.shared = UInt64.ofNat (s.count P))
    (fun _ _ _ hs hstep => ⟨sound_step hkeep hs.1 hstep,tally_step hv hs.1 hs.2 hstep⟩)
    ⟨sound_start ok hinv,hzero⟩ h).2

theorem length_ids_le {es : List (ServerEvent Q I A)} {s t : Served S T} (h : run v.step s es = some t) :
    t.ids.length ≤ s.ids.length + es.length := by
  induction es using List.reverseRecOn generalizing t with
  | nil =>
    obtain rfl := Option.some.inj h
    exact Nat.le_add_right _ _
  | append_singleton es e ih =>
    obtain ⟨u,hu,hstep⟩ := run_snoc.mp h
    have := ih hu
    rw [List.length_append,List.length_singleton]
    cases moves_of_step hstep with
    | arrive _ => rw [List.length_cons]; omega
    | advance _ _ => exact Nat.le_succ_of_le this
    | ambient => exact Nat.le_succ_of_le this

section erasure
variable {V : Type}

structure Separates (v : TaskServer S Q T I A) (ok : T → Prop) (credit : Q → Bool) (visible : S → V) :
    Prop where
  accept : ∀ q, v.request (v.accept q) = q
  request : ∀ s t i s' t', v.turn s t i = some (s',t') → v.request t' = v.request t
  uncredited : ∀ s t i s' t', ok t → credit (v.request t) = false → v.turn s t i = some (s',t') →
    visible s' = visible s
  credited : ∀ s r t i s' t', ok t → credit (v.request t) = true → visible r = visible s →
    v.turn s t i = some (s',t') → ∃ r', v.turn r t i = some (r',t') ∧ visible r' = visible s'
  ambient : ∀ s r a, visible r = visible s → visible (v.ambient r a) = visible (v.ambient s a)

def kept (keep : Nat → Bool) : ServerEvent Q I A → Bool
  | .arrive id _ => keep id
  | .advance id _ => keep id
  | .ambient _ => true

structure Erased (v : TaskServer S Q T I A) (credit : Q → Bool) (visible : S → V) (keep : Nat → Bool)
    (s r : Served S T) : Prop where
  visible : visible r.shared = visible s.shared
  tasks : ∀ id, keep id = true → r.tasks id = s.tasks id
  credit : ∀ id t, s.tasks id = some t → keep id = credit (v.request t)

variable {credit : Q → Bool} {visible : S → V} {keep : Nat → Bool} {r : Served S T}

theorem Erased.credit_update (h : Erased v credit visible keep s r) {id : Nat} {task : T}
    (hcredit : keep id = credit (v.request task)) (j : Nat) (t : T)
    (ht : Function.update s.tasks id (some task) j = some t) : keep j = credit (v.request t) := by
  rcases eq_or_ne j id with rfl | hne
  · rw [Function.update_self] at ht
    exact Option.some.inj ht ▸ hcredit
  · rw [Function.update_of_ne hne] at ht
    exact h.credit j t ht

theorem Erased.update {shared shared' : S} {ids : List Nat} {id : Nat} {task : T}
    (h : Erased v credit visible keep s r) (hvis : visible shared' = visible shared)
    (hcredit : keep id = credit (v.request task)) (ids' : List Nat) :
    Erased v credit visible keep ⟨shared,ids,Function.update s.tasks id (some task)⟩
      ⟨shared',ids',Function.update r.tasks id (some task)⟩ := by
  refine ⟨hvis,fun j hj => ?_,h.credit_update hcredit⟩
  change Function.update r.tasks id (some task) j = Function.update s.tasks id (some task) j
  rcases eq_or_ne j id with rfl | hne
  · rw [Function.update_self,Function.update_self]
  · rw [Function.update_of_ne hne,Function.update_of_ne hne,h.tasks j hj]

theorem Erased.skip {shared : S} {ids : List Nat} {id : Nat} {task : T}
    (h : Erased v credit visible keep s r) (hvis : visible shared = visible s.shared)
    (hdrop : keep id = false) (hcredit : keep id = credit (v.request task)) :
    Erased v credit visible keep ⟨shared,ids,Function.update s.tasks id (some task)⟩ r := by
  refine ⟨h.visible.trans hvis.symm,fun j hj => ?_,h.credit_update hcredit⟩
  have hne : j ≠ id := fun he => by rw [he,hdrop] at hj; cases hj
  exact (h.tasks j hj).trans (Function.update_of_ne hne _ _).symm

theorem erased_step {ok : T → Prop} (hv : Separates v ok credit visible) (hok : s.AllTasks ok)
    (h : Erased v credit visible keep s r)
    (harrive : ∀ id q, e = .arrive id q → keep id = credit q) (hstep : v.step s e = some t) :
    ∃ r', run v.step r ([e].filter (kept keep)) = some r' ∧ Erased v credit visible keep t r' := by
  cases moves_of_step hstep with
  | @arrive id request free =>
    have hcredit : keep id = credit (v.request (v.accept request)) := by
      rw [hv.accept,harrive id request rfl]
    cases hkeep : keep id with
    | false =>
      rw [List.filter_cons_of_neg (by simp [kept,hkeep])]
      exact ⟨r,rfl,h.skip rfl hkeep hcredit⟩
    | true =>
      rw [List.filter_cons_of_pos (by simpa [kept] using hkeep)]
      refine ⟨_,?_,h.update h.visible hcredit (id :: r.ids)⟩
      simp [run_cons,step,h.tasks id hkeep,free]
  | @advance id input task task' shared held turn =>
    have hcredit : keep id = credit (v.request task) := h.credit id task held
    have hcredit' : keep id = credit (v.request task') := by
      rw [hv.request _ _ _ _ _ turn,hcredit]
    cases hkeep : keep id with
    | false =>
      rw [List.filter_cons_of_neg (by simp [kept,hkeep])]
      exact ⟨r,rfl,h.skip (hv.uncredited _ _ _ _ _ (hok id task held) (hcredit ▸ hkeep) turn) hkeep hcredit'⟩
    | true =>
      obtain ⟨shared',hturn',hvis⟩ := hv.credited _ r.shared _ _ _ _ (hok id task held)
        (hcredit ▸ hkeep) h.visible turn
      rw [List.filter_cons_of_pos (by simpa [kept] using hkeep)]
      refine ⟨_,?_,h.update hvis hcredit' r.ids⟩
      rw [List.filter_nil,run_cons,step_advance ((h.tasks id hkeep).trans held) hturn']
      rfl
  | @ambient a =>
    exact ⟨_,rfl,hv.ambient _ _ a h.visible,h.tasks,h.credit⟩

theorem erased_run {inv : S → Prop} {ok : T → Prop} (hkeep : Keeps v inv ok)
    (hv : Separates v ok credit visible) {es : List (ServerEvent Q I A)}
    (harrive : ∀ id q, ServerEvent.arrive id q ∈ es → keep id = credit q) {shared : S} (hinv : inv shared)
    (h : run v.step (.start shared) es = some t) :
    ∃ r, run v.step (.start shared) (es.filter (kept keep)) = some r ∧ Erased v credit visible keep t r := by
  induction es using List.reverseRecOn generalizing t with
  | nil =>
    obtain rfl := Option.some.inj h
    exact ⟨_,rfl,rfl,fun _ _ => rfl,fun _ _ ht => by cases ht⟩
  | append_singleton es e ih =>
    obtain ⟨u,hu,hstep⟩ := run_snoc.mp h
    obtain ⟨r,hr,herased⟩ := ih (fun id q hmem => harrive id q (List.mem_append_left _ hmem)) hu
    obtain ⟨r',hr',herased'⟩ := erased_step hv (sound_run hkeep hinv hu).tasks herased
      (fun id q he => harrive id q (List.mem_append_right _ (he ▸ List.mem_singleton_self _))) hstep
    exact ⟨r',by rw [List.filter_append,run_append,hr]; exact hr',herased'⟩

end erasure

end TaskServer

end DnsSeeder.Lib
