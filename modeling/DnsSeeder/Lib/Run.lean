import Mathlib.Tactic

namespace DnsSeeder.Lib

section run
variable {S E : Type} (step : S → E → Option S)

def run (s : S) (es : List E) : Option S := es.foldlM step s

variable {step}

@[simp] theorem run_nil (s : S) : run step s [] = some s := rfl

theorem run_cons (s : S) (e : E) (es : List E) :
    run step s (e :: es) = (step s e).bind (fun s' => run step s' es) := by
  simp [run,List.foldlM_cons]

theorem run_append (s : S) (es fs : List E) :
    run step s (es ++ fs) = (run step s es).bind (fun s' => run step s' fs) := by
  simp [run,List.foldlM_append]

theorem run_snoc {s t : S} {es : List E} {e : E} :
    run step s (es ++ [e]) = some t ↔ ∃ u, run step s es = some u ∧ step u e = some t := by
  rw [run_append,Option.bind_eq_some_iff]
  simp [run_cons]

theorem run_invariant {I : S → Prop} (hstep : ∀ s e t, I s → step s e = some t → I t)
    {s t : S} {es : List E} (hs : I s) (h : run step s es = some t) : I t := by
  induction es using List.reverseRecOn generalizing t with
  | nil => exact Option.some.inj h ▸ hs
  | append_singleton es e ih =>
    obtain ⟨u,hu,he⟩ := run_snoc.mp h
    exact hstep u e t (ih hu) he

theorem run_invariant_on {I : S → Prop} {A : E → Prop}
    (hstep : ∀ s e t, A e → I s → step s e = some t → I t)
    {s t : S} {es : List E} (hes : ∀ e ∈ es, A e) (hs : I s) (h : run step s es = some t) : I t := by
  induction es generalizing s with
  | nil => exact Option.some.inj h ▸ hs
  | cons e es ih =>
    rw [run_cons] at h
    obtain ⟨u,hu,h⟩ := Option.bind_eq_some_iff.mp h
    exact ih (fun e he => hes e (List.mem_cons_of_mem _ he)) (hstep s e u (hes e List.mem_cons_self) hs hu) h

theorem run_decreases {I : S → Prop} (cost : S → Nat) (counted : E → Bool)
    (hstep : ∀ s e t, I s → step s e = some t → I t ∧ cost t + (if counted e then 1 else 0) ≤ cost s)
    {s t : S} {es : List E} (hs : I s) (h : run step s es = some t) :
    I t ∧ cost t + es.countP counted ≤ cost s := by
  induction es using List.reverseRecOn generalizing t with
  | nil =>
    obtain rfl := Option.some.inj h
    exact ⟨hs,Nat.le_refl _⟩
  | append_singleton es e ih =>
    obtain ⟨u,hu,he⟩ := run_snoc.mp h
    obtain ⟨hi,hle⟩ := ih hu
    obtain ⟨ht,hlast⟩ := hstep u e t hi he
    rw [List.countP_append,List.countP_singleton]
    exact ⟨ht,by omega⟩

theorem run_charges {I : S → Prop} {potential : S → Nat} {charge : E → Nat}
    (hstep : ∀ s e t, I s → step s e = some t → I t ∧ potential t ≤ potential s + charge e)
    {s t : S} {es : List E} (hs : I s) (h : run step s es = some t) :
    I t ∧ potential t ≤ potential s + (es.map charge).sum := by
  induction es using List.reverseRecOn generalizing t with
  | nil =>
    obtain rfl := Option.some.inj h
    exact ⟨hs,Nat.le_refl _⟩
  | append_singleton es e ih =>
    obtain ⟨u,hu,he⟩ := run_snoc.mp h
    obtain ⟨hI,hle⟩ := ih hu
    obtain ⟨hI',hle'⟩ := hstep u e t hI he
    refine ⟨hI',?_⟩
    rw [List.map_append,List.sum_append,List.map_singleton,List.sum_singleton]
    omega

theorem run_related {S' E' : Type} {step' : S' → E' → Option S'} {R : S → S' → Prop} {A : E → E' → Prop}
    (hstep : ∀ s s' e e' t, R s s' → A e e' → step s e = some t → ∃ t', step' s' e' = some t' ∧ R t t')
    {s t : S} {s' : S'} {es : List E} {es' : List E'} (hs : R s s') (hes : List.Forall₂ A es es')
    (h : run step s es = some t) : ∃ t', run step' s' es' = some t' ∧ R t t' := by
  induction hes generalizing s s' with
  | nil => exact ⟨s',rfl,Option.some.inj h ▸ hs⟩
  | cons he _ ih =>
    rw [run_cons] at h
    obtain ⟨u,hu,h⟩ := Option.bind_eq_some_iff.mp h
    obtain ⟨u',hu',hrel⟩ := hstep s s' _ _ u hs he hu
    obtain ⟨t',ht',hrel⟩ := ih hrel h
    exact ⟨t',by rw [run_cons,hu']; exact ht',hrel⟩

def restrict (allowed : S → E → Bool) (step : S → E → Option S) (s : S) (e : E) : Option S :=
  if allowed s e then step s e else none

theorem restrict_eq_some {allowed : S → E → Bool} {s t : S} {e : E} :
    restrict allowed step s e = some t ↔ allowed s e = true ∧ step s e = some t := by
  simp [restrict]

def Along (step : S → E → Option S) (P : S → Prop) (s : S) (es : List E) : Prop :=
  ∀ pre t, pre <+: es → run step s pre = some t → P t

theorem Along.of_prefix {P : S → Prop} {s : S} {es fs : List E} (h : Along step P s fs)
    (hp : es <+: fs) : Along step P s es :=
  fun pre t hpre ht => h pre t (hpre.trans hp) ht

theorem Along.last {P : S → Prop} {s t : S} {es : List E} (h : Along step P s es)
    (ht : run step s es = some t) : P t := h es t (List.prefix_refl _) ht

theorem Along.of_append {P : S → Prop} {s t : S} {es fs : List E} (h : Along step P s (es ++ fs))
    (ht : run step s es = some t) : Along step P t fs := by
  intro pre u hpre hu
  refine h (es ++ pre) u ((List.prefix_append_right_inj es).mpr hpre) ?_
  rw [run_append,ht]
  exact hu

theorem along_nil {P : S → Prop} {s : S} : Along step P s [] ↔ P s := by
  refine ⟨fun h => h.last rfl,fun h pre t hpre ht => ?_⟩
  rw [List.prefix_nil.mp hpre] at ht
  exact Option.some.inj ht ▸ h

theorem along_cons {P : S → Prop} {s : S} {e : E} {es : List E} :
    Along step P s (e :: es) ↔ P s ∧ ∀ t, step s e = some t → Along step P t es := by
  constructor
  · intro h
    refine ⟨h [] s List.nil_prefix rfl,fun t ht => ?_⟩
    rw [← List.singleton_append] at h
    exact h.of_append (by simp [run_cons,ht])
  · rintro ⟨hs,hrest⟩ pre u hpre hu
    rcases List.prefix_cons_iff.mp hpre with rfl | ⟨tail,rfl,htail⟩
    · exact Option.some.inj hu ▸ hs
    · rw [run_cons] at hu
      obtain ⟨t,ht,hu⟩ := Option.bind_eq_some_iff.mp hu
      exact hrest t ht tail u htail hu

instance decidableAlong {P : S → Prop} [DecidablePred P] (s : S) (es : List E) :
    Decidable (Along step P s es) :=
  match es with
  | [] => decidable_of_iff _ along_nil.symm
  | e :: es =>
    haveI : Decidable (∀ t, step s e = some t → Along step P t es) :=
      match h : step s e with
      | none => isTrue (by simp)
      | some u =>
        haveI := decidableAlong (P := P) u es
        decidable_of_iff (Along step P u es) (by simp)
    decidable_of_iff _ along_cons.symm

theorem run_invariant_along {I P : S → Prop}
    (hstep : ∀ s e t, I s → P s → P t → step s e = some t → I t)
    {s t : S} {es : List E} (hs : I s) (hP : Along step P s es) (h : run step s es = some t) : I t := by
  induction es using List.reverseRecOn generalizing t with
  | nil => exact Option.some.inj h ▸ hs
  | append_singleton es e ih =>
    obtain ⟨u,hu,he⟩ := run_snoc.mp h
    have hpre := hP.of_prefix (List.prefix_append es [e])
    exact hstep u e t (ih hpre hu) (hpre.last hu) (hP.last h) he

end run

structure Machine (S A O : Type) where
  step : S → A → O × S

namespace Machine

variable {S T A O : Type} (m : Machine S A O) (n : Machine T A O)

def trace (s : S) : List A → List O × S
  | [] => ([],s)
  | a :: as => ((m.step s a).1 :: (trace (m.step s a).2 as).1,(trace (m.step s a).2 as).2)

structure Simulates (R : S → T → Prop) : Prop where
  output : ∀ s t a, R s t → (m.step s a).1 = (n.step t a).1
  next : ∀ s t a, R s t → R (m.step s a).2 (n.step t a).2

variable {m n}

theorem Simulates.trace {R : S → T → Prop} (h : Simulates m n R) {s : S} {t : T} (hs : R s t)
    (as : List A) : (m.trace s as).1 = (n.trace t as).1 ∧ R (m.trace s as).2 (n.trace t as).2 := by
  induction as generalizing s t with
  | nil => exact ⟨rfl,hs⟩
  | cons a as ih =>
    obtain ⟨hout,hrest⟩ := ih (h.next s t a hs)
    exact ⟨congrArg₂ _ (h.output s t a hs) hout,hrest⟩

theorem trace_filter {I : S → Prop} {p : A → Bool} (hnext : ∀ s a, I s → I (m.step s a).2)
    (hidle : ∀ s a, I s → p a = false → (m.step s a).2 = s) {s : S} (hs : I s) (as : List A) :
    (m.trace s (as.filter p)).2 = (m.trace s as).2 := by
  induction as generalizing s with
  | nil => rfl
  | cons a as ih =>
    cases ha : p a with
    | true =>
      rw [List.filter_cons_of_pos ha]
      exact ih (hnext s a hs)
    | false =>
      rw [List.filter_cons_of_neg (by simp [ha])]
      change _ = (m.trace (m.step s a).2 as).2
      rw [hidle s a hs ha]
      exact ih hs

end Machine

section except
variable {ε α β γ : Type}

theorem except_bind_ok {x : Except ε α} {f : α → Except ε β} {b : β}
    (h : (x >>= f) = .ok b) : ∃ a, x = .ok a ∧ f a = .ok b := by
  cases x with
  | error e => simp [bind,Except.bind] at h
  | ok a => exact ⟨a,rfl,h⟩

theorem except_foldlM_invariant {f : β → α → Except ε β} (I : List α → β → Prop)
    (hstep : ∀ xs x b b', I xs b → f b x = .ok b' → I (xs ++ [x]) b')
    {xs : List α} {b b' : β} (h0 : I [] b) (h : xs.foldlM f b = .ok b') : I xs b' := by
  suffices ∀ ys pre (b : β), I pre b → ys.foldlM f b = .ok b' → I (pre ++ ys) b' by
    simpa using this xs [] b h0 h
  intro ys
  induction ys with
  | nil =>
    intro pre b hb h
    simp only [List.foldlM_nil,pure,Except.pure,Except.ok.injEq] at h
    simpa [← h] using hb
  | cons y ys ih =>
    intro pre b hb h
    rw [List.foldlM_cons] at h
    obtain ⟨b₁,hy,hys⟩ := except_bind_ok h
    simpa using ih (pre ++ [y]) b₁ (hstep pre y b b₁ hb hy) hys

theorem except_foldlM_total {f : β → α → Except ε β} (P : β → Prop)
    (hstep : ∀ x b, P b → ∃ b', f b x = .ok b' ∧ P b') (xs : List α) {b : β} (hb : P b) :
    ∃ b', xs.foldlM f b = .ok b' := by
  induction xs generalizing b with
  | nil => exact ⟨b,rfl⟩
  | cons x xs ih =>
    obtain ⟨b₁,hx,hb₁⟩ := hstep x b hb
    obtain ⟨b₂,h₂⟩ := ih hb₁
    exact ⟨b₂,by rw [List.foldlM_cons,hx]; exact h₂⟩

end except

end DnsSeeder.Lib
