import Mathlib.Tactic

namespace DnsSeeder.Lib

structure Clock (M : Type) where
  elapsed : Nat
  overhead : Nat
  sent : List M

def Clock.zero {M : Type} : Clock M := ⟨0,0,[]⟩

def Clock.later {M : Type} (c : Clock M) (spent lost : Nat) (said : List M) : Clock M :=
  ⟨c.elapsed + spent + lost,c.overhead + lost,c.sent ++ said⟩

inductive Inbound (E α : Type) where
  | after (delay : Nat) (outcome : Except E α)
  | never

structure Delivery (E : Type) where
  cost : Nat
  failure : Option E

def Talk (M E α : Type) := Clock M → Except E α × Clock M

namespace Talk

variable {M E α β : Type}

def done (a : α) : Talk M E α := fun c => (.ok a,c)

def fail (e : E) : Talk M E α := fun c => (.error e,c)

def andThen (p : Talk M E α) (f : α → Talk M E β) : Talk M E β := fun c =>
  match p c with
  | (.ok a,c') => f a c'
  | (.error e,c') => (.error e,c')

def attempt (p : Talk M E α) : Talk M E (Except E α) := fun c => (.ok (p c).1,(p c).2)

def pause (d : Nat) : Talk M E Unit := fun c => (.ok (),c.later d 0 [])

def Inbound.outcome (limit : Nat) (late : E) : Inbound E α → Except E α
  | .after delay outcome => if delay < limit then outcome else .error late
  | .never => .error late

def Inbound.wait (limit : Nat) : Inbound E α → Nat
  | .after delay _ => min delay limit
  | .never => limit

def await (limit : Nat) (late : E) (a : Inbound E α) : Talk M E α := fun c =>
  (Inbound.outcome limit late a,c.later (Inbound.wait limit a) 0 [])

def send (m : M) (d : Delivery E) : Talk M E Unit := fun c =>
  match d.failure with
  | none => (.ok (),c.later 0 d.cost [m])
  | some e => (.error e,c.later 0 d.cost [])

def Spends (p : Talk M E α) (budget : Nat) (post : Except E α → List M → Prop) : Prop :=
  ∀ c, ∃ spent lost said, (p c).2 = c.later spent lost said ∧ spent ≤ budget ∧ post (p c).1 said

variable {p : Talk M E α} {f : α → Talk M E β} {b b' : Nat} {post : Except E α → List M → Prop}

theorem later_zero (c : Clock M) : c.later 0 0 [] = c := by simp [Clock.later]

theorem later_later (c : Clock M) (s s' l l' : Nat) (said said' : List M) :
    (c.later s l said).later s' l' said' = c.later (s + s') (l + l') (said ++ said') := by
  simp only [Clock.later,List.append_assoc,Clock.mk.injEq,and_true]
  omega

theorem Spends.weaken (h : Spends p b post) (hb : b ≤ b') {post' : Except E α → List M → Prop}
    (hpost : ∀ r said, post r said → post' r said) : Spends p b' post' := by
  intro c
  obtain ⟨spent,lost,said,hc,hle,hp⟩ := h c
  exact ⟨spent,lost,said,hc,hle.trans hb,hpost _ _ hp⟩

theorem spends_done (a : α) : Spends (done a : Talk M E α) 0 (fun r said => r = .ok a ∧ said = []) :=
  fun c => ⟨0,0,[],(later_zero c).symm,Nat.le_refl _,rfl,rfl⟩

theorem spends_fail (e : E) : Spends (fail e : Talk M E α) 0 (fun r said => r = .error e ∧ said = []) :=
  fun c => ⟨0,0,[],(later_zero c).symm,Nat.le_refl _,rfl,rfl⟩

theorem spends_pause (d : Nat) : Spends (pause d : Talk M E Unit) d (fun r said => r = .ok () ∧ said = []) :=
  fun _ => ⟨d,0,[],rfl,Nat.le_refl _,rfl,rfl⟩

theorem wait_le (limit : Nat) (a : Inbound E α) : Inbound.wait limit a ≤ limit := by
  cases a with
  | after delay outcome => exact Nat.min_le_right _ _
  | never => exact Nat.le_refl _

theorem spends_await (limit : Nat) (late : E) (a : Inbound E α) :
    Spends (await limit late a : Talk M E α) limit
      (fun r said => r = Inbound.outcome limit late a ∧ said = []) :=
  fun _ => ⟨Inbound.wait limit a,0,[],rfl,wait_le limit a,rfl,rfl⟩

def Sending (m : M) (d : Delivery E) (r : Except E Unit) (said : List M) : Prop :=
  (d.failure = none ∧ r = .ok () ∧ said = [m]) ∨ ∃ e, d.failure = some e ∧ r = .error e ∧ said = []

theorem spends_send (m : M) (d : Delivery E) : Spends (send m d) 0 (Sending m d) := by
  intro c
  unfold send
  split
  · next hd => exact ⟨0,d.cost,[m],rfl,Nat.le_refl _,Or.inl ⟨hd,rfl,rfl⟩⟩
  · next e hd => exact ⟨0,d.cost,[],rfl,Nat.le_refl _,Or.inr ⟨e,hd,rfl,rfl⟩⟩

theorem Spends.attempt (h : Spends p b post) :
    Spends (Talk.attempt p) b (fun r said => ∃ x, r = .ok x ∧ post x said) := by
  intro c
  obtain ⟨spent,lost,said,hc,hle,hp⟩ := h c
  exact ⟨spent,lost,said,hc,hle,_,rfl,hp⟩

theorem Spends.andThen (hp : Spends p b post) {post' : α → Except E β → List M → Prop}
    (hf : ∀ a, Spends (f a) b' (post' a)) {final : Except E β → List M → Prop}
    (herror : ∀ e said, post (.error e) said → final (.error e) said)
    (hok : ∀ a said r said', post (.ok a) said → post' a r said' → final r (said ++ said')) :
    Spends (p.andThen f) (b + b') final := by
  intro c
  obtain ⟨spent,lost,said,hc,hle,hpost⟩ := hp c
  unfold Talk.andThen
  cases hr : p c with
  | mk r c' =>
    rw [hr] at hc hpost
    obtain rfl : c' = c.later spent lost said := hc
    cases r with
    | error e => exact ⟨spent,lost,said,rfl,by omega,herror e said hpost⟩
    | ok a =>
      obtain ⟨spent',lost',said',hc',hle',hpost'⟩ := hf a (c.later spent lost said)
      refine ⟨spent + spent',lost + lost',said ++ said',?_,by omega,hok a said _ said' hpost hpost'⟩
      rw [hc',later_later]

def Scripted (p : Talk M E α) (budget : Nat) (script : List M) : Prop :=
  Spends p budget (fun r said => said <+: script ∧ ∀ a, r = .ok a → said = script)

theorem scripted_send (m : M) (d : Delivery E) : Scripted (send m d) 0 [m] := by
  refine (spends_send m d).weaken (Nat.le_refl _) (fun r said h => ?_)
  rcases h with ⟨_,_,rfl⟩ | ⟨e,_,rfl,rfl⟩
  · exact ⟨List.prefix_refl _,fun _ _ => rfl⟩
  · exact ⟨List.nil_prefix,fun a ha => by cases ha⟩

theorem scripted_await (limit : Nat) (late : E) (a : Inbound E α) :
    Scripted (await limit late a : Talk M E α) limit [] := by
  refine (spends_await limit late a).weaken (Nat.le_refl _) (fun r said h => ?_)
  rw [h.2]
  exact ⟨List.prefix_refl _,fun _ _ => rfl⟩

theorem Scripted.andThen {s s' : List M} (hp : Scripted p b s) (hf : ∀ a, Scripted (f a) b' s') :
    Scripted (p.andThen f) (b + b') (s ++ s') := by
  refine Spends.andThen hp hf (fun e said h => ?_) (fun a said r said' h h' => ?_)
  · exact ⟨h.1.trans (List.prefix_append _ _),fun a ha => by cases ha⟩
  · obtain rfl := h.2 a rfl
    exact ⟨(List.prefix_append_right_inj _).mpr h'.1,fun x hx => by rw [h'.2 x hx]⟩

end Talk

end DnsSeeder.Lib
