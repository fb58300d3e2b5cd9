import DnsSeeder.Crawler.WorkerPool

namespace DnsSeeder

open Lib

namespace WorkerPool

variable {W : Type} {P : SocketAddr → W → Prop} {p q : WorkerPool W}

def nets (p : WorkerPool W) : List NetAddress :=
  (match p.enqueue with
    | .idle => []
    | .inserted net => [net]
    | .rejected net _ => [net]) ++ p.channel ++ p.received.toList

def Tasks (P : SocketAddr → W → Prop) (p : WorkerPool W) : Prop :=
  ∀ addr r, ⟨addr,.running r⟩ ∈ p.workers → P addr r

theorem open_of_step {e : PoolEvent W} (hp : p.cancelled = false) (hs : step p e = some q)
    (he : e ≠ .cancel) : q.cancelled = false := by
  cases e with
  | cancel => exact absurd rfl he
  | _ =>
    simp only [step,setPhase] at hs
    repeat' split at hs
    all_goals first
      | (obtain rfl := Option.some.inj hs; exact hp)
      | cases hs

theorem inserted_eq {net net' : NetAddress} (hs : step p (.insert net) = some q)
    (he : q.enqueue = .inserted net') : net' = net := by
  simp only [step] at hs
  split at hs
  · next hidle =>
    split at hs
    · obtain rfl := Option.some.inj hs
      simp [hidle] at he
    · obtain rfl := Option.some.inj hs
      exact (Enqueue.inserted.inj he).symm
  · simp at hs

theorem mem_nets_step {e : PoolEvent W} (hs : step p e = some q) {net : NetAddress}
    (hn : net ∈ q.nets) : net ∈ p.nets ∨ e = .insert net := by
  cases e with
  | insert n =>
    simp only [step] at hs
    split at hs
    · next he =>
      split at hs
      · exact Or.inl (Option.some.inj hs ▸ hn)
      · obtain rfl := Option.some.inj hs
        have hn' : net = n ∨ net ∈ p.nets := by simpa [nets,he] using hn
        rcases hn' with rfl | hn'
        · exact Or.inr rfl
        · exact Or.inl hn'
    · simp at hs
  | send =>
    refine Or.inl ?_
    simp only [step] at hs
    split at hs
    · next n he =>
      have hmem : net = n ∨ net ∈ p.channel ∨ p.received = some net := by
        split at hs
        · obtain rfl := Option.some.inj hs
          simpa [nets] using hn
        · split at hs
          · obtain rfl := Option.some.inj hs
            have hn' : net ∈ p.channel ∨ net = n ∨ p.received = some net := by simpa [nets] using hn
            exact or_left_comm.mp hn'
          · obtain rfl := Option.some.inj hs
            simpa [nets] using hn
      simpa [nets,he] using hmem
    · simp at hs
  | rollback =>
    refine Or.inl ?_
    simp only [step] at hs
    split at hs
    · next n outcome he =>
      obtain rfl := Option.some.inj hs
      have hmem : net ∈ p.channel ∨ p.received = some net := by simpa [nets] using hn
      simpa [nets,he] using Or.inr hmem
    · simp at hs
  | receive =>
    refine Or.inl ?_
    simp only [step] at hs
    split at hs
    · next n rest hr hc =>
      split at hs
      · obtain rfl := Option.some.inj hs
        simp only [nets,hr,hc,List.mem_append,Option.toList_some,Option.toList_none,List.mem_cons,
          List.not_mem_nil,or_false] at hn ⊢
        tauto
      · simp at hs
    · simp at hs
  | spawn =>
    refine Or.inl ?_
    simp only [step] at hs
    split at hs
    · obtain rfl := Option.some.inj hs
      simp only [nets,List.mem_append,Option.toList_none,List.not_mem_nil,or_false] at hn ⊢
      exact Or.inl hn
    · simp at hs
  | dropReceiver =>
    refine Or.inl ?_
    simp only [step] at hs
    split at hs
    · obtain rfl := Option.some.inj hs
      simp only [nets,List.mem_append,List.not_mem_nil,or_false] at hn ⊢
      exact hn.imp_left Or.inl
    · simp at hs
  | cancel =>
    obtain rfl := Option.some.inj hs
    exact Or.inl hn
  | _ =>
    simp only [step,setPhase] at hs
    repeat' split at hs
    all_goals first
      | (obtain rfl := Option.some.inj hs; exact Or.inl hn)
      | cases hs

theorem mem_workers_step {e : PoolEvent W} (hs : step p e = some q) {w : Worker W}
    (hw : w ∈ q.workers) :
    w ∈ p.workers ∨
    (∃ i phase, p.workers[i]? = some ⟨w.addr,phase⟩ ∧
      ∀ r, w.phase = .running r → e = .start i r ∨ e = .work i r) ∨
    (∃ net ∈ p.nets, w = ⟨net.socketAddr,.spawned⟩) := by
  cases e with
  | spawn =>
    simp only [step] at hs
    split at hs
    · next net hr =>
      obtain rfl := Option.some.inj hs
      rcases List.mem_append.mp hw with hw | hw
      · exact Or.inl hw
      · exact Or.inr (Or.inr ⟨net,by simp [nets,hr],by simpa using hw⟩)
    · simp at hs
  | join i =>
    simp only [step] at hs
    split at hs
    · obtain rfl := Option.some.inj hs
      exact Or.inl (List.mem_of_mem_eraseIdx hw)
    · simp at hs
  | _ =>
    simp only [step,setPhase] at hs
    repeat' split at hs
    all_goals first
      | (obtain rfl := Option.some.inj hs; exact Or.inl hw)
      | (next hi =>
          obtain rfl := Option.some.inj hs
          rcases List.mem_or_eq_of_mem_set hw with hw | rfl
          · exact Or.inl hw
          · exact Or.inr (Or.inl ⟨_,_,hi,by simp⟩))
      | (next hi hc =>
          obtain rfl := Option.some.inj hs
          rcases List.mem_or_eq_of_mem_set hw with hw | rfl
          · exact Or.inl hw
          · exact Or.inr (Or.inl ⟨_,_,hi,by simp⟩))
      | cases hs

theorem tasks_step {e : PoolEvent W} (h : Tasks P p) (hs : step p e = some q)
    (hin : ∀ i addr phase r, p.workers[i]? = some ⟨addr,phase⟩ → e = .start i r ∨ e = .work i r → P addr r) :
    Tasks P q := by
  intro addr r hw
  rcases mem_workers_step hs hw with hw | ⟨i,phase,hi,he⟩ | ⟨net,_,he⟩
  · exact h addr r hw
  · exact hin i addr phase r hi (he r rfl)
  · simp at he

end WorkerPool

end DnsSeeder
