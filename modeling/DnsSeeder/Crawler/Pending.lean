import DnsSeeder.Crawler.Probe
import DnsSeeder.Lib.Slots

namespace DnsSeeder

open Lib

namespace KaspadProbe

variable {s t u : KaspadProbe} {i : Nat} {c c' : Call}

structure Tracked (s : KaspadProbe) : Prop where
  owner : ∀ addr j, s.pending addr = some j →
    ∃ c, s.calls[j]? = some c ∧ c.addr = addr ∧ c.phase.active = true

theorem tracked_new : Tracked new := ⟨fun _ _ h => nomatch h⟩

structure Continues (s t : KaspadProbe) : Prop where
  pending : ∀ addr j, t.pending addr = some j → s.pending addr = some j
  calls : ∀ (j : Nat) (c : Call), s.calls[j]? = some c → ∃ c', t.calls[j]? = some c' ∧ c'.addr = c.addr ∧
    (c.phase.active = true → c'.phase.active = true ∨ t.pending c.addr = none)

theorem Continues.tracked (h : Continues s t) (hs : Tracked s) : Tracked t := by
  constructor
  intro addr j hp
  obtain ⟨c,hc,rfl,hactive⟩ := hs.owner addr j (h.pending addr j hp)
  obtain ⟨c',hc',haddr,hkept⟩ := h.calls j c hc
  rcases hkept hactive with hactive' | hnone
  · exact ⟨c',hc',haddr,hactive'⟩
  · rw [hnone] at hp
    cases hp

theorem Continues.trans (h : Continues s t) (h' : Continues t u) : Continues s u := by
  constructor
  · intro addr j hp
    exact h.pending addr j (h'.pending addr j hp)
  · intro j c hc
    obtain ⟨d,hd,haddr,hkept⟩ := h.calls j c hc
    obtain ⟨e,he,haddr',hkept'⟩ := h'.calls j d hd
    refine ⟨e,he,haddr'.trans haddr,fun hactive => ?_⟩
    rcases hkept hactive with hactive' | hnone
    · exact haddr ▸ hkept' hactive'
    · refine Or.inr (Option.eq_none_iff_forall_not_mem.mpr fun k hk => ?_)
      cases hnone.symm.trans (h'.pending c.addr k hk)

theorem continues_remove (addr : SocketAddr) : Continues s (s.removePending addr) := by
  refine ⟨fun a j hp => ?_,fun j c hc => ⟨c,hc,rfl,Or.inl⟩⟩
  by_cases ha : a = addr
  · simp [removePending,ha] at hp
  · simpa [removePending,ha] using hp

theorem continues_put (hi : s.calls[i]? = some c) (haddr : c'.addr = c.addr)
    (hkept : c.phase.active = true → c'.phase.active = true ∨ s.pending c.addr = none) :
    Continues s (s.put i c') := by
  refine ⟨fun _ _ hp => hp,fun j d hd => ?_⟩
  by_cases hj : j = i
  · subst hj
    obtain rfl := Option.some.inj (hi.symm.trans hd)
    exact ⟨c',List.getElem?_set_self (List.getElem?_eq_some_iff.mp hi).1,haddr,hkept⟩
  · exact ⟨d,by rw [put,List.getElem?_set_ne (Ne.symm hj)]; exact hd,rfl,Or.inl⟩

theorem continues_exit (hi : s.calls[i]? = some c) (haddr : c'.addr = c.addr) :
    Continues s ((s.removePending c.addr).put i c') :=
  (continues_remove c.addr).trans
    (continues_put hi haddr (fun _ => Or.inr (by simp [removePending])))

theorem continues_send (sender : Option Nat) (outcome : ProbeOutcome) :
    Continues s (s.send sender outcome) := by
  unfold send
  split
  · exact ⟨fun _ _ hp => hp,fun _ c hc => ⟨c,hc,rfl,Or.inl⟩⟩
  · split
    · exact ⟨fun _ _ hp => hp,fun _ c hc => ⟨c,hc,rfl,Or.inl⟩⟩
    · next hj => exact continues_put hj rfl Or.inl

theorem continues_moves (hi : s.calls[i]? = some c) (h : CallMoves s i c t) : Continues s t := by
  cases h with
  | refused text => exact continues_put hi rfl (fun _ => Or.inl rfl)
  | rejected text => exact continues_put hi rfl (fun _ => Or.inl rfl)
  | established => exact continues_put hi rfl (fun _ => Or.inl rfl)
  | probed result => exact continues_put hi rfl (fun _ => Or.inl rfl)
  | cancelled => exact continues_put hi rfl (fun _ => Or.inl rfl)
  | removed => exact (continues_remove c.addr).trans (continues_put hi rfl (fun _ => Or.inl rfl))
  | sent =>
    refine (continues_put hi ?_ ?_).trans (continues_send _ _)
    · rfl
    · exact fun _ => Or.inl rfl
  | connected => exact continues_put hi rfl (fun _ => Or.inl rfl)
  | @received outcome =>
    have hput : Continues s (s.put i { c with
        phase := .closing outcome.result, mailbox := none, outcome := some outcome }) :=
      continues_put hi rfl (fun _ => Or.inl rfl)
    exact ⟨hput.pending,hput.calls⟩
  | unheard => exact continues_put hi rfl (fun _ => Or.inl rfl)
  | closed => exact continues_put hi rfl (fun _ => Or.inl rfl)
  | returned => exact continues_exit hi rfl
  | unwound => exact continues_exit hi rfl

theorem tracked_called (h : Tracked s) (addr : SocketAddr) : Tracked { s with
    calls := s.calls ++ [⟨addr,.connecting,none,none,none⟩]
    pending := Function.update s.pending addr (some s.calls.length) } := by
  constructor
  intro a j hp
  by_cases ha : a = addr
  · subst ha
    obtain rfl : s.calls.length = j := by simpa using hp
    exact ⟨_,List.getElem?_concat_length,rfl,rfl⟩
  · obtain ⟨c,hc,hrest⟩ := h.owner a j (by simpa [ha] using hp)
    have hlt : j < s.calls.length := (List.getElem?_eq_some_iff.mp hc).1
    exact ⟨c,by rw [List.getElem?_append_left hlt]; exact hc,hrest⟩

theorem tracked_step {e : ProbeEvent} (h : Tracked s) (hs : step s e = some t) : Tracked t := by
  cases moves_of_step hs with
  | called addr => exact tracked_called h addr
  | acted hi hmoves => exact (continues_moves hi hmoves).tracked h
  | shut => exact ⟨h.owner⟩

def idle (s : KaspadProbe) : Bool := s.calls.all (fun c => !c.phase.active)

theorem pending_only_active {es : List ProbeEvent} (hr : run step new es = some s) :
    (∀ addr, s.pending addr ≠ none → ∃ c ∈ s.calls, c.addr = addr ∧ c.phase.active = true) ∧
    (s.idle = true → ∀ addr, s.pending addr = none) := by
  have htracked : Tracked s := run_invariant (fun _ _ _ h hs => tracked_step h hs) tracked_new hr
  have hactive : ∀ addr, s.pending addr ≠ none → ∃ c ∈ s.calls, c.addr = addr ∧ c.phase.active = true := by
    intro addr hp
    obtain ⟨j,hj⟩ := Option.ne_none_iff_exists'.mp hp
    obtain ⟨c,hc,haddr,hactive⟩ := htracked.owner addr j hj
    exact ⟨c,List.mem_of_getElem? hc,haddr,hactive⟩
  refine ⟨hactive,fun hidle addr => ?_⟩
  by_contra hp
  obtain ⟨c,hc,_,ha⟩ := hactive addr hp
  have := List.all_eq_true.mp hidle c hc
  simp [ha] at this

def dialed (n : Nat) : SocketAddr := ⟨.v4 (BitVec.ofNat 32 n),16111⟩

def abandonedOverlap : List ProbeEvent :=
  [.call (dialed 1),.call (dialed 1),.call (dialed 2),.established 0,.cancel 0,.refused 2 "refused",
    .proceed 0,.proceed 2,.established 1,.probed 1 (.error (.timeout (.fromSecs 5))),.proceed 1,.proceed 1,
    .refused 1 "timed out",.proceed 1]

theorem pending_only_active_overlap :
    ∃ s, run step new abandonedOverlap = some s ∧ s.calls.length = 3 ∧ s.idle = true ∧
      s.pending (dialed 1) = none ∧ s.pending (dialed 2) = none := by
  obtain ⟨s,hr,hlength,hidle⟩ :
      ∃ s, run step new abandonedOverlap = some s ∧ s.calls.length = 3 ∧ s.idle = true := ⟨_,rfl,rfl,rfl⟩
  have hempty := (pending_only_active hr).2 hidle
  exact ⟨s,hr,hlength,hidle,hempty _,hempty _⟩

end KaspadProbe

end DnsSeeder
