import DnsSeeder.Crawler.Probe
import DnsSeeder.Lib.Slots

namespace DnsSeeder

open Lib

def CallPhase.result : CallPhase → Option (Except ProbeError ProbeResult)
  | .closing result => some result
  | .exiting result => some result
  | .returned result => some result
  | _ => none

def CallPhase.waits : CallPhase → Bool
  | .connecting => true
  | .handshaking => true
  | .removing => true
  | _ => false

def CallPhase.clears : CallPhase → Bool
  | .removing => true
  | .exiting _ => true
  | .cancelling => true
  | _ => false

namespace KaspadProbe

variable {s t : KaspadProbe} {i j : Nat} {c c' d : Call}

def Handed (s : KaspadProbe) (router : Router) : Prop := router ∈ s.closing ∨ router ∈ s.closed

instance (s : KaspadProbe) (router : Router) : Decidable (s.Handed router) :=
  inferInstanceAs (Decidable (_ ∨ _))

inductive CallOk (s : KaspadProbe) (i : Nat) : Call → Prop
  | connecting {addr : SocketAddr} (hp : s.pending addr = some i) :
      CallOk s i ⟨addr,.connecting,none,none,none⟩
  | handshaking {addr : SocketAddr} (hp : s.pending addr = some i) :
      CallOk s i ⟨addr,.handshaking,none,none,none⟩
  | removing {addr : SocketAddr} {r : Except ProtocolError ProbeResult} (hp : s.pending addr = some i) :
      CallOk s i ⟨addr,.removing,some r,none,none⟩
  | sending {addr : SocketAddr} {r : Except ProtocolError ProbeResult} :
      CallOk s i ⟨addr,.sending (some i),some r,none,none⟩
  | initialized {addr : SocketAddr} {r : Except ProtocolError ProbeResult} :
      CallOk s i ⟨addr,.initialized,some r,some (initializerOutcome i addr r),none⟩
  | awaiting {addr : SocketAddr} {p : ProbeResult} :
      CallOk s i ⟨addr,.awaiting,some (.ok p),some (initializerOutcome i addr (.ok p)),none⟩
  | answered {addr : SocketAddr} {phase : CallPhase} {p : ProbeResult} (hphase : phase.result = some (.ok p))
      (hrouter : s.Handed ⟨i,addr⟩) :
      CallOk s i ⟨addr,phase,some (.ok p),none,some (initializerOutcome i addr (.ok p))⟩
  | failed {addr : SocketAddr} {phase : CallPhase} {e : ProbeError}
      {handshake : Option (Except ProtocolError ProbeResult)} {mailbox : Option ProbeOutcome}
      (hphase : phase.result = some (.error e)) (hhandshake : ∀ p, handshake ≠ some (.ok p)) :
      CallOk s i ⟨addr,phase,handshake,mailbox,none⟩
  | abandoned {c : Call} (hphase : c.phase.abandoned = true)
      (houtcome : ∀ o, c.outcome = some o → ∃ r, c.handshake = some r ∧ o = initializerOutcome i c.addr r) :
      CallOk s i c

theorem CallOk.frame (h : CallOk s i c) (hp : c.phase.waits = true → t.pending c.addr = s.pending c.addr)
    (hh : ∀ router, s.Handed router → t.Handed router) : CallOk t i c := by
  cases h with
  | connecting h => exact .connecting ((hp rfl).trans h)
  | handshaking h => exact .handshaking ((hp rfl).trans h)
  | removing h => exact .removing ((hp rfl).trans h)
  | sending => exact .sending
  | initialized => exact .initialized
  | awaiting => exact .awaiting
  | answered hphase hrouter => exact .answered hphase (hh _ hrouter)
  | failed hphase hhandshake => exact .failed hphase hhandshake
  | abandoned hphase houtcome => exact .abandoned hphase houtcome

theorem not_waits_of_result {phase : CallPhase} {r : Except ProbeError ProbeResult}
    (h : phase.result = some r) : phase.waits = false := by
  cases phase <;> first | rfl | cases h

theorem CallOk.of_waits (h : CallOk s i c) (hw : c.phase.waits = true) :
    s.pending c.addr = some i ∧ c.mailbox = none ∧ c.outcome = none := by
  cases h with
  | connecting h => exact ⟨h,rfl,rfl⟩
  | handshaking h => exact ⟨h,rfl,rfl⟩
  | removing h => exact ⟨h,rfl,rfl⟩
  | answered hphase _ =>
    rw [not_waits_of_result hphase] at hw
    cases hw
  | failed hphase _ =>
    rw [not_waits_of_result hphase] at hw
    cases hw
  | abandoned hphase _ =>
    cases hc : c.phase with
    | cancelling => simp [hc,CallPhase.waits] at hw
    | cancelled => simp [hc,CallPhase.waits] at hw
    | _ => simp [hc,CallPhase.abandoned] at hphase
  | _ => cases hw

structure Inv (s : KaspadProbe) : Prop where
  ok : ∀ (i : Nat) (c : Call), s.calls[i]? = some c → CallOk s i c
  owned : ∀ (addr : SocketAddr) (i : Nat), s.pending addr = some i → ∃ c, s.calls[i]? = some c ∧ c.addr = addr

theorem inv_new : Inv new := ⟨by simp [new],by simp [new]⟩

def awaited (s : KaspadProbe) (i : Nat) (addr : SocketAddr) : Bool :=
  (s.pending addr).any (fun j => j != i && s.calls[j]?.any (fun c => c.phase.waits))

def exclusive (s : KaspadProbe) : ProbeEvent → Bool
  | .call addr => !s.awaited s.calls.length addr
  | .proceed i => s.calls[i]?.all (fun c => !(c.phase.clears && s.awaited i c.addr))
  | _ => true

theorem awaited_of_owner {addr : SocketAddr} (hp : s.pending addr = some j) (hj : s.calls[j]? = some d)
    (hne : j ≠ i) (hw : d.phase.waits = true) : s.awaited i addr = true := by
  simp [awaited,hp,hj,hne,hw]

theorem owner_of_awaited {addr : SocketAddr} (h : s.awaited i addr = true) :
    ∃ j d, s.pending addr = some j ∧ s.calls[j]? = some d ∧ j ≠ i ∧ d.phase.waits = true := by
  simp only [awaited,Option.any_eq_true,Bool.and_eq_true,bne_iff_ne] at h
  obtain ⟨j,hp,hne,d,hj,hw⟩ := h
  exact ⟨j,d,hp,hj,hne,hw⟩

structure Acts (s t : KaspadProbe) (i : Nat) (c c' : Call) : Prop where
  calls : t.calls = s.calls.set i c'
  addr : c'.addr = c.addr
  pending : t.pending = s.pending ∨
    (s.awaited i c.addr = false ∧ t.pending = Function.update s.pending c.addr none)
  handed : ∀ router, s.Handed router → t.Handed router
  ok : CallOk t i c'

theorem inv_acts (h : Inv s) (hi : s.calls[i]? = some c) (ha : Acts s t i c c') : Inv t := by
  constructor
  · intro j d hj
    rcases getElem?_set_some (ha.calls ▸ hj) with ⟨rfl,rfl⟩ | ⟨hne,hj⟩
    · exact ha.ok
    · refine (h.ok j d hj).frame (fun hw => ?_) ha.handed
      rcases ha.pending with hp | ⟨hfree,hp⟩
      · rw [hp]
      · -- a removal at the address of a waiting call would take that call's entry
        have hne' : d.addr ≠ c.addr := by
          intro haddr
          have hown := ((h.ok j d hj).of_waits hw).1
          have hawaited := awaited_of_owner (haddr ▸ hown) hj hne hw
          rw [hfree] at hawaited
          cases hawaited
        rw [hp,Function.update_of_ne hne']
  · intro addr j hj
    have hold : s.pending addr = some j := by
      rcases ha.pending with hp | ⟨_,hp⟩
      · rwa [hp] at hj
      · rw [hp,Function.update_apply] at hj
        split at hj
        · cases hj
        · exact hj
    obtain ⟨d,hd,haddr⟩ := h.owned addr j hold
    by_cases hji : j = i
    · subst hji
      obtain rfl := Option.some.inj (hi.symm.trans hd)
      exact ⟨c',by rw [ha.calls]; exact List.getElem?_set_self (List.getElem?_eq_some_iff.mp hi).1,
        ha.addr.trans haddr⟩
    · exact ⟨d,by rw [ha.calls,List.getElem?_set_ne (Ne.symm hji)]; exact hd,haddr⟩

theorem acts_put (haddr : c'.addr = c.addr) (hok : CallOk (s.put i c') i c') : Acts s (s.put i c') i c c' :=
  ⟨rfl,haddr,Or.inl rfl,fun _ h => h,hok⟩

theorem acts_remove (haddr : c'.addr = c.addr) (hfree : s.awaited i c.addr = false)
    (hok : CallOk ((s.removePending c.addr).put i c') i c') :
    Acts s ((s.removePending c.addr).put i c') i c c' :=
  ⟨rfl,haddr,Or.inr ⟨hfree,rfl⟩,fun _ h => h,hok⟩

theorem send_self {result : Except ProtocolError ProbeResult} (hi : s.calls[i]? = some c) :
    (s.put i { c with phase := .initialized }).send (some i) (initializerOutcome i c.addr result) =
      s.put i { c with phase := .initialized, mailbox := some (initializerOutcome i c.addr result) } := by
  have hlt : i < s.calls.length := (List.getElem?_eq_some_iff.mp hi).1
  simp [send,put,List.getElem?_set_self hlt]

theorem proceed_acts (h : CallOk s i c) (hi : s.calls[i]? = some c)
    (hfree : c.phase.clears = true → s.awaited i c.addr = false) (hs : s.proceed i c = some t) :
    ∃ c', Acts s t i c c' := by
  cases h with
  | connecting _ => simp [proceed] at hs
  | handshaking _ => simp [proceed] at hs
  | removing hp =>
    obtain rfl := Option.some.inj hs
    exact ⟨_,acts_remove rfl (hfree rfl) (hp ▸ .sending)⟩
  | sending =>
    obtain rfl := (send_self hi).symm.trans (Option.some.inj hs)
    exact ⟨_,acts_put rfl .initialized⟩
  | @initialized addr r =>
    cases r with
    | error e => simp [proceed] at hs
    | ok p =>
      obtain rfl := Option.some.inj hs
      exact ⟨_,acts_put rfl .awaiting⟩
  | awaiting =>
    obtain rfl := Option.some.inj hs
    exact ⟨_,rfl,rfl,Or.inl rfl,fun _ h => h.imp (List.mem_cons_of_mem _) id,
      .answered rfl (Or.inl List.mem_cons_self)⟩
  | @answered addr phase p hphase hrouter =>
    cases phase with
    | closing result =>
      obtain rfl := Option.some.inj hs
      exact ⟨_,acts_put rfl (.answered hphase hrouter)⟩
    | exiting result =>
      obtain rfl := Option.some.inj hs
      exact ⟨_,acts_remove rfl (hfree rfl) (.answered hphase hrouter)⟩
    | returned result => simp [proceed] at hs
    | _ => simp [CallPhase.result] at hphase
  | @failed addr phase e handshake mailbox hphase hhandshake =>
    cases phase with
    | closing result =>
      obtain rfl := Option.some.inj hs
      exact ⟨_,acts_put rfl (.failed hphase hhandshake)⟩
    | exiting result =>
      obtain rfl := Option.some.inj hs
      exact ⟨_,acts_remove rfl (hfree rfl) (.failed hphase hhandshake)⟩
    | returned result => simp [proceed] at hs
    | _ => simp [CallPhase.result] at hphase
  | abandoned hphase houtcome =>
    obtain ⟨addr,phase,handshake,mailbox,outcome⟩ := c
    cases phase with
    | cancelling =>
      obtain rfl := Option.some.inj hs
      exact ⟨_,acts_remove rfl (hfree rfl) (.abandoned rfl houtcome)⟩
    | cancelled => simp [proceed] at hs
    | _ => simp [CallPhase.abandoned] at hphase

theorem refuse_acts {text : String} (h : CallOk s i c) (hs : s.refuse i text c = some t) :
    ∃ c', Acts s t i c c' := by
  obtain ⟨addr,phase,handshake,mailbox,outcome⟩ := c
  cases phase with
  | connecting =>
    obtain rfl := Option.some.inj hs
    cases h with
    | connecting _ => exact ⟨_,acts_put rfl (.failed rfl (by simp))⟩
    | answered h _ => cases h
    | failed h _ => cases h
    | abandoned h _ => cases h
  | initialized =>
    cases h with
    | @initialized _ r =>
      cases r with
      | ok p => cases hs
      | error e =>
        obtain rfl := Option.some.inj hs
        exact ⟨_,acts_put rfl (.failed rfl (by simp))⟩
    | answered h _ => cases h
    | failed h _ => cases h
    | abandoned h _ => cases h
  | _ => cases hs

theorem establish_acts (h : CallOk s i c) (hs : s.establish i c = some t) : ∃ c', Acts s t i c c' := by
  obtain ⟨addr,phase,handshake,mailbox,outcome⟩ := c
  cases phase with
  | connecting =>
    obtain rfl := Option.some.inj hs
    cases h with
    | connecting hp => exact ⟨_,acts_put rfl (.handshaking hp)⟩
    | answered h _ => cases h
    | failed h _ => cases h
    | abandoned h _ => cases h
  | _ => cases hs

theorem probed_acts {result : Except ProtocolError ProbeResult} (h : CallOk s i c)
    (hs : s.probed i result c = some t) : ∃ c', Acts s t i c c' := by
  obtain ⟨addr,phase,handshake,mailbox,outcome⟩ := c
  cases phase with
  | handshaking =>
    obtain rfl := Option.some.inj hs
    cases h with
    | handshaking hp => exact ⟨_,acts_put rfl (.removing hp)⟩
    | answered h _ => cases h
    | failed h _ => cases h
    | abandoned h _ => cases h
  | _ => cases hs

theorem callOk_outcome (h : CallOk s i c) {o : ProbeOutcome} (ho : c.outcome = some o) :
    ∃ r, c.handshake = some r ∧ o = initializerOutcome i c.addr r := by
  cases h with
  | answered _ _ => exact ⟨_,rfl,(Option.some.inj ho).symm⟩
  | abandoned _ houtcome => exact houtcome o ho
  | _ => cases ho

theorem cancel_acts (h : CallOk s i c) (hs : s.cancel i c = some t) : ∃ c', Acts s t i c c' := by
  unfold cancel at hs
  split at hs
  · obtain rfl := Option.some.inj hs
    exact ⟨_,acts_put rfl (.abandoned rfl (fun _ ho => callOk_outcome h ho))⟩
  · cases hs

theorem getElem?_called {addr : SocketAddr}
    (hj : (s.calls ++ [⟨addr,.connecting,none,none,none⟩])[j]? = some d) :
    s.calls[j]? = some d ∨ (j = s.calls.length ∧ d = ⟨addr,.connecting,none,none,none⟩) := by
  rw [List.getElem?_append] at hj
  split at hj
  · exact Or.inl hj
  · obtain ⟨hlt,hd⟩ := List.getElem?_eq_some_iff.mp hj
    simp only [List.length_singleton] at hlt
    exact Or.inr ⟨by omega,by simpa using hd.symm⟩

theorem inv_call {addr : SocketAddr} (h : Inv s) (he : exclusive s (.call addr) = true)
    (hs : step s (.call addr) = some t) : Inv t := by
  obtain rfl := Option.some.inj hs
  constructor
  · intro j d hj
    rcases getElem?_called hj with hj | ⟨rfl,rfl⟩
    · refine (h.ok j d hj).frame (fun hw => Function.update_of_ne ?_ _ _) (fun _ h => h)
      intro haddr
      have hown := ((h.ok j d hj).of_waits hw).1
      have hlt := (List.getElem?_eq_some_iff.mp hj).1
      simp [exclusive,awaited_of_owner (haddr ▸ hown) hj (Nat.ne_of_lt hlt) hw] at he
    · exact .connecting (Function.update_self addr _ _)
  · intro addr' j hj
    change Function.update s.pending addr (some s.calls.length) addr' = some j at hj
    rw [Function.update_apply] at hj
    split at hj
    · next haddr =>
      obtain rfl := Option.some.inj hj
      exact ⟨⟨addr,.connecting,none,none,none⟩,by simp,haddr.symm⟩
    · obtain ⟨d,hd,haddr⟩ := h.owned addr' j hj
      exact ⟨d,by rw [List.getElem?_append_left (List.getElem?_eq_some_iff.mp hd).1]; exact hd,haddr⟩

theorem inv_close {router : Router} (h : Inv s) (hs : step s (.close router) = some t) : Inv t := by
  simp only [step] at hs
  split at hs
  · obtain rfl := Option.some.inj hs
    refine ⟨fun j d hj => (h.ok j d hj).frame (fun _ => rfl) ?_,h.owned⟩
    rintro r (hr | hr)
    · by_cases hrr : r = router
      · exact Or.inr (by simp [hrr])
      · exact Or.inl ((List.mem_erase_of_ne hrr).mpr hr)
    · exact Or.inr (List.mem_cons_of_mem _ hr)
  · cases hs

theorem inv_step {e : ProbeEvent} (h : Inv s) (hs : restrict exclusive step s e = some t) : Inv t := by
  obtain ⟨he,hs⟩ := restrict_eq_some.mp hs
  have hact : ∀ {i : Nat} {f : Call → Option KaspadProbe}, s.calls[i]?.bind f = some t →
      (∀ c, CallOk s i c → s.calls[i]? = some c → f c = some t → ∃ c', Acts s t i c c') → Inv t := by
    intro i f hf hacts
    obtain ⟨c,hi,hf⟩ := Option.bind_eq_some_iff.mp hf
    obtain ⟨c',ha⟩ := hacts c (h.ok i c hi) hi hf
    exact inv_acts h hi ha
  cases e with
  | call addr => exact inv_call h he hs
  | refused i text => exact hact hs (fun c hc _ hf => refuse_acts hc hf)
  | established i => exact hact hs (fun c hc _ hf => establish_acts hc hf)
  | probed i result => exact hact hs (fun c hc _ hf => probed_acts hc hf)
  | proceed i =>
    refine hact hs (fun c hc hi hf => proceed_acts hc hi (fun hclears => ?_) hf)
    simpa [exclusive,hi,hclears] using he
  | cancel i => exact hact hs (fun c hc _ hf => cancel_acts hc hf)
  | close router => exact inv_close h hs

def remaining : CallPhase → Nat
  | .removing => 6
  | .sending _ => 5
  | .initialized => 4
  | .awaiting => 3
  | .closing _ => 2
  | .exiting _ => 1
  | _ => 0

structure Completed (s : KaspadProbe) (i : Nat) (addr : SocketAddr) (p : ProbeResult) (c : Call) : Prop where
  call : s.calls[i]? = some c
  addr : c.addr = addr
  handshake : c.handshake = some (.ok p)
  kept : c.phase.abandoned = false

theorem put_get (hi : s.calls[i]? = some c) : (s.put i c').calls[i]? = some c' :=
  List.getElem?_set_self (List.getElem?_eq_some_iff.mp hi).1

theorem returned_of_completed {addr : SocketAddr} {p : ProbeResult} (h : CallOk s i c)
    (hc : Completed s i addr p c) (hr : remaining c.phase = 0) :
    c.phase = .returned (.ok p) ∧ s.Handed ⟨i,addr⟩ := by
  obtain ⟨hi,rfl,hh,hk⟩ := hc
  cases h with
  | @answered addr phase q hphase hrouter =>
    obtain rfl := Except.ok.inj (Option.some.inj hh)
    cases phase with
    | returned result => exact ⟨congrArg CallPhase.returned (Option.some.inj hphase),hrouter⟩
    | closing result => cases hr
    | exiting result => cases hr
    | _ => cases hphase
  | failed _ hne => exact absurd hh (hne p)
  | abandoned hphase _ =>
    rw [hk] at hphase
    cases hphase
  | connecting _ => cases hh
  | handshaking _ => cases hh
  | _ => cases hr

theorem proceed_completed {addr : SocketAddr} {p : ProbeResult} (h : CallOk s i c)
    (hc : Completed s i addr p c) (hr : remaining c.phase ≠ 0) : ∃ t c', step s (.proceed i) = some t ∧
      CallOk t i c' ∧ Completed t i addr p c' ∧ remaining c'.phase + 1 = remaining c.phase := by
  obtain ⟨hi,rfl,hh,hk⟩ := hc
  have hproceed : ∀ t, s.proceed i c = some t → step s (.proceed i) = some t := by
    intro t ht
    rw [step,hi]
    exact ht
  cases h with
  | connecting _ => cases hh
  | handshaking _ => cases hh
  | removing hp => exact ⟨_,_,hproceed _ rfl,hp ▸ .sending,⟨put_get hi,rfl,hh,rfl⟩,rfl⟩
  | sending => exact ⟨_,_,hproceed _ (congrArg some (send_self hi)),.initialized,⟨put_get hi,rfl,hh,rfl⟩,rfl⟩
  | initialized =>
    obtain rfl := Option.some.inj hh
    exact ⟨_,_,hproceed _ rfl,.awaiting,⟨put_get hi,rfl,hh,rfl⟩,rfl⟩
  | awaiting =>
    exact ⟨_,_,hproceed _ rfl,.answered rfl (Or.inl List.mem_cons_self),⟨put_get hi,rfl,hh,rfl⟩,rfl⟩
  | @answered addr phase q hphase hrouter =>
    cases phase with
    | closing result =>
      exact ⟨_,⟨addr,.exiting result,_,_,_⟩,hproceed _ rfl,.answered hphase hrouter,⟨put_get hi,rfl,hh,rfl⟩,rfl⟩
    | exiting result =>
      exact ⟨_,⟨addr,.returned result,_,_,_⟩,hproceed _ rfl,.answered hphase hrouter,⟨put_get hi,rfl,hh,rfl⟩,
        rfl⟩
    | returned result => exact absurd rfl hr
    | _ => cases hphase
  | failed _ hne => exact absurd hh (hne p)
  | abandoned hphase _ =>
    rw [hk] at hphase
    cases hphase

theorem run_completed {addr : SocketAddr} {p : ProbeResult} {n : Nat} (h : CallOk s i c)
    (hc : Completed s i addr p c) (hn : remaining c.phase = n) :
    ∃ t c', run step s (List.replicate n (.proceed i)) = some t ∧ CallOk t i c' ∧
      Completed t i addr p c' ∧ remaining c'.phase = 0 := by
  induction n generalizing s c with
  | zero => exact ⟨s,c,rfl,h,hc,hn⟩
  | succ n ih =>
    obtain ⟨u,c',hs,hok,hc',hr⟩ := proceed_completed h hc (by omega)
    obtain ⟨t,c'',ht,hrest⟩ := ih hok hc' (by omega)
    refine ⟨t,c'',?_,hrest⟩
    rw [List.replicate_succ,run_cons,hs]
    exact ht

theorem run_closed {addr : SocketAddr} {p : ProbeResult} (h : CallOk s i c) (hc : Completed s i addr p c) :
    ∃ fs t c', (∀ e ∈ fs, e = .proceed i ∨ e = .close ⟨i,addr⟩) ∧
      run step s fs = some t ∧ t.calls[i]? = some c' ∧
      c'.phase = .returned (.ok p) ∧ ⟨i,addr⟩ ∈ t.closed := by
  obtain ⟨t,c',ht,hok,hc',hr⟩ := run_completed h hc rfl
  obtain ⟨hphase,hclosing | hclosed⟩ := returned_of_completed hok hc' hr
  · have hclose : step t (.close ⟨i,addr⟩) =
        some { t with closing := t.closing.erase ⟨i,addr⟩, closed := ⟨i,addr⟩ :: t.closed } := by
      simp [step,hclosing]
    refine ⟨_ ++ [.close ⟨i,addr⟩],_,c',?_,run_snoc.mpr ⟨t,ht,hclose⟩,?_,hphase,?_⟩
    · intro e he
      rcases List.mem_append.mp he with he | he
      · exact Or.inl (List.eq_of_mem_replicate he)
      · exact Or.inr (List.mem_singleton.mp he)
    · exact hc'.call
    · exact List.mem_cons_self
  · exact ⟨_,t,c',fun e he => Or.inl (List.eq_of_mem_replicate he),ht,hc'.call,hphase,hclosed⟩

structure Lost (j : Nat) (s : KaspadProbe) : Prop where
  pending : ∀ addr, s.pending addr ≠ some j
  senders : ∀ c ∈ s.calls, c.phase.sender ≠ some j
  call : ∃ c, s.calls[j]? = some c ∧ c.mailbox = none ∧ ∀ p, c.phase.result ≠ some (.ok p)

theorem lost_put (h : Lost j s) (hi : s.calls[i]? = some c) (hsender : c'.phase.sender ≠ some j)
    (hcall : i = j → c'.mailbox = none ∧ ∀ p, c'.phase.result ≠ some (.ok p)) : Lost j (s.put i c') := by
  refine ⟨h.pending,?_,?_⟩
  · intro d hd
    rcases List.mem_or_eq_of_mem_set hd with hd | rfl
    · exact h.senders d hd
    · exact hsender
  · obtain ⟨d,hj,hd⟩ := h.call
    by_cases hij : i = j
    · subst hij
      exact ⟨c',put_get hi,hcall rfl⟩
    · exact ⟨d,by rw [put,List.getElem?_set_ne hij]; exact hj,hd⟩

theorem lost_removePending (h : Lost j s) (addr : SocketAddr) : Lost j (s.removePending addr) := by
  refine ⟨?_,h.senders,h.call⟩
  intro addr' hp
  change Function.update s.pending addr none addr' = some j at hp
  rw [Function.update_apply] at hp
  split at hp
  · cases hp
  · exact h.pending addr' hp

theorem lost_send (h : Lost j s) {sender : Option Nat} (hne : sender ≠ some j) (outcome : ProbeOutcome) :
    Lost j (s.send sender outcome) := by
  unfold send
  split
  · exact h
  · next k =>
    split
    · exact h
    · next receiver hk =>
      exact lost_put h hk (h.senders receiver (List.mem_of_getElem? hk)) (fun hkj => absurd (by rw [hkj]) hne)

theorem lost_phase (h : Lost j s) (hi : s.calls[i]? = some c) {phase : CallPhase}
    {handshake : Option (Except ProtocolError ProbeResult)} (hsender : phase.sender ≠ some j)
    (hresult : i = j → ∀ p, phase.result ≠ some (.ok p)) :
    Lost j (s.put i { c with phase := phase, handshake := handshake }) := by
  refine lost_put h hi hsender (fun hij => ⟨?_,hresult hij⟩)
  obtain ⟨d,hd,hmailbox,_⟩ := h.call
  rw [← hij,hi] at hd
  exact Option.some.inj hd ▸ hmailbox

theorem lost_moves (h : Lost j s) (hi : s.calls[i]? = some c) (hm : CallMoves s i c t) : Lost j t := by
  have hown : i = j → c.mailbox = none ∧ ∀ p, c.phase.result ≠ some (.ok p) := by
    rintro rfl
    obtain ⟨d,hd,hlost⟩ := h.call
    rwa [Option.some.inj (hi.symm.trans hd)]
  have hremoved : Lost j (s.removePending c.addr) := lost_removePending h c.addr
  cases hm with
  | refused text => exact lost_phase h hi nofun (fun _ _ => nofun)
  | rejected text => exact lost_phase h hi nofun (fun _ _ => nofun)
  | established => exact lost_phase h hi nofun (fun _ _ => nofun)
  | probed result => exact lost_phase h hi nofun (fun _ _ => nofun)
  | cancelled => exact lost_phase h hi nofun (fun _ _ => nofun)
  | removed => exact lost_phase hremoved hi (h.pending c.addr) (fun _ _ => nofun)
  | sent hphase _ =>
    have hne := h.senders c (List.mem_of_getElem? hi)
    rw [hphase] at hne
    have hput : Lost j (s.put i { c with phase := .initialized }) := lost_phase h hi nofun (fun _ _ => nofun)
    exact lost_send hput hne _
  | connected => exact lost_phase h hi nofun (fun _ _ => nofun)
  | @received outcome _ hsome =>
    have hne : i ≠ j := fun hij => by simp [(hown hij).1] at hsome
    have hput : Lost j (s.put i { c with
        phase := .closing outcome.result, mailbox := none, outcome := some outcome }) :=
      lost_put h hi nofun (fun hij => absurd hij hne)
    exact ⟨hput.pending,hput.senders,hput.call⟩
  | unheard => exact lost_phase h hi nofun (fun _ _ => nofun)
  | closed hphase => exact lost_phase h hi nofun (fun hij p hp => (hown hij).2 p (hphase ▸ hp))
  | returned hphase => exact lost_phase hremoved hi nofun (fun hij p hp => (hown hij).2 p (hphase ▸ hp))
  | unwound => exact lost_phase hremoved hi nofun (fun _ _ => nofun)

theorem lost_step {e : ProbeEvent} (h : Lost j s) (hs : step s e = some t) : Lost j t := by
  obtain ⟨d,hj,hd⟩ := h.call
  have hlt := (List.getElem?_eq_some_iff.mp hj).1
  cases moves_of_step hs with
  | called addr =>
    refine ⟨?_,?_,d,by rw [List.getElem?_append_left hlt]; exact hj,hd⟩
    · intro addr' hp
      change Function.update s.pending addr (some s.calls.length) addr' = some j at hp
      rw [Function.update_apply] at hp
      split at hp
      · exact Nat.ne_of_gt hlt (Option.some.inj hp)
      · exact h.pending addr' hp
    · intro c hc
      rcases List.mem_append.mp hc with hc | hc
      · exact h.senders c hc
      · obtain rfl := List.mem_singleton.mp hc
        simp [CallPhase.sender]
  | acted hi hm => exact lost_moves h hi hm
  | shut => exact ⟨h.pending,h.senders,h.call⟩

theorem sending_of_sender {phase : CallPhase} (h : phase.sender = some j) : phase = .sending (some j) := by
  cases phase with
  | sending sender => exact congrArg _ h
  | _ => cases h

theorem CallOk.of_sending (h : CallOk s i c) (hphase : c.phase = .sending (some j)) : i = j := by
  cases h with
  | sending => exact Option.some.inj (CallPhase.sending.inj hphase)
  | answered hresult _ =>
    obtain rfl := hphase
    cases hresult
  | failed hresult _ =>
    obtain rfl := hphase
    cases hresult
  | abandoned habandoned _ =>
    rw [hphase] at habandoned
    cases habandoned
  | _ => cases hphase

theorem lost_of_cleared (h : Inv s) (hj : s.calls[j]? = some d) (hw : d.phase.waits = true) :
    Lost j (s.removePending d.addr) := by
  obtain ⟨hown,hmailbox,_⟩ := (h.ok j d hj).of_waits hw
  refine ⟨?_,?_,d,hj,hmailbox,?_⟩
  · intro addr hp
    change Function.update s.pending d.addr none addr = some j at hp
    rw [Function.update_apply] at hp
    split at hp
    · cases hp
    · next hne =>
      obtain ⟨d',hd',haddr⟩ := h.owned addr j hp
      obtain rfl := Option.some.inj (hj.symm.trans hd')
      exact hne haddr.symm
  · intro c hc hsender
    obtain ⟨k,hk⟩ := List.getElem?_of_mem hc
    have hphase := sending_of_sender hsender
    obtain rfl := (h.ok k c hk).of_sending hphase
    obtain rfl := Option.some.inj (hj.symm.trans hk)
    rw [hphase] at hw
    cases hw
  · intro p hresult
    rw [not_waits_of_result hresult] at hw
    cases hw

theorem lost_of_disturbed {e : ProbeEvent} (h : Inv s) (he : exclusive s e = false) (hs : step s e = some t) :
    ∃ j d, s.calls[j]? = some d ∧ d.phase.waits = true ∧ Lost j t := by
  cases e with
  | call addr =>
    obtain ⟨j,d,hp,hj,_,hw⟩ := owner_of_awaited (by simpa [exclusive] using he)
    obtain ⟨_,hd,rfl⟩ := h.owned addr j hp
    obtain rfl := Option.some.inj (hj.symm.trans hd)
    refine ⟨j,d,hj,hw,lost_step (lost_of_cleared h hj hw) (?_ : step _ (.call d.addr) = some t)⟩
    rw [← hs]
    simp [step,removePending]
  | proceed i =>
    obtain ⟨c,hi,hs⟩ := Option.bind_eq_some_iff.mp hs
    obtain ⟨hclears,hawaited⟩ : c.phase.clears = true ∧ s.awaited i c.addr = true := by
      simpa [exclusive,hi] using he
    obtain ⟨j,d,hp,hj,hne,hw⟩ := owner_of_awaited hawaited
    obtain ⟨_,hd,haddr⟩ := h.owned c.addr j hp
    obtain rfl := Option.some.inj (hj.symm.trans hd)
    have hlost := lost_of_cleared h hj hw
    rw [haddr] at hlost
    refine ⟨j,d,hj,hw,?_⟩
    cases hphase : c.phase with
    | removing =>
      have hown := ((h.ok i c hi).of_waits (by rw [hphase]; rfl)).1
      exact absurd (Option.some.inj (hp.symm.trans hown)) hne
    | exiting result =>
      rw [proceed,hphase] at hs
      obtain rfl := Option.some.inj hs
      exact lost_phase hlost hi (Option.some_ne_none j).symm (fun hij => absurd hij.symm hne)
    | cancelling =>
      rw [proceed,hphase] at hs
      obtain rfl := Option.some.inj hs
      exact lost_phase hlost hi (Option.some_ne_none j).symm (fun _ p h => by cases h)
    | _ =>
      rw [hphase] at hclears
      cases hclears
  | _ => cases he

theorem probe_own_outcome {es : List ProbeEvent} (hr : run (restrict exclusive step) new es = some s) :
    (∀ (i : Nat) (c : Call) (o : ProbeOutcome), s.calls[i]? = some c → c.outcome = some o →
      o.router = ⟨i,c.addr⟩ ∧ ∃ r, c.handshake = some r ∧ o.result = r.mapError probeError) ∧
    (∀ (i : Nat) (c : Call) (p : ProbeResult) (result : Except ProbeError ProbeResult),
      s.calls[i]? = some c → c.handshake = some (.ok p) → c.phase = .returned result →
      result = .ok p ∧ s.Handed ⟨i,c.addr⟩) ∧
    (∀ (i : Nat) (c : Call) (p : ProbeResult), s.calls[i]? = some c → c.handshake = some (.ok p) →
      c.phase.abandoned = false →
      ∃ fs t c', (∀ e ∈ fs, e = .proceed i ∨ e = .close ⟨i,c.addr⟩) ∧
        run step s fs = some t ∧ t.calls[i]? = some c' ∧
        c'.phase = .returned (.ok p) ∧ ⟨i,c.addr⟩ ∈ t.closed) ∧
    ∀ (e : ProbeEvent) (t : KaspadProbe), exclusive s e = false → step s e = some t →
      ∃ (j : Nat) (c : Call), s.calls[j]? = some c ∧ c.phase.waits = true ∧
        ∀ (fs : List ProbeEvent) (u : KaspadProbe) (c' : Call) (p : ProbeResult),
          run step t fs = some u → u.calls[j]? = some c' → c'.phase ≠ .returned (.ok p) := by
  have hinv : Inv s := run_invariant (fun _ _ _ h hs => inv_step h hs) inv_new hr
  refine ⟨?_,?_,?_,?_⟩
  · intro i c o hi ho
    obtain ⟨r,hr,rfl⟩ := callOk_outcome (hinv.ok i c hi) ho
    exact ⟨rfl,r,hr,rfl⟩
  · intro i c p result hi hh hphase
    have hc : Completed s i c.addr p c := ⟨hi,rfl,hh,by rw [hphase]; rfl⟩
    obtain ⟨hret,hhanded⟩ := returned_of_completed (hinv.ok i c hi) hc (by rw [hphase]; rfl)
    exact ⟨CallPhase.returned.inj (hphase.symm.trans hret),hhanded⟩
  · intro i c p hi hh hk
    exact run_closed (hinv.ok i c hi) ⟨hi,rfl,hh,hk⟩
  · intro e t he hs
    obtain ⟨j,c,hj,hw,hlost⟩ := lost_of_disturbed hinv he hs
    refine ⟨j,c,hj,hw,?_⟩
    intro fs u c' p hu hc' hphase
    have hlost' : Lost j u := run_invariant (fun _ _ _ h hs => lost_step h hs) hlost hu
    obtain ⟨d,hd,_,hresult⟩ := hlost'.call
    obtain rfl := Option.some.inj (hc'.symm.trans hd)
    exact hresult p (by rw [hphase]; rfl)

def peer : SocketAddr := ⟨.v4 0x08080808#32,16111⟩

def answer (protocolVersion : UInt32) : ProbeResult := ⟨⟨[],protocolVersion,0,Format.Text.empty,none⟩,[]⟩

def finish (i : Nat) : List ProbeEvent := List.replicate 6 (.proceed i)

def neighbour : SocketAddr := ⟨.v4 0x08080404#32,16111⟩

def probeThrice : List ProbeEvent :=
  List.flatten [[.call peer,.call neighbour,.established 1,.established 0,.probed 0 (.ok (answer 7))],
    List.replicate 2 (.proceed 0),[.call peer,.established 2,.probed 1 (.ok (answer 8)),
    .probed 2 (.ok (answer 9))],List.replicate 2 (.proceed 2),List.replicate 4 (.proceed 0),finish 1,
    [.close ⟨1,neighbour⟩],List.replicate 4 (.proceed 2)]

theorem probe_own_outcome_overlapping :
    ∃ s c₀ c₁ c₂, run (restrict exclusive step) new probeThrice = some s ∧ s.calls = [c₀,c₁,c₂] ∧
      c₀.addr = peer ∧ c₁.addr = neighbour ∧ c₂.addr = peer ∧
      c₀.phase = .returned (.ok (answer 7)) ∧ c₁.phase = .returned (.ok (answer 8)) ∧
      c₂.phase = .returned (.ok (answer 9)) ∧
      s.Handed ⟨0,peer⟩ ∧ s.Handed ⟨1,neighbour⟩ ∧ s.Handed ⟨2,peer⟩ := by
  obtain ⟨s,c₀,c₁,c₂,hr,hcalls,ha₀,ha₁,ha₂,hp₀,hp₁,hp₂,hh₀,hh₁,hh₂⟩ : ∃ s c₀ c₁ c₂,
      run (restrict exclusive step) new probeThrice = some s ∧ s.calls = [c₀,c₁,c₂] ∧
      c₀.addr = peer ∧ c₁.addr = neighbour ∧ c₂.addr = peer ∧
      c₀.phase = .returned (.ok (answer 7)) ∧ c₁.phase = .returned (.ok (answer 8)) ∧
      c₂.phase = .returned (.ok (answer 9)) ∧ c₀.handshake = some (.ok (answer 7)) ∧
      c₁.handshake = some (.ok (answer 8)) ∧ c₂.handshake = some (.ok (answer 9)) :=
    ⟨_,_,_,_,rfl,rfl,rfl,rfl,rfl,rfl,rfl,rfl,rfl,rfl,rfl⟩
  have hown := (probe_own_outcome hr).2.1
  refine ⟨s,c₀,c₁,c₂,hr,hcalls,ha₀,ha₁,ha₂,hp₀,hp₁,hp₂,?_,?_,?_⟩
  · exact ha₀ ▸ (hown 0 c₀ (answer 7) _ (by rw [hcalls]; rfl) hh₀ hp₀).2
  · exact ha₁ ▸ (hown 1 c₁ (answer 8) _ (by rw [hcalls]; rfl) hh₁ hp₁).2
  · exact ha₂ ▸ (hown 2 c₂ (answer 9) _ (by rw [hcalls]; rfl) hh₂ hp₂).2

def overlapping : List ProbeEvent :=
  List.flatten [[.call peer,.call peer,.established 0,.probed 0 (.ok (answer 7))],List.replicate 5 (.proceed 0),
    [.established 1,.probed 1 (.ok (answer 8))],finish 1]

theorem outcomes_crossed :
    ∃ s c₀ c₁, run step new overlapping = some s ∧ s.calls = [c₀,c₁] ∧
      c₀.handshake = some (.ok (answer 7)) ∧
      c₀.phase = .returned (.error (.handshake "probe outcome channel dropped")) ∧
      c₁.handshake = some (.ok (answer 8)) ∧ c₁.phase = .returned (.ok (answer 7)) ∧
      answer 7 ≠ answer 8 ∧ ¬ s.Handed ⟨1,peer⟩ := by
  refine ⟨_,_,_,rfl,rfl,?_⟩
  exact ⟨rfl,rfl,rfl,rfl,by decide,by decide⟩

end KaspadProbe

end DnsSeeder
