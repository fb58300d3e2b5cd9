import DnsSeeder.Lifecycle.Process

namespace DnsSeeder

open Lib

namespace Lifecycle

def LifeEvent.progress : LifeEvent → Bool
  | .signal => false
  | .fail _ => false
  | .panic => false
  | _ => true

def LifeEvent.aborts : LifeEvent → Bool
  | .fail .dns => true
  | .panic => true
  | _ => false

def Phase.weight : Phase → Nat
  | .absent => 2
  | .running => 2
  | .stopping => 1
  | .ended => 0

def SignalHandler.weight : SignalHandler → Nat
  | .absent => 1
  | .spawned => 1
  | .listening => 0
  | .sent => 0

namespace Process

variable {args : Args} {u p q : Process} {e : LifeEvent}

def Settled (args : Args) (p : Process) : Prop := ∀ e, e.progress = true → step args p e = none

structure Signalled (u p : Process) : Prop where
  rest : p.rest <:+ u.rest
  handler : p.handler = .sent
  early : ∀ service, u.shutdown.cursor service ≠ none →
    p.tasks service = .absent ∨ p.tasks service = .running → p.shutdown.Pending service
  late : ∀ service, u.shutdown.cursor service = none → ¬ p.shutdown.Pending service

theorem signalled_sent (hu : Wired args u) :
    Signalled u { u with shutdown := u.shutdown.send,handler := .sent } where
  rest := List.suffix_refl _
  handler := rfl
  early _ hearly _ := Broadcast.pending_send hu.behind hearly
  late _ hlate := Broadcast.not_pending_of_none hlate

theorem Signalled.advance (h : Signalled u p) {act : Act} {rest : List Act} (hrest : p.rest = act :: rest) :
    Signalled u { p with rest := rest } where
  rest := (List.suffix_cons act rest).trans (hrest ▸ h.rest)
  handler := h.handler
  early := h.early
  late := h.late

theorem Signalled.exit (h : Signalled u p) (exit : Option Exit) : Signalled u { p with exited := exit } :=
  ⟨h.rest,h.handler,h.early,h.late⟩

theorem Signalled.subscribe (h : Signalled u p) {service : Service} (hlate : u.shutdown.cursor service = none) :
    Signalled u { p with shutdown := p.shutdown.subscribe service } where
  rest := h.rest
  handler := h.handler
  early other hearly hphase := by
    have hne : other ≠ service := fun he => hearly (he ▸ hlate)
    exact (Broadcast.pending_place_of_ne hne _).mpr (h.early other hearly hphase)
  late other hother := by
    rcases eq_or_ne other service with rfl | hne
    · exact Broadcast.not_pending_subscribe _ _
    · exact fun hpending => h.late other hother ((Broadcast.pending_place_of_ne hne _).mp hpending)

theorem Signalled.notice (h : Signalled u p) {service : Service} (n : Nat)
    (hpending : p.shutdown.Pending service) :
    Signalled u ({ p with shutdown := p.shutdown.place service n }.move service .stopping) where
  rest := h.rest
  handler := h.handler
  early other hearly hphase := by
    have hne : other ≠ service := by
      rintro rfl
      simp [Process.move] at hphase
    rw [tasks_move_of_ne hne] at hphase
    exact (Broadcast.pending_place_of_ne hne n).mpr (h.early other hearly hphase)
  late other hother := by
    have hne : other ≠ service := fun he => h.late other hother (he ▸ hpending)
    exact fun hp => h.late other hother ((Broadcast.pending_place_of_ne hne n).mp hp)

theorem Signalled.move (h : Signalled u p) {service : Service} {phase : Phase}
    (hphase : phase = .absent ∨ phase = .running → p.tasks service = .absent ∨ p.tasks service = .running) :
    Signalled u (p.move service phase) where
  rest := h.rest
  handler := h.handler
  early other hearly hother := by
    rcases eq_or_ne other service with rfl | hne
    · rw [tasks_move_self] at hother
      exact h.early other hearly (hphase hother)
    · rw [tasks_move_of_ne hne] at hother
      exact h.early other hearly hother
  late := h.late

theorem signalled_step (hu : Wired args u) (hp : Wired args p) (h : Signalled u p)
    (hs : step args p e = some q) : Signalled u q := by
  cases (moves_of_step hs).2 with
  | clean _ => exact h.exit _
  | fatal _ => exact h.exit _
  | killed _ => exact h.exit _
  | forced _ => exact h.exit _
  | crashed => exact h.exit _
  | panicked => exact h.exit _
  | passed hrest => exact h.advance hrest
  | joined hrest _ => exact h.advance hrest
  | handled hrest => cases h.handler.symm.trans (hp.handled (by simp [hrest]))
  | @subscribed _ service rest hrest =>
    have hmem : .subscribe service ∈ u.rest := h.rest.subset (by simp [hrest])
    exact (h.advance hrest).subscribe ((hu.subscribed service (hu.suffix.subset hmem)).mpr hmem)
  | @spawned _ service rest hrest =>
    have hmem : .spawn service ∈ p.rest := by simp [hrest]
    exact (h.advance hrest).move (fun _ => Or.inl ((hp.spawned service (hp.suffix.subset hmem)).mpr hmem))
  | installed hh => cases h.handler.symm.trans hh
  | sent hh => cases h.handler.symm.trans hh
  | noticed _ hpending _ => exact h.notice _ hpending
  | finished _ => exact h.move (by simp)
  | failed _ _ => exact h.move (by simp)

theorem live_of_settled (hsettled : Settled args p) (hexited : p.exited = none) (e : LifeEvent)
    (he : e.progress = true) : p.live args e = none := by
  have h := hsettled e he
  rwa [step,hexited] at h

theorem blocked_of_settled (hu : Wired args u) (hp : Wired args p) (h : Signalled u p)
    (hexited : p.exited = none) (hsettled : Settled args p) :
    ∃ service rest, p.rest = .join service :: rest ∧ p.tasks service = .running ∧
      .subscribe service ∈ u.rest := by
  have hact : ∀ ok, p.act args ok = none := fun ok => live_of_settled hsettled hexited (.act ok) rfl
  cases hrest : p.rest with
  | nil => simpa [act,hrest] using hact true
  | cons act rest =>
    cases act with
    | attempt check =>
      obtain ⟨ok,hok⟩ : ∃ ok, check.possible args ok = true := by
        cases check <;> simp [Check.possible]
      simpa [Process.act,hrest,hok] using hact ok
    | spawnSignalHandler => simpa [Process.act,hrest] using hact true
    | subscribe service => simpa [Process.act,hrest] using hact true
    | spawn service => simpa [Process.act,hrest] using hact true
    | join service =>
      obtain ⟨hspawn,hspawned,hsubscribe⟩ := join_placed _ _ (hrest ▸ hp.suffix)
      cases hphase : p.tasks service with
      | absent =>
        have hmem := (hp.spawned service hspawn).mp hphase
        simp [hrest,hspawned] at hmem
      | ended => simpa [Process.act,hrest,hphase] using hact true
      | stopping =>
        have hfinish := live_of_settled hsettled hexited (.finish service) rfl
        simp [live,hphase] at hfinish
      | running =>
        refine ⟨service,rest,rfl,hphase,(hu.subscribed service hsubscribe).mp ?_⟩
        by_contra hearly
        obtain ⟨r,hr⟩ := Broadcast.recv_of_pending (h.early service hearly (Or.inr hphase))
        have hnotice := live_of_settled hsettled hexited (.notice service) rfl
        simp [live,hphase,hr] at hnotice

theorem orderly_step (hp : Wired args p) (h : Signalled u p) (hnone : ∀ service, .subscribe service ∉ u.rest)
    (hsignal : e ≠ .signal ∧ e.aborts = false) (hclean : p.exited = none ∨ p.exited = some .clean)
    (hs : step args p e = some q) : q.exited = none ∨ q.exited = some .clean := by
  obtain ⟨_,hm⟩ := moves_of_step hs
  cases hm with
  | clean _ => exact Or.inr rfl
  | fatal hrest =>
    have hweb : .subscribe .web ∈ p.rest := by
      rw [hrest]
      exact List.mem_cons_of_mem _ (attempt_placed _ _ (hrest ▸ hp.suffix))
    exact absurd (h.rest.subset hweb) (hnone .web)
  | killed _ => exact absurd rfl hsignal.1
  | forced _ => exact absurd rfl hsignal.1
  | crashed => cases hsignal.2
  | panicked => cases hsignal.2
  | _ => exact hclean

theorem aborted_of_step (he : e.aborts = true) (hs : step args p e = some q) : q.exited = some .aborted := by
  cases (moves_of_step hs).2 with
  | crashed => rfl
  | panicked => rfl
  | failed hlogged _ => rcases hlogged with rfl | rfl <;> cases he
  | _ => cases he

theorem aborted_of_run {t : Process} {es : List LifeEvent} (he : e ∈ es) (haborts : e.aborts = true)
    (h : run (step args) p es = some t) : t.exited = some .aborted := by
  obtain ⟨before,after,rfl⟩ := List.append_of_mem he
  rw [run_append] at h
  obtain ⟨q,_,h⟩ := Option.bind_eq_some_iff.mp h
  rw [run_cons] at h
  obtain ⟨r,hr,h⟩ := Option.bind_eq_some_iff.mp h
  have hexited := aborted_of_step haborts hr
  cases after with
  | nil => exact Option.some.inj h ▸ hexited
  | cons e' after =>
    rw [run_cons,step,hexited] at h
    cases h

theorem unheard_step {service : Service} (h : Signalled u p) (hlate : u.shutdown.cursor service = none)
    (hfail : e ≠ .fail service) (hphase : p.tasks service = .absent ∨ p.tasks service = .running)
    (hs : step args p e = some q) : q.tasks service = .absent ∨ q.tasks service = .running := by
  have hmove : ∀ {other phase}, other ≠ service →
      Function.update p.tasks other phase service = .absent ∨
        Function.update p.tasks other phase service = .running := by
    intro other phase hne
    rwa [Function.update_of_ne hne.symm]
  cases (moves_of_step hs).2 with
  | @spawned _ other rest _ =>
    rcases eq_or_ne other service with rfl | hne
    · exact Or.inr (Function.update_self ..)
    · exact hmove hne
  | @noticed other n _ hpending _ =>
    refine hmove ?_
    rintro rfl
    exact h.late other hlate hpending
  | @finished other hstopping =>
    refine hmove ?_
    rintro rfl
    simp [hstopping] at hphase
  | @failed other _ _ =>
    refine hmove ?_
    rintro rfl
    exact hfail rfl
  | _ => exact hphase

def load (p : Process) : Nat := ∑ service, (p.tasks service).weight

def rank (p : Process) : Nat :=
  match p.exited with
  | some _ => 0
  | none => 2 * p.rest.length + p.handler.weight + p.load + 1

theorem rank_live (h : p.exited = none) : rank p = 2 * p.rest.length + p.handler.weight + p.load + 1 := by
  rw [rank,h]

theorem load_move (p : Process) (service : Service) (phase : Phase) :
    (p.move service phase).load + (p.tasks service).weight = p.load + phase.weight := by
  have hnew := Finset.add_sum_erase Finset.univ (fun other => ((p.move service phase).tasks other).weight)
    (Finset.mem_univ service)
  have hold := Finset.add_sum_erase Finset.univ (fun other => (p.tasks other).weight) (Finset.mem_univ service)
  have hrest : ∑ other ∈ Finset.univ.erase service, ((p.move service phase).tasks other).weight =
      ∑ other ∈ Finset.univ.erase service, (p.tasks other).weight := by
    refine Finset.sum_congr rfl (fun other hother => ?_)
    rw [tasks_move_of_ne (Finset.ne_of_mem_erase hother)]
  rw [hrest,tasks_move_self] at hnew
  unfold load
  omega

theorem rank_advance (hexited : p.exited = none) {act : Act} {rest : List Act} (hrest : p.rest = act :: rest) :
    rank { p with rest := rest } + 2 = rank p := by
  have hlen : p.rest.length = rest.length + 1 := by rw [hrest,List.length_cons]
  have hq : rank { p with rest := rest } = 2 * rest.length + p.handler.weight + p.load + 1 :=
    rank_live hexited
  have hp := rank_live hexited
  omega

theorem rank_handler (hexited : p.exited = none) (handler : SignalHandler) :
    rank { p with handler := handler } + p.handler.weight = rank p + handler.weight := by
  have hq : rank { p with handler := handler } = 2 * p.rest.length + handler.weight + p.load + 1 :=
    rank_live hexited
  have hp := rank_live hexited
  omega

theorem rank_move (hexited : p.exited = none) (service : Service) (phase : Phase) :
    rank (p.move service phase) + (p.tasks service).weight = rank p + phase.weight := by
  have hq : rank (p.move service phase) =
    2 * p.rest.length + p.handler.weight + (p.move service phase).load + 1 := rank_live hexited
  have hload := load_move p service phase
  have hp := rank_live hexited
  omega

theorem rank_pos (hexited : p.exited = none) : 0 < rank p := by
  rw [rank_live hexited]
  exact Nat.succ_pos _

theorem rank_step (h : Wired args p) (hs : step args p e = some q) :
    rank q + (if e.progress then 1 else 0) ≤ rank p := by
  obtain ⟨hexited,hm⟩ := moves_of_step hs
  have hone : (if e.progress = true then 1 else 0) ≤ 1 := by split <;> omega
  cases hm with
  | clean _ => exact rank_pos hexited
  | fatal _ => exact rank_pos hexited
  | killed _ => exact Nat.zero_le _
  | forced _ => exact Nat.zero_le _
  | crashed => exact Nat.zero_le _
  | panicked => exact Nat.zero_le _
  | passed hrest =>
    have := rank_advance hexited hrest
    omega
  | joined hrest _ =>
    have := rank_advance hexited hrest
    omega
  | @handled _ rest hrest =>
    have hadvance := rank_advance hexited hrest
    have hhandler := rank_handler (p := { p with rest := rest }) hexited .spawned
    simp only [SignalHandler.weight] at hhandler
    omega
  | @subscribed _ service rest hrest =>
    have hq : rank { p with rest := rest,shutdown := p.shutdown.subscribe service } =
      rank { p with rest := rest } := rfl
    have := rank_advance hexited hrest
    omega
  | @spawned _ service rest hrest =>
    have hmem : .spawn service ∈ p.rest := by simp [hrest]
    have habsent := (h.spawned service (h.suffix.subset hmem)).mpr hmem
    have hadvance := rank_advance hexited hrest
    have hmove := rank_move (p := { p with rest := rest }) hexited service .running
    rw [habsent] at hmove
    simp only [Phase.weight] at hmove
    omega
  | installed hh =>
    have hhandler := rank_handler hexited .listening
    rw [hh] at hhandler
    exact hhandler.le
  | sent hh =>
    have hhandler := rank_handler hexited .sent
    rw [hh] at hhandler
    exact hhandler.le
  | @noticed service n hrunning _ _ =>
    have hmove := rank_move hexited service .stopping
    rw [hrunning] at hmove
    exact (Nat.succ.inj hmove).le
  | @finished service hstopping =>
    have hmove := rank_move hexited service .ended
    rw [hstopping] at hmove
    exact hmove.le
  | @failed service _ hrunning =>
    have hmove := rank_move hexited service .ended
    rw [hrunning] at hmove
    exact (Nat.le_add_right _ 2).trans hmove.le

theorem rank_boot (args : Args) : rank (boot args) ≤ 54 := by
  have hlen : ∀ dns stats, (acts dns stats).length ≤ 21 := by decide +kernel
  have hacts : args.acts.length ≤ 21 := hlen args.dnsEnabled (0 < args.statsInterval.asNanos)
  have hload : (boot args).load = 10 := rfl
  have hrank : rank (boot args) = 2 * args.acts.length + 1 + (boot args).load + 1 := rank_live rfl
  omega

theorem sent_of_signal (hlistening : p.handler = .listening) (hs : step args p .signal = some q) :
    q = { p with shutdown := p.shutdown.send,handler := .sent } := by
  cases (moves_of_step hs).2 with
  | killed hh => simp [hlistening] at hh
  | sent _ => rfl
  | forced hh => simp [hlistening] at hh

theorem signalled_run {v t : Process} {es : List LifeEvent} (hu : Wired args u)
    (hv : Wired args v ∧ Signalled u v) (h : run (step args) v es = some t) : Wired args t ∧ Signalled u t := by
  have hstep : ∀ p e q, (Wired args p ∧ Signalled u p) → step args p e = some q →
      Wired args q ∧ Signalled u q := fun p e q hp hs => ⟨wired_step hp.1 hs,signalled_step hu hp.1 hp.2 hs⟩
  exact run_invariant hstep hv h

theorem orderly_run {v t : Process} {es : List LifeEvent} (hu : Wired args u)
    (hv : Wired args v ∧ Signalled u v) (hnone : ∀ service, .subscribe service ∉ u.rest)
    (hexited : v.exited = none) (hes : ∀ e ∈ es, e ≠ .signal ∧ e.aborts = false)
    (h : run (step args) v es = some t) : t.exited = none ∨ t.exited = some .clean := by
  let I (p : Process) : Prop := (Wired args p ∧ Signalled u p) ∧ (p.exited = none ∨ p.exited = some .clean)
  have hstep : ∀ p e q, e ≠ .signal ∧ e.aborts = false → I p → step args p e = some q → I q :=
    fun p e q he hp hs => ⟨⟨wired_step hp.1.1 hs,signalled_step hu hp.1.1 hp.1.2 hs⟩,
      orderly_step hp.1.1 hp.1.2 hnone he hp.2 hs⟩
  have hstart : I v := ⟨hv,Or.inl hexited⟩
  exact (run_invariant_on hstep hes hstart h).2

theorem unheard_run {v t : Process} {es : List LifeEvent} {service : Service} (hu : Wired args u)
    (hv : Wired args v ∧ Signalled u v) (hlate : .subscribe service ∈ u.rest) (htasks : v.tasks = u.tasks)
    (hfail : .fail service ∉ es) (h : run (step args) v es = some t) :
    t.tasks service = .absent ∨ t.tasks service = .running := by
  have hcursor := (hu.subscribed service (hu.suffix.subset hlate)).mpr hlate
  have hspawn := spawn_placed _ _ hu.suffix hlate
  have habsent := (hu.spawned service (hu.suffix.subset hspawn)).mpr hspawn
  let I (p : Process) : Prop :=
    (Wired args p ∧ Signalled u p) ∧ (p.tasks service = .absent ∨ p.tasks service = .running)
  have hstep : ∀ p e q, e ≠ .fail service → I p → step args p e = some q → I q := fun p e q he hp hs =>
    ⟨⟨wired_step hp.1.1 hs,signalled_step hu hp.1.1 hp.1.2 hs⟩,unheard_step hp.1.2 hcursor he hp.2 hs⟩
  have hes : ∀ e ∈ es, e ≠ .fail service := fun e he heq => hfail (heq ▸ he)
  have hstart : I v := ⟨hv,Or.inl (by rw [htasks,habsent])⟩
  exact (run_invariant_on hstep hes hstart h).2

theorem first_signal_stops (args : Args) (es₁ es₂ : List LifeEvent) (u t : Process)
    (hu : run (step args) (boot args) es₁ = some u) (hlistening : u.handler = .listening)
    (ht : run (step args) u (.signal :: es₂) = some t) :
    (es₁ ++ es₂).countP LifeEvent.progress ≤ 54 ∧
    (Settled args t → t.exited = none → ∃ service rest, t.rest = .join service :: rest ∧
      t.tasks service = .running ∧ .subscribe service ∈ u.rest ∧
      step args t .signal = some { t with exited := some .forced }) ∧
    (Settled args t → (∀ service, .subscribe service ∉ u.rest) → .signal ∉ es₂ →
      t.exited = some (if es₂.any LifeEvent.aborts then .aborted else .clean)) ∧
    ∀ service, .subscribe service ∈ u.rest → .join service ∈ args.acts → .fail service ∉ es₂ →
      t.exited ≠ some .clean := by
  have hwired := wired_run hu
  have hall : run (step args) (boot args) (es₁ ++ .signal :: es₂) = some t := by
    rw [run_append,hu]
    exact ht
  rw [run_cons] at ht
  obtain ⟨v,hv,ht⟩ := Option.bind_eq_some_iff.mp ht
  have hsent := sent_of_signal hlistening hv
  have hstart : Wired args v ∧ Signalled u v := ⟨wired_step hwired hv,hsent ▸ signalled_sent hwired⟩
  obtain ⟨htw,hts⟩ := signalled_run hwired hstart ht
  refine ⟨?_,fun hsettled hexited => ?_,fun hsettled hnone hsignal => ?_,
    fun service hlate hjoin hfail hclean => ?_⟩
  · have hcost := (run_decreases rank LifeEvent.progress (fun _ _ _ h hs => ⟨wired_step h hs,rank_step h hs⟩)
      (wired_boot args) hall).2
    have hcount : (es₁ ++ .signal :: es₂).countP LifeEvent.progress =
        (es₁ ++ es₂).countP LifeEvent.progress := by
      rw [List.countP_append,List.countP_append,List.countP_cons_of_neg (by decide)]
    have := rank_boot args
    omega
  · obtain ⟨service,rest,hrest,hrunning,hmem⟩ := blocked_of_settled hwired htw hts hexited hsettled
    refine ⟨service,rest,hrest,hrunning,hmem,?_⟩
    simp [step,hexited,live,onSignal,hts.handler]
  · have hvexited : v.exited = none := hsent ▸ (moves_of_step hv).1
    cases haborts : es₂.any LifeEvent.aborts with
    | true =>
      obtain ⟨e,he,haborts⟩ := List.any_eq_true.mp haborts
      exact aborted_of_run he haborts ht
    | false =>
      have hes : ∀ e ∈ es₂, e ≠ .signal ∧ e.aborts = false := fun e he =>
        ⟨fun heq => hsignal (heq ▸ he),by simpa using List.any_eq_false.mp haborts e he⟩
      refine (orderly_run hwired hstart hnone hvexited hes ht).resolve_left (fun hexited => ?_)
      obtain ⟨service,_,_,_,hmem⟩ := blocked_of_settled hwired htw hts hexited hsettled
      exact hnone service hmem
  · have hphase := unheard_run hwired hstart hlate (by rw [hsent]) hfail ht
    have hended := htw.joined service hjoin (by simp [htw.clean hclean])
    simp [hended] at hphase

def servingArgs : Args := ⟨.fromSecs 60,some "seeder.example.net",some "ns1.example.net",none,none⟩

def handling : List LifeEvent := List.replicate 6 (.act true) ++ [.install]

def servicesUp : List LifeEvent := List.replicate 11 (.act true)

def windDown : List LifeEvent :=
  [.notice .scheduler,.notice .dns,.notice .refresher,.finish .scheduler,.act true,.notice .web,.finish .dns,
    .notice .stats,.finish .stats,.finish .web,.act true,.act true,.act true,.act true]

theorem first_signal_stops_early_and_late :
    (∃ u t, run (step servingArgs) (boot servingArgs) handling = some u ∧
      run (step servingArgs) u (.signal :: servicesUp) = some t ∧ Settled servingArgs t ∧ t.exited = none ∧
      ∃ service rest, t.rest = .join service :: rest ∧ t.tasks service = .running ∧
        .subscribe service ∈ u.rest ∧ step servingArgs t .signal = some { t with exited := some .forced }) ∧
    (∃ u t, run (step servingArgs) (boot servingArgs) (handling ++ servicesUp) = some u ∧
      run (step servingArgs) u (.signal :: windDown) = some t ∧ t.exited = some .clean) ∧
    ∃ u t, run (step servingArgs) (boot servingArgs) (handling ++ servicesUp) = some u ∧
      run (step servingArgs) u [.signal,.notice .scheduler,.fail .dns] = some t ∧ t.exited = some .aborted := by
  refine ⟨?_,?_,?_⟩
  · obtain ⟨u,t,hu,ht,hh,hsettled,hexited⟩ : ∃ u t,
        run (step servingArgs) (boot servingArgs) handling = some u ∧
        run (step servingArgs) u (.signal :: servicesUp) = some t ∧ u.handler = .listening ∧
        Settled servingArgs t ∧ t.exited = none := by
      refine ⟨_,_,rfl,rfl,rfl,?_,rfl⟩
      intro e he
      cases e with
      | act ok => rfl
      | install => rfl
      | signal => cases he
      | notice service => cases service <;> rfl
      | finish service => cases service <;> rfl
      | fail service => cases he
      | panic => cases he
    exact ⟨u,t,hu,ht,hsettled,hexited,
      (first_signal_stops servingArgs handling servicesUp u t hu hh ht).2.1 hsettled hexited⟩
  · obtain ⟨u,t,hu,ht,hh,hnone,hsettled⟩ : ∃ u t,
        run (step servingArgs) (boot servingArgs) (handling ++ servicesUp) = some u ∧
        run (step servingArgs) u (.signal :: windDown) = some t ∧ u.handler = .listening ∧
        (∀ service, .subscribe service ∉ u.rest) ∧ Settled servingArgs t :=
      ⟨_,_,rfl,rfl,rfl,by decide,fun _ _ => rfl⟩
    exact ⟨u,t,hu,ht,(first_signal_stops servingArgs (handling ++ servicesUp) windDown u t hu hh ht).2.2.1
      hsettled hnone (by simp [windDown])⟩
  · obtain ⟨u,t,hu,ht,hh,hnone,hsettled⟩ : ∃ u t,
        run (step servingArgs) (boot servingArgs) (handling ++ servicesUp) = some u ∧
        run (step servingArgs) u [.signal,.notice .scheduler,.fail .dns] = some t ∧ u.handler = .listening ∧
        (∀ service, .subscribe service ∉ u.rest) ∧ Settled servingArgs t :=
      ⟨_,_,rfl,rfl,rfl,by decide,fun _ _ => rfl⟩
    exact ⟨u,t,hu,ht,(first_signal_stops servingArgs (handling ++ servicesUp) [.notice .scheduler,.fail .dns]
      u t hu hh ht).2.2.1 hsettled hnone (by simp)⟩

end Process

end Lifecycle

end DnsSeeder
