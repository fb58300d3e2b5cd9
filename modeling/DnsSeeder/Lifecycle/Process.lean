import Mathlib.Data.List.Infix
import DnsSeeder.Lib.Broadcast
import DnsSeeder.Lib.Run
import DnsSeeder.Time

namespace DnsSeeder

open Lib

namespace Lifecycle

structure Args where
  statsInterval : Duration
  dnsZone : Option String
  dnsNameserver : Option String
  tlsCert : Option String
  tlsKey : Option String

def Args.dnsEnabled (args : Args) : Bool := args.dnsZone.isSome && args.dnsNameserver.isSome

def Args.validate (args : Args) : Except String Unit :=
  match args.tlsCert,args.tlsKey with
  | some _,none => .error "--tls-cert requires --tls-key"
  | none,some _ => .error "--tls-key requires --tls-cert"
  | _,_ => .ok ()

inductive Service where
  | scheduler
  | refresher
  | dns
  | web
  | stats
deriving DecidableEq

instance : Fintype Service :=
  ⟨{.scheduler,.refresher,.dns,.web,.stats},fun service => by cases service <;> decide⟩

inductive Check where
  | validate
  | networkId
  | requireSeeder
  | prepareDatadir
  | openStore
  | dnsHandler
deriving DecidableEq

instance : Fintype Check :=
  ⟨{.validate,.networkId,.requireSeeder,.prepareDatadir,.openStore,.dnsHandler},fun check => by
    cases check <;> decide⟩

inductive Act where
  | attempt (check : Check)
  | spawnSignalHandler
  | subscribe (service : Service)
  | spawn (service : Service)
  | join (service : Service)
deriving DecidableEq

def startup : List Act :=
  [.attempt .validate,.attempt .networkId,.attempt .requireSeeder,.attempt .prepareDatadir,.attempt .openStore,
    .spawnSignalHandler,.subscribe .scheduler,.spawn .scheduler]

def dnsStartup : List Act :=
  [.subscribe .dns,.subscribe .refresher,.spawn .refresher,.attempt .dnsHandler,.spawn .dns]

def optional (enabled : Bool) (list : List Act) : List Act := if enabled then list else []

def acts (dns stats : Bool) : List Act :=
  startup ++ optional dns dnsStartup ++ [.subscribe .web,.spawn .web] ++
    optional stats [.subscribe .stats,.spawn .stats] ++ [.join .scheduler] ++ optional dns [.join .dns] ++
    [.join .web] ++ optional stats [.join .stats]

def Args.acts (args : Args) : List Act := Lifecycle.acts args.dnsEnabled (0 < args.statsInterval.asNanos)

inductive SignalHandler where
  | absent
  | spawned
  | listening
  | sent

inductive Phase where
  | absent
  | running
  | stopping
  | ended

inductive Exit where
  | clean
  | fatal
  | forced
  | killed
  | aborted

structure Process where
  rest : List Act
  handler : SignalHandler
  shutdown : Broadcast Service
  tasks : Service → Phase
  exited : Option Exit

inductive LifeEvent where
  | act (ok : Bool)
  | install
  | signal
  | notice (service : Service)
  | finish (service : Service)
  | fail (service : Service)
  | panic

def Check.possible (args : Args) : Check → Bool → Bool
  | .validate,ok => args.validate.isOk == ok
  | _,_ => true

namespace Process

def boot (args : Args) : Process := ⟨args.acts,.absent,.channel 1,fun _ => .absent,none⟩

def move (p : Process) (service : Service) (phase : Phase) : Process :=
  { p with tasks := Function.update p.tasks service phase }

def act (args : Args) (p : Process) (ok : Bool) : Option Process :=
  match p.rest with
  | [] => some { p with exited := some .clean }
  | .attempt check :: rest =>
      if check.possible args ok then
        some (if ok then { p with rest := rest } else { p with exited := some .fatal })
      else none
  | .spawnSignalHandler :: rest => some { p with rest := rest,handler := .spawned }
  | .subscribe service :: rest => some { p with rest := rest,shutdown := p.shutdown.subscribe service }
  | .spawn service :: rest => some ({ p with rest := rest }.move service .running)
  | .join service :: rest =>
      match p.tasks service with
      | .ended => some { p with rest := rest }
      | _ => none

def onSignal (p : Process) : Process :=
  match p.handler with
  | .absent => { p with exited := some .killed }
  | .spawned => { p with exited := some .killed }
  | .listening => { p with shutdown := p.shutdown.send,handler := .sent }
  | .sent => { p with exited := some .forced }

-- Both build profiles set `panic = "abort"`.
def abort (p : Process) : Process := { p with exited := some .aborted }

def onFailure (p : Process) : Service → Option Process
  | .scheduler => some (p.move .scheduler .ended)
  | .web => some (p.move .web .ended)
  | .dns => some p.abort
  | .refresher => none
  | .stats => none

def live (args : Args) (p : Process) : LifeEvent → Option Process
  | .act ok => p.act args ok
  | .install =>
      match p.handler with
      | .spawned => some { p with handler := .listening }
      | _ => none
  | .signal => some p.onSignal
  | .notice service =>
      match p.tasks service with
      | .running => (p.shutdown.recv service).map (fun r => { p with shutdown := r.2 }.move service .stopping)
      | _ => none
  | .finish service =>
      match p.tasks service with
      | .stopping => some (p.move service .ended)
      | _ => none
  | .fail service =>
      match p.tasks service with
      | .running => p.onFailure service
      | _ => none
  | .panic => some p.abort

def step (args : Args) (p : Process) (e : LifeEvent) : Option Process :=
  match p.exited with
  | some _ => none
  | none => p.live args e

inductive Moves (p : Process) : LifeEvent → Process → Prop
  | clean {ok : Bool} (rest : p.rest = []) : Moves p (.act ok) { p with exited := some .clean }
  | passed {check : Check} {rest : List Act} (hrest : p.rest = .attempt check :: rest) :
      Moves p (.act true) { p with rest := rest }
  | fatal {check : Check} {rest : List Act} (hrest : p.rest = .attempt check :: rest) :
      Moves p (.act false) { p with exited := some .fatal }
  | handled {ok : Bool} {rest : List Act} (hrest : p.rest = .spawnSignalHandler :: rest) :
      Moves p (.act ok) { p with rest := rest,handler := .spawned }
  | subscribed {ok : Bool} {service : Service} {rest : List Act} (hrest : p.rest = .subscribe service :: rest) :
      Moves p (.act ok) { p with rest := rest,shutdown := p.shutdown.subscribe service }
  | spawned {ok : Bool} {service : Service} {rest : List Act} (hrest : p.rest = .spawn service :: rest) :
      Moves p (.act ok) ({ p with rest := rest }.move service .running)
  | joined {ok : Bool} {service : Service} {rest : List Act} (hrest : p.rest = .join service :: rest)
      (ended : p.tasks service = .ended) : Moves p (.act ok) { p with rest := rest }
  | installed (handler : p.handler = .spawned) : Moves p .install { p with handler := .listening }
  | killed (handler : p.handler = .absent ∨ p.handler = .spawned) :
      Moves p .signal { p with exited := some .killed }
  | sent (handler : p.handler = .listening) :
      Moves p .signal { p with shutdown := p.shutdown.send,handler := .sent }
  | forced (handler : p.handler = .sent) : Moves p .signal { p with exited := some .forced }
  | noticed {service : Service} {n : Nat} (running : p.tasks service = .running)
      (pending : p.shutdown.Pending service) (le : n ≤ p.shutdown.sent) :
      Moves p (.notice service) ({ p with shutdown := p.shutdown.place service n }.move service .stopping)
  | finished {service : Service} (stopping : p.tasks service = .stopping) :
      Moves p (.finish service) (p.move service .ended)
  | failed {service : Service} (logged : service = .scheduler ∨ service = .web)
      (running : p.tasks service = .running) : Moves p (.fail service) (p.move service .ended)
  | crashed : Moves p (.fail .dns) p.abort
  | panicked : Moves p .panic p.abort

variable {args : Args} {p q : Process} {e : LifeEvent}

theorem tasks_move_self (p : Process) (service : Service) (phase : Phase) :
    (p.move service phase).tasks service = phase :=
  Function.update_self ..

theorem tasks_move_of_ne {service other : Service} (hne : other ≠ service) (phase : Phase) :
    (p.move service phase).tasks other = p.tasks other :=
  Function.update_of_ne hne ..

theorem moves_of_act {ok : Bool} (h : p.act args ok = some q) : Moves p (.act ok) q := by
  unfold act at h
  split at h
  · next hrest =>
    obtain rfl := Option.some.inj h
    exact .clean hrest
  · next check rest hrest =>
    split at h
    · cases ok with
      | true =>
        obtain rfl := Option.some.inj h
        exact .passed hrest
      | false =>
        obtain rfl := Option.some.inj h
        exact .fatal hrest
    · cases h
  · next rest hrest =>
    obtain rfl := Option.some.inj h
    exact .handled hrest
  · next service rest hrest =>
    obtain rfl := Option.some.inj h
    exact .subscribed hrest
  · next service rest hrest =>
    obtain rfl := Option.some.inj h
    exact .spawned hrest
  · next service rest hrest =>
    split at h
    · next hended =>
      obtain rfl := Option.some.inj h
      exact .joined hrest hended
    · cases h

theorem moves_onSignal (p : Process) : Moves p .signal p.onSignal := by
  unfold onSignal
  split
  · next hh => exact .killed (Or.inl hh)
  · next hh => exact .killed (Or.inr hh)
  · next hh => exact .sent hh
  · next hh => exact .forced hh

theorem moves_onFailure {service : Service} (hrunning : p.tasks service = .running)
    (h : p.onFailure service = some q) : Moves p (.fail service) q := by
  cases service with
  | scheduler =>
    obtain rfl := Option.some.inj h
    exact .failed (Or.inl rfl) hrunning
  | web =>
    obtain rfl := Option.some.inj h
    exact .failed (Or.inr rfl) hrunning
  | dns =>
    obtain rfl := Option.some.inj h
    exact .crashed
  | refresher => cases h
  | stats => cases h

theorem moves_of_step (h : step args p e = some q) : p.exited = none ∧ Moves p e q := by
  unfold step at h
  split at h
  · cases h
  · next hexited =>
    refine ⟨hexited,?_⟩
    cases e with
    | act ok => exact moves_of_act h
    | install =>
      simp only [live] at h
      split at h
      · next hh =>
        obtain rfl := Option.some.inj h
        exact .installed hh
      · cases h
    | signal =>
      obtain rfl := Option.some.inj h
      exact moves_onSignal p
    | notice service =>
      simp only [live] at h
      split at h
      · next hrunning =>
        obtain ⟨⟨r,shutdown⟩,hr,rfl⟩ := Option.map_eq_some_iff.mp h
        obtain ⟨hpending,n,hn,rfl⟩ := Broadcast.placed_of_recv hr
        exact .noticed hrunning hpending hn
      · cases h
    | finish service =>
      simp only [live] at h
      split at h
      · next hstopping =>
        obtain rfl := Option.some.inj h
        exact .finished hstopping
      · cases h
    | fail service =>
      simp only [live] at h
      split at h
      · next hrunning => exact moves_onFailure hrunning h
      · cases h
    | panic =>
      obtain rfl := Option.some.inj h
      exact .panicked

theorem acts_nodup (dns stats : Bool) : (acts dns stats).Nodup := by
  cases dns <;> cases stats <;> decide +kernel

theorem join_placed (dns stats : Bool) {service : Service} {rest : List Act}
    (h : .join service :: rest <:+ acts dns stats) :
    .spawn service ∈ acts dns stats ∧ .spawn service ∉ rest ∧ .subscribe service ∈ acts dns stats := by
  have hall : ∀ r ∈ (acts dns stats).tails, ∀ service, r.head? = some (.join service) →
      .spawn service ∈ acts dns stats ∧ .spawn service ∉ r.tail ∧ .subscribe service ∈ acts dns stats := by
    cases dns <;> cases stats <;> decide +kernel
  exact hall _ ((List.mem_tails _ _).mpr h) service rfl

theorem spawn_placed (dns stats : Bool) {service : Service} {rest : List Act} (h : rest <:+ acts dns stats)
    (hmem : .subscribe service ∈ rest) : .spawn service ∈ rest := by
  have hall : ∀ r ∈ (acts dns stats).tails, ∀ service, .subscribe service ∈ r → .spawn service ∈ r := by
    cases dns <;> cases stats <;> decide +kernel
  exact hall _ ((List.mem_tails _ _).mpr h) service hmem

theorem attempt_placed (dns stats : Bool) {check : Check} {rest : List Act}
    (h : .attempt check :: rest <:+ acts dns stats) : .subscribe .web ∈ rest := by
  have hall : ∀ r ∈ (acts dns stats).tails, ∀ check, r.head? = some (.attempt check) →
      .subscribe .web ∈ r.tail := by
    cases dns <;> cases stats <;> decide +kernel
  exact hall _ ((List.mem_tails _ _).mpr h) check rfl

structure Wired (args : Args) (p : Process) : Prop where
  suffix : p.rest <:+ args.acts
  spawned : ∀ service, .spawn service ∈ args.acts → (p.tasks service = .absent ↔ .spawn service ∈ p.rest)
  subscribed : ∀ service, .subscribe service ∈ args.acts →
    (p.shutdown.cursor service = none ↔ .subscribe service ∈ p.rest)
  behind : p.shutdown.Behind
  handled : .spawnSignalHandler ∈ p.rest → p.handler = .absent
  joined : ∀ service, .join service ∈ args.acts → .join service ∉ p.rest → p.tasks service = .ended
  clean : p.exited = some .clean → p.rest = []

theorem Wired.head_nodup (h : Wired args p) {act : Act} {rest : List Act} (hrest : p.rest = act :: rest) :
    rest <:+ args.acts ∧ act ∉ rest := by
  have hsuffix := hrest ▸ h.suffix
  exact ⟨(List.suffix_cons act rest).trans hsuffix,
    (List.nodup_cons.mp ((acts_nodup _ _).sublist hsuffix.sublist)).1⟩

theorem Wired.move (h : Wired args p) {service : Service} {phase : Phase} (hnow : p.tasks service ≠ .absent)
    (hopen : p.tasks service ≠ .ended) (hphase : phase ≠ .absent) : Wired args (p.move service phase) where
  suffix := h.suffix
  spawned other hother := by
    rcases eq_or_ne other service with rfl | hne
    · simp [Process.move,hphase,← h.spawned other hother,hnow]
    · rw [tasks_move_of_ne hne]
      exact h.spawned other hother
  subscribed := h.subscribed
  behind := h.behind
  handled := h.handled
  joined other hother hjoined := by
    rcases eq_or_ne other service with rfl | hne
    · exact absurd (h.joined other hother hjoined) hopen
    · rw [tasks_move_of_ne hne]
      exact h.joined other hother hjoined
  clean := h.clean

theorem Wired.exit (h : Wired args p) {exit : Exit} (hclean : exit = .clean → p.rest = []) :
    Wired args { p with exited := some exit } where
  suffix := h.suffix
  spawned := h.spawned
  subscribed := h.subscribed
  behind := h.behind
  handled := h.handled
  joined := h.joined
  clean hexit := hclean (Option.some.inj hexit)

theorem Wired.place (h : Wired args p) {service : Service} {n : Nat} (hpending : p.shutdown.Pending service)
    (hn : n ≤ p.shutdown.sent) : Wired args { p with shutdown := p.shutdown.place service n } where
  suffix := h.suffix
  spawned := h.spawned
  subscribed other hother := by
    rw [← h.subscribed other hother]
    rcases eq_or_ne other service with rfl | hne
    · obtain ⟨m,hm,_⟩ := hpending
      simp [Broadcast.cursor_place_self,hm]
    · rw [Broadcast.cursor_place_of_ne hne]
  behind := Broadcast.behind_place h.behind service hn
  handled := h.handled
  joined := h.joined
  clean := h.clean

theorem Wired.broadcast (h : Wired args p) : Wired args { p with shutdown := p.shutdown.send } where
  suffix := h.suffix
  spawned := h.spawned
  subscribed := h.subscribed
  behind := Broadcast.behind_send h.behind
  handled := h.handled
  joined := h.joined
  clean := h.clean

theorem Wired.rehandle (h : Wired args p) (handler : SignalHandler) (hnot : .spawnSignalHandler ∉ p.rest) :
    Wired args { p with handler := handler } :=
  ⟨h.suffix,h.spawned,h.subscribed,h.behind,fun hmem => absurd hmem hnot,h.joined,h.clean⟩

theorem Wired.handler_ready (h : Wired args p) (hhandler : p.handler ≠ .absent) :
    .spawnSignalHandler ∉ p.rest :=
  fun hmem => hhandler (h.handled hmem)

theorem Wired.advance (h : Wired args p) {act : Act} {rest : List Act} (hrest : p.rest = act :: rest)
    (hexited : p.exited = none) (hspawn : ∀ service, act ≠ .spawn service)
    (hsubscribe : ∀ service, act ≠ .subscribe service)
    (hjoin : ∀ service, act = .join service → p.tasks service = .ended) :
    Wired args { p with rest := rest } where
  suffix := (h.head_nodup hrest).1
  spawned service hservice := by
    rw [h.spawned service hservice,hrest,List.mem_cons,or_iff_right (hspawn service).symm]
  subscribed service hservice := by
    rw [h.subscribed service hservice,hrest,List.mem_cons,or_iff_right (hsubscribe service).symm]
  behind := h.behind
  handled hmem := h.handled (by simp [hrest,hmem])
  joined service hservice hnot := by
    by_cases hact : act = .join service
    · exact hjoin service hact
    · refine h.joined service hservice ?_
      rw [hrest,List.mem_cons,not_or]
      exact ⟨Ne.symm hact,hnot⟩
  clean hc := by cases hexited.symm.trans hc

theorem Wired.subscribe (h : Wired args p) {service : Service} {rest : List Act}
    (hrest : p.rest = .subscribe service :: rest) (hexited : p.exited = none) :
    Wired args { p with rest := rest,shutdown := p.shutdown.subscribe service } where
  suffix := (h.head_nodup hrest).1
  spawned other hother := by simpa [hrest] using h.spawned other hother
  subscribed other hother := by
    rcases eq_or_ne other service with rfl | hne
    · simp [Broadcast.subscribe,Broadcast.cursor_place_self,(h.head_nodup hrest).2]
    · simpa [Broadcast.subscribe,Broadcast.cursor_place_of_ne hne,hrest,hne] using h.subscribed other hother
  behind := Broadcast.behind_place h.behind service (Nat.le_refl _)
  handled hmem := h.handled (by simp [hrest,hmem])
  joined other hother hnot := h.joined other hother (by simpa [hrest] using hnot)
  clean hc := by cases hexited.symm.trans hc

theorem Wired.spawn (h : Wired args p) {service : Service} {rest : List Act}
    (hrest : p.rest = .spawn service :: rest) (hexited : p.exited = none) :
    Wired args ({ p with rest := rest }.move service .running) where
  suffix := (h.head_nodup hrest).1
  spawned other hother := by
    rcases eq_or_ne other service with rfl | hne
    · simp [Process.move,(h.head_nodup hrest).2]
    · simpa [Process.move,Function.update_of_ne hne,hrest,hne] using h.spawned other hother
  subscribed other hother := by simpa [Process.move,hrest] using h.subscribed other hother
  behind := h.behind
  handled hmem := h.handled (by simp [hrest,show _ ∈ rest from hmem])
  joined other hother hnot := by
    have hended := h.joined other hother (by simpa [hrest,Process.move] using hnot)
    have hne : other ≠ service := by
      rintro rfl
      have hspawn : .spawn other ∈ args.acts := h.suffix.subset (by simp [hrest])
      have habsent := (h.spawned other hspawn).mpr (by simp [hrest])
      cases hended.symm.trans habsent
    simpa only [tasks_move_of_ne hne] using hended
  clean hc := by cases hexited.symm.trans hc

theorem wired_boot (args : Args) : Wired args (boot args) where
  suffix := List.suffix_refl _
  spawned _ hservice := ⟨fun _ => hservice,fun _ => rfl⟩
  subscribed _ hservice := ⟨fun _ => hservice,fun _ => rfl⟩
  behind := Broadcast.behind_channel 1
  handled _ := rfl
  joined _ hservice hnot := absurd hservice hnot
  clean h := by cases h

theorem wired_step (h : Wired args p) (hs : step args p e = some q) : Wired args q := by
  obtain ⟨hexited,hm⟩ := moves_of_step hs
  cases hm with
  | clean hrest => exact h.exit (fun _ => hrest)
  | fatal _ => exact h.exit (fun hc => by cases hc)
  | killed _ => exact h.exit (fun hc => by cases hc)
  | forced _ => exact h.exit (fun hc => by cases hc)
  | crashed => exact h.exit (fun hc => by cases hc)
  | panicked => exact h.exit (fun hc => by cases hc)
  | passed hrest => exact h.advance hrest hexited (by simp) (by simp) (by simp)
  | handled hrest =>
    exact (h.advance hrest hexited (by simp) (by simp) (by simp)).rehandle _ (h.head_nodup hrest).2
  | subscribed hrest => exact h.subscribe hrest hexited
  | spawned hrest => exact h.spawn hrest hexited
  | joined hrest hended => exact h.advance hrest hexited (by simp) (by simp) (by simpa using hended)
  | installed hh => exact h.rehandle _ (h.handler_ready (by simp [hh]))
  | sent hh => exact (h.rehandle .sent (h.handler_ready (by simp [hh]))).broadcast
  | noticed hrunning hpending hn =>
    refine (h.place hpending hn).move ?_ ?_ (by simp) <;> simp [hrunning]
  | finished hstopping => exact h.move (by simp [hstopping]) (by simp [hstopping]) (by simp)
  | failed _ hrunning => exact h.move (by simp [hrunning]) (by simp [hrunning]) (by simp)

theorem wired_run {es : List LifeEvent} (h : run (step args) (boot args) es = some p) : Wired args p :=
  run_invariant (fun _ _ _ h hs => wired_step h hs) (wired_boot args) h

end Process

end Lifecycle

end DnsSeeder
