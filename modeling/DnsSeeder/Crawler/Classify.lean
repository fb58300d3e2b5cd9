import DnsSeeder.Crawler.Collect
import DnsSeeder.Crawler.Rendezvous

namespace DnsSeeder

open Lib

structure ProbeInitializerConfig where
  network : String
  probeTimeout : Duration
  probesPerPeer : UInt8

structure PeerVersion where
  network : String
  message : VersionMessage

inductive Incoming (α : Type) where
  | message (payload : α)
  | failed (err : ProtocolError)
  | silent

def dequeueWithTimeout {α : Type} (timeout : Duration) : Incoming α → Except ProtocolError α
  | .message payload => .ok payload
  | .failed err => .error err
  | .silent => .error (.timeout timeout)

structure Transcript where
  version : Incoming PeerVersion
  versionSent : Except ProtocolError Unit
  verack : Incoming Unit
  verackSent : Except ProtocolError Unit
  readySent : Except ProtocolError Unit
  ready : Incoming Unit
  requestAddresses : Incoming Unit
  addressesSent : Except ProtocolError Unit
  rounds : Nat → Round

namespace ProbeInitializer

def doProbe (order : HashOrder) (config : ProbeInitializerConfig) (t : Transcript) :
    Except ProtocolError ProbeResult := do
  let peerVersion ← dequeueWithTimeout config.probeTimeout t.version
  if peerVersion.network ≠ config.network then
    throw (.wrongNetwork config.network peerVersion.network)
  t.versionSent
  dequeueWithTimeout config.probeTimeout t.verack
  t.verackSent
  t.readySent
  dequeueWithTimeout config.probeTimeout t.ready
  dequeueWithTimeout config.probeTimeout t.requestAddresses
  t.addressesSent
  let addresses ← collectAddresses order config.probesPerPeer t.rounds
  return ⟨peerVersion.message,addresses⟩

end ProbeInitializer

namespace KaspadProbe

open ProbeInitializer

variable {s t : KaspadProbe} {i : Nat} {c c' : Call}

structure Explained (c : Call) : Prop where
  awaiting : c.phase = .awaiting → ∃ p, c.handshake = some (.ok p)
  failed : ∀ r, c.phase.result = some r → (∀ p, c.handshake ≠ some (.ok p)) →
    ∃ text, r = .error (.connection text)

theorem explained_of_unsettled (hphase : c.phase.result = none) (hawait : c.phase ≠ .awaiting) : Explained c :=
  ⟨fun h => absurd h hawait,fun r hr => by rw [hphase] at hr; cases hr⟩

theorem explained_put (h : ∀ c ∈ s.calls, Explained c) (hc : Explained c') :
    ∀ c ∈ (s.put i c').calls, Explained c := by
  intro c hmem
  rcases List.mem_or_eq_of_mem_set hmem with hmem | rfl
  · exact h c hmem
  · exact hc

theorem explained_send (h : ∀ c ∈ s.calls, Explained c) (sender : Option Nat) (outcome : ProbeOutcome) :
    ∀ c ∈ (s.send sender outcome).calls, Explained c := by
  unfold send
  split
  · exact h
  · split
    · exact h
    · next receiver hreceiver =>
      have hr := h receiver (List.mem_of_getElem? hreceiver)
      exact explained_put h ⟨hr.awaiting,hr.failed⟩

theorem explained_moves (h : ∀ c ∈ s.calls, Explained c) (hi : s.calls[i]? = some c)
    (hm : CallMoves s i c t) : ∀ c ∈ t.calls, Explained c := by
  have hc := h c (List.mem_of_getElem? hi)
  have hrefused : ∀ text, Explained { c with phase := .exiting (.error (.connection text)) } :=
    fun text => ⟨by simp,fun r hr _ => ⟨text,(Option.some.inj hr).symm⟩⟩
  cases hm with
  | refused text => exact explained_put h (hrefused text)
  | rejected text => exact explained_put h (hrefused text)
  | established => exact explained_put h (explained_of_unsettled rfl (by simp))
  | probed result => exact explained_put h (explained_of_unsettled rfl (by simp))
  | cancelled => exact explained_put h (explained_of_unsettled rfl (by simp))
  | removed => exact explained_put h (explained_of_unsettled rfl (by simp))
  | sent => exact explained_send (explained_put h (explained_of_unsettled rfl (by simp))) _ _
  | connected _ hhandshake => exact explained_put h ⟨fun _ => ⟨_,hhandshake⟩,by simp [CallPhase.result]⟩
  | received hphase =>
    obtain ⟨p,hp⟩ := hc.awaiting hphase
    exact explained_put h ⟨by simp,fun _ _ hne => absurd hp (hne p)⟩
  | unheard hphase =>
    obtain ⟨p,hp⟩ := hc.awaiting hphase
    exact explained_put h ⟨by simp,fun _ _ hne => absurd hp (hne p)⟩
  | closed hphase =>
    refine explained_put h ⟨by simp,fun r hr => hc.failed r ?_⟩
    rw [hphase]
    exact hr
  | returned hphase =>
    refine explained_put h ⟨by simp,fun r hr => hc.failed r ?_⟩
    rw [hphase]
    exact hr
  | unwound => exact explained_put h (explained_of_unsettled rfl (by simp))

theorem explained_step {e : ProbeEvent} (h : ∀ c ∈ s.calls, Explained c) (hs : step s e = some t) :
    ∀ c ∈ t.calls, Explained c := by
  cases moves_of_step hs with
  | called addr =>
    intro c hc
    rcases List.mem_append.mp hc with hc | hc
    · exact h c hc
    · obtain rfl := List.mem_singleton.mp hc
      exact explained_of_unsettled rfl (by simp)
  | acted hi hmoves => exact explained_moves h hi hmoves
  | shut => exact h

structure Classified (order : HashOrder) (config : ProbeInitializerConfig) (connection : Option Transcript)
    (result : Except ProbeError ProbeResult) (m : CrawlerMetrics) : Prop where
  timeout : ∀ t limit, connection = some t → doProbe order config t = .error (.timeout limit) →
    result = .error .timeout ∧ (m.recordOutcome result).failedTimeout = m.failedTimeout + 1
  mismatch : ∀ t localName remoteName, connection = some t →
    doProbe order config t = .error (.wrongNetwork localName remoteName) →
    result = .error (.networkMismatch localName remoteName) ∧
      (m.recordOutcome result).failedHandshake = m.failedHandshake + 1
  other : ∀ t text, connection = some t → doProbe order config t = .error (.other text) →
    (∃ text', result = .error (.handshake text')) ∧
      (m.recordOutcome result).failedHandshake = m.failedHandshake + 1
  unconnected : ∀ text, result = .error (.connection text) → connection = none

theorem failures_classified_iff {es : List ProbeEvent} (hr : run (restrict exclusive step) new es = some s)
    (hi : s.calls[i]? = some c) (order : HashOrder) (config : ProbeInitializerConfig)
    (connection : Option Transcript) (hc : c.handshake = connection.map (doProbe order config))
    {result : Except ProbeError ProbeResult} (hret : c.phase = .returned result) (m : CrawlerMetrics) :
    Classified order config connection result m ↔
      ∀ t err, connection = some t → doProbe order config t ≠ .error err := by
  have hexplained : ∀ c ∈ s.calls, Explained c :=
    run_invariant (fun _ _ _ h hs => explained_step h (restrict_eq_some.mp hs).2) (by simp [new]) hr
  have hinv : Inv s := run_invariant (fun _ _ _ h hs => inv_step h hs) inv_new hr
  constructor
  · rintro h t err rfl hprobe
    rw [Option.map_some,hprobe] at hc
    obtain ⟨text,rfl⟩ := (hexplained c (List.mem_of_getElem? hi)).failed result
      (by rw [hret]; rfl) (by simp [hc])
    cases h.unconnected text rfl
  · intro hok
    refine ⟨fun t _ ht he => absurd he (hok t _ ht),fun t _ _ ht he => absurd he (hok t _ ht),
      fun t _ ht he => absurd he (hok t _ ht),?_⟩
    rintro text rfl
    cases connection with
    | none => rfl
    | some t =>
      cases hprobe : doProbe order config t with
      | error err => exact absurd hprobe (hok t err rfl)
      | ok p =>
        rw [Option.map_some,hprobe] at hc
        have hdone : Completed s i c.addr p c := ⟨hi,rfl,hc,by rw [hret]; rfl⟩
        obtain ⟨hphase,_⟩ := returned_of_completed (hinv.ok i c hi) hdone (by rw [hret]; rfl)
        cases hret.symm.trans hphase

def mainnet : ProbeInitializerConfig := ⟨"kaspa-mainnet",.fromSecs 4,3⟩

def answered (version : Incoming PeerVersion) : Transcript where
  version := version
  versionSent := .ok ()
  verack := .message ()
  verackSent := .ok ()
  readySent := .ok ()
  ready := .message ()
  requestAddresses := .message ()
  addressesSent := .ok ()
  rounds := fun _ => .received [gossip 1]

def probeOf (t : Transcript) : List ProbeEvent :=
  [.call peer,.established 0,.probed 0 (doProbe sortedOrder mainnet t)]

def healthy : Transcript := answered (.message ⟨"kaspa-mainnet",(answer 7).version⟩)

theorem failures_classified_iff_healthy :
    ∃ s c result, run (restrict exclusive step) new (probeOf healthy ++ finish 0) = some s ∧
      s.calls[0]? = some c ∧ c.phase = .returned result ∧
      Classified sortedOrder mainnet (some healthy) result .new := by
  obtain ⟨s,c,result,hr,hi,hret,hc⟩ : ∃ s c result,
      run (restrict exclusive step) new (probeOf healthy ++ finish 0) = some s ∧ s.calls[0]? = some c ∧
      c.phase = .returned result ∧ c.handshake = some (doProbe sortedOrder mainnet healthy) :=
    ⟨_,_,_,rfl,rfl,rfl,rfl⟩
  refine ⟨s,c,result,hr,hi,hret,?_⟩
  refine (failures_classified_iff hr hi sortedOrder mainnet (some healthy) hc hret .new).mpr ?_
  rintro t err ht herr
  obtain rfl := Option.some.inj ht
  cases herr

theorem silent_peer_misclassified :
    doProbe sortedOrder mainnet (answered .silent) = .error (.timeout (.fromSecs 4)) ∧
    ∃ s c, run (restrict exclusive step) new (probeOf (answered .silent) ++
        [.proceed 0,.proceed 0,.refused 0 "timed out",.proceed 0]) = some s ∧ s.calls[0]? = some c ∧
      c.handshake = some (doProbe sortedOrder mainnet (answered .silent)) ∧
      c.phase = .returned (.error (.connection "timed out")) ∧
      (CrawlerMetrics.new.recordOutcome (.error (.connection "timed out"))).failedConnect = 1 ∧
      (CrawlerMetrics.new.recordOutcome (.error (.connection "timed out"))).failedTimeout = 0 :=
  ⟨rfl,_,_,rfl,rfl,rfl,rfl,rfl,rfl⟩

end KaspadProbe

end DnsSeeder
