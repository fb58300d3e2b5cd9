import DnsSeeder.Crawler.Model
import DnsSeeder.Time
import DnsSeeder.Lib.Run

namespace DnsSeeder

inductive ProtocolError where
  | timeout (limit : Duration)
  | wrongNetwork (localName remoteName : String)
  | other (text : String)
deriving DecidableEq

inductive ProbeError where
  | connection (text : String)
  | store (err : Error)
  | handshake (text : String)
  | networkMismatch (localName remoteName : String)
  | addresses (text : String)
  | timeout
  | tooManyAddresses (count : Nat)
deriving DecidableEq

def probeError : ProtocolError → ProbeError
  | .timeout _ => .timeout
  | .wrongNetwork localName remoteName => .networkMismatch localName remoteName
  | .other text => .handshake text

structure CrawlerMetrics where
  ok : UInt64
  failed : UInt64
  failedConnect : UInt64
  failedHandshake : UInt64
  failedAddresses : UInt64
  failedTimeout : UInt64
  failedTooManyAddresses : UInt64
  probesSkippedBackpressure : UInt64
deriving DecidableEq

namespace CrawlerMetrics

def new : CrawlerMetrics := ⟨0,0,0,0,0,0,0,0⟩

def recordOk (m : CrawlerMetrics) : CrawlerMetrics := { m with ok := m.ok + 1 }

def recordFailed (m : CrawlerMetrics) : CrawlerMetrics := { m with failed := m.failed + 1 }

def recordFailedKind (m : CrawlerMetrics) : ProbeError → CrawlerMetrics
  | .connection _ | .store _ => { m with failedConnect := m.failedConnect + 1 }
  | .handshake _ | .networkMismatch _ _ => { m with failedHandshake := m.failedHandshake + 1 }
  | .addresses _ => { m with failedAddresses := m.failedAddresses + 1 }
  | .timeout => { m with failedTimeout := m.failedTimeout + 1 }
  | .tooManyAddresses _ => { m with failedTooManyAddresses := m.failedTooManyAddresses + 1 }

def recordSkippedBackpressure (m : CrawlerMetrics) (n : UInt64) : CrawlerMetrics :=
  if 0 < n then { m with probesSkippedBackpressure := m.probesSkippedBackpressure + n } else m

def recordOutcome (m : CrawlerMetrics) : Except ProbeError ProbeResult → CrawlerMetrics
  | .ok _ => m.recordOk
  | .error err => m.recordFailed.recordFailedKind err

end CrawlerMetrics

structure Router where
  id : Nat
  netAddress : SocketAddr
deriving DecidableEq

structure ProbeOutcome where
  router : Router
  result : Except ProbeError ProbeResult

inductive CallPhase where
  | connecting
  | handshaking
  | removing
  | sending (sender : Option Nat)
  | initialized
  | awaiting
  | closing (result : Except ProbeError ProbeResult)
  | exiting (result : Except ProbeError ProbeResult)
  | returned (result : Except ProbeError ProbeResult)
  | cancelling
  | cancelled

namespace CallPhase

def active : CallPhase → Bool
  | .returned _ => false
  | .cancelled => false
  | _ => true

def atAwait : CallPhase → Bool
  | .connecting => true
  | .handshaking => true
  | .initialized => true
  | .awaiting => true
  | .closing _ => true
  | _ => false

def sender : CallPhase → Option Nat
  | .sending sender => sender
  | _ => none

def abandoned : CallPhase → Bool
  | .cancelling => true
  | .cancelled => true
  | _ => false

end CallPhase

structure Call where
  addr : SocketAddr
  phase : CallPhase
  handshake : Option (Except ProtocolError ProbeResult)
  mailbox : Option ProbeOutcome
  outcome : Option ProbeOutcome

inductive ProbeEvent where
  | call (addr : SocketAddr)
  | refused (i : Nat) (text : String)
  | established (i : Nat)
  | probed (i : Nat) (result : Except ProtocolError ProbeResult)
  | proceed (i : Nat)
  | cancel (i : Nat)
  | close (router : Router)

structure KaspadProbe where
  calls : List Call
  pending : SocketAddr → Option Nat
  closing : List Router
  closed : List Router

namespace KaspadProbe

def new : KaspadProbe := ⟨[],fun _ => none,[],[]⟩

def put (s : KaspadProbe) (i : Nat) (c : Call) : KaspadProbe := { s with calls := s.calls.set i c }

def removePending (s : KaspadProbe) (addr : SocketAddr) : KaspadProbe :=
  { s with pending := Function.update s.pending addr none }

def senderAlive (s : KaspadProbe) (i : Nat) (addr : SocketAddr) : Bool :=
  s.pending addr == some i || s.calls.any (fun c => c.phase.sender == some i)

def send (s : KaspadProbe) (sender : Option Nat) (outcome : ProbeOutcome) : KaspadProbe :=
  match sender with
  | none => s
  | some j =>
      match s.calls[j]? with
      | none => s
      | some receiver => s.put j { receiver with mailbox := some outcome }

def initializerOutcome (i : Nat) (addr : SocketAddr) (result : Except ProtocolError ProbeResult) :
    ProbeOutcome :=
  ⟨⟨i,addr⟩,result.mapError probeError⟩

def proceed (s : KaspadProbe) (i : Nat) (c : Call) : Option KaspadProbe :=
  match c.phase with
  | .removing => some ((s.removePending c.addr).put i { c with phase := .sending (s.pending c.addr) })
  | .sending sender => c.handshake.map (fun result =>
      (s.put i { c with phase := .initialized }).send sender (initializerOutcome i c.addr result))
  | .initialized =>
      match c.handshake with
      | some (.ok _) => some (s.put i { c with phase := .awaiting })
      | _ => none
  | .awaiting =>
      match c.mailbox with
      | some outcome => some { s.put i { c with
            phase := .closing outcome.result, mailbox := none, outcome := some outcome } with
          closing := outcome.router :: s.closing }
      | none =>
          if s.senderAlive i c.addr then none
          else some (s.put i { c with phase := .exiting (.error (.handshake "probe outcome channel dropped")) })
  | .closing result => some (s.put i { c with phase := .exiting result })
  | .exiting result => some ((s.removePending c.addr).put i { c with phase := .returned result })
  | .cancelling => some ((s.removePending c.addr).put i { c with phase := .cancelled })
  | _ => none

def refuse (s : KaspadProbe) (i : Nat) (text : String) (c : Call) : Option KaspadProbe :=
  match c.phase,c.handshake with
  | .connecting,_ => some (s.put i { c with phase := .exiting (.error (.connection text)) })
  | .initialized,some (.error _) => some (s.put i { c with phase := .exiting (.error (.connection text)) })
  | _,_ => none

def establish (s : KaspadProbe) (i : Nat) (c : Call) : Option KaspadProbe :=
  match c.phase with
  | .connecting => some (s.put i { c with phase := .handshaking })
  | _ => none

def probed (s : KaspadProbe) (i : Nat) (result : Except ProtocolError ProbeResult) (c : Call) :
    Option KaspadProbe :=
  match c.phase with
  | .handshaking => some (s.put i { c with phase := .removing, handshake := some result })
  | _ => none

def cancel (s : KaspadProbe) (i : Nat) (c : Call) : Option KaspadProbe :=
  if c.phase.atAwait then some (s.put i { c with phase := .cancelling }) else none

def step (s : KaspadProbe) : ProbeEvent → Option KaspadProbe
  | .call addr => some { s with
      calls := s.calls ++ [⟨addr,.connecting,none,none,none⟩]
      pending := Function.update s.pending addr (some s.calls.length) }
  | .refused i text => s.calls[i]?.bind (s.refuse i text)
  | .established i => s.calls[i]?.bind (s.establish i)
  | .probed i result => s.calls[i]?.bind (s.probed i result)
  | .proceed i => s.calls[i]?.bind (s.proceed i)
  | .cancel i => s.calls[i]?.bind (s.cancel i)
  | .close router =>
      if router ∈ s.closing then
        some { s with closing := s.closing.erase router, closed := router :: s.closed }
      else none

inductive CallMoves (s : KaspadProbe) (i : Nat) (c : Call) : KaspadProbe → Prop
  | refused (text : String) (hphase : c.phase = .connecting) :
      CallMoves s i c (s.put i { c with phase := .exiting (.error (.connection text)) })
  | rejected (text : String) {err : ProtocolError} (hphase : c.phase = .initialized)
      (hhandshake : c.handshake = some (.error err)) :
      CallMoves s i c (s.put i { c with phase := .exiting (.error (.connection text)) })
  | established (hphase : c.phase = .connecting) : CallMoves s i c (s.put i { c with phase := .handshaking })
  | probed (result : Except ProtocolError ProbeResult) (hphase : c.phase = .handshaking) :
      CallMoves s i c (s.put i { c with phase := .removing, handshake := some result })
  | cancelled (hphase : c.phase.atAwait = true) : CallMoves s i c (s.put i { c with phase := .cancelling })
  | removed (hphase : c.phase = .removing) :
      CallMoves s i c ((s.removePending c.addr).put i { c with phase := .sending (s.pending c.addr) })
  | sent {sender : Option Nat} {result : Except ProtocolError ProbeResult} (hphase : c.phase = .sending sender)
      (hhandshake : c.handshake = some result) :
      CallMoves s i c
        ((s.put i { c with phase := .initialized }).send sender (initializerOutcome i c.addr result))
  | connected {p : ProbeResult} (hphase : c.phase = .initialized) (hhandshake : c.handshake = some (.ok p)) :
      CallMoves s i c (s.put i { c with phase := .awaiting })
  | received {outcome : ProbeOutcome} (hphase : c.phase = .awaiting) (hmailbox : c.mailbox = some outcome) :
      CallMoves s i c { s.put i { c with
        phase := .closing outcome.result, mailbox := none, outcome := some outcome } with
        closing := outcome.router :: s.closing }
  | unheard (hphase : c.phase = .awaiting) (hmailbox : c.mailbox = none)
      (hsender : s.senderAlive i c.addr = false) :
      CallMoves s i c
        (s.put i { c with phase := .exiting (.error (.handshake "probe outcome channel dropped")) })
  | closed {result : Except ProbeError ProbeResult} (hphase : c.phase = .closing result) :
      CallMoves s i c (s.put i { c with phase := .exiting result })
  | returned {result : Except ProbeError ProbeResult} (hphase : c.phase = .exiting result) :
      CallMoves s i c ((s.removePending c.addr).put i { c with phase := .returned result })
  | unwound (hphase : c.phase = .cancelling) :
      CallMoves s i c ((s.removePending c.addr).put i { c with phase := .cancelled })

inductive Moves (s : KaspadProbe) : KaspadProbe → Prop
  | called (addr : SocketAddr) : Moves s { s with
      calls := s.calls ++ [⟨addr,.connecting,none,none,none⟩]
      pending := Function.update s.pending addr (some s.calls.length) }
  | acted {t : KaspadProbe} {i : Nat} {c : Call} (hi : s.calls[i]? = some c) (h : CallMoves s i c t) : Moves s t
  | shut {router : Router} (h : router ∈ s.closing) :
      Moves s { s with closing := s.closing.erase router, closed := router :: s.closed }

section moves
variable {s t : KaspadProbe} {i : Nat} {c : Call}

theorem callMoves_proceed (hs : s.proceed i c = some t) : CallMoves s i c t := by
  unfold proceed at hs
  split at hs
  · next hphase => exact Option.some.inj hs ▸ .removed hphase
  · next hphase =>
    obtain ⟨result,hhandshake,rfl⟩ := Option.map_eq_some_iff.mp hs
    exact .sent hphase hhandshake
  · next hphase =>
    split at hs
    · next hhandshake => exact Option.some.inj hs ▸ .connected hphase hhandshake
    · cases hs
  · next hphase =>
    split at hs
    · next hmailbox => exact Option.some.inj hs ▸ .received hphase hmailbox
    · next hmailbox =>
      split at hs
      · cases hs
      · next hsender => exact Option.some.inj hs ▸ .unheard hphase hmailbox (Bool.eq_false_iff.mpr hsender)
  · next hphase => exact Option.some.inj hs ▸ .closed hphase
  · next hphase => exact Option.some.inj hs ▸ .returned hphase
  · next hphase => exact Option.some.inj hs ▸ .unwound hphase
  · cases hs

theorem callMoves_refuse {text : String} (hs : s.refuse i text c = some t) : CallMoves s i c t := by
  unfold refuse at hs
  split at hs
  · next hphase => exact Option.some.inj hs ▸ .refused text hphase
  · next hphase hhandshake => exact Option.some.inj hs ▸ .rejected text hphase hhandshake
  · cases hs

theorem callMoves_establish (hs : s.establish i c = some t) : CallMoves s i c t := by
  unfold establish at hs
  split at hs
  · next hphase => exact Option.some.inj hs ▸ .established hphase
  · cases hs

theorem callMoves_probed {result : Except ProtocolError ProbeResult} (hs : s.probed i result c = some t) :
    CallMoves s i c t := by
  unfold KaspadProbe.probed at hs
  split at hs
  · next hphase => exact Option.some.inj hs ▸ .probed result hphase
  · cases hs

theorem callMoves_cancel (hs : s.cancel i c = some t) : CallMoves s i c t := by
  unfold cancel at hs
  split at hs
  · next hphase => exact Option.some.inj hs ▸ .cancelled hphase
  · cases hs

theorem moves_of_step {e : ProbeEvent} (hs : step s e = some t) : Moves s t := by
  have hact : ∀ {i : Nat} {f : Call → Option KaspadProbe}, s.calls[i]?.bind f = some t →
      (∀ c, f c = some t → CallMoves s i c t) → Moves s t := by
    intro i f hf hmoves
    obtain ⟨c,hi,hf⟩ := Option.bind_eq_some_iff.mp hf
    exact .acted hi (hmoves c hf)
  cases e with
  | call addr => exact Option.some.inj hs ▸ .called addr
  | refused i text => exact hact hs (fun _ => callMoves_refuse)
  | established i => exact hact hs (fun _ => callMoves_establish)
  | probed i result => exact hact hs (fun _ => callMoves_probed)
  | proceed i => exact hact hs (fun _ => callMoves_proceed)
  | cancel i => exact hact hs (fun _ => callMoves_cancel)
  | close router =>
    simp only [step] at hs
    split at hs
    · next hclosing => exact Option.some.inj hs ▸ .shut hclosing
    · cases hs

end moves

end KaspadProbe

end DnsSeeder
