import DnsSeeder.Durations
import DnsSeeder.Lib.Talk

namespace DnsSeeder

open Lib

structure OurVersion where
  protocolVersion : UInt32
  services : UInt64
  timestamp : Int64
  id : Bytes
  userAgent : String
  disableRelayTx : Bool
  network : String

inductive Message where
  | version (version : OurVersion)
  | verack
  | ready
  | addresses (addressList : List PeerAddress)
  | requestAddresses
  | reject (reason : String)

structure Script where
  version : Inbound ProtocolError PeerVersion
  services : UInt64
  timestamp : Int64
  uuid : Bytes
  versionSent : Delivery ProtocolError
  verack : Inbound ProtocolError Unit
  verackSent : Delivery ProtocolError
  readySent : Delivery ProtocolError
  ready : Inbound ProtocolError Unit
  requestAddresses : Inbound ProtocolError Unit
  addressesSent : Delivery ProtocolError
  requestSent : Nat → Delivery ProtocolError
  addresses : Nat → Inbound ProtocolError (Except ProtocolError (List PeerAddress))
  rejectSent : Delivery ProtocolError

namespace ProbeInitializer

open Talk

abbrev Dialogue := Talk Message ProtocolError

def userAgent : String := "/simply-kaspa-dnsseeder:0.1.0/"

section dialogue
variable (config : ProbeInitializerConfig) (script : Script)

def receive {α : Type} (arrival : Inbound ProtocolError α) : Dialogue α :=
  await config.probeTimeout.asNanos (.timeout config.probeTimeout) arrival

def giveUp (addressSet : Finset PeerAddress) (err : ProtocolError) : Dialogue (Finset PeerAddress) :=
  if addressSet = ∅ then fail err else done addressSet

def extend (addressSet : Finset PeerAddress) (batch : List PeerAddress) : Dialogue (Finset PeerAddress) :=
  if maxAddressesReceive < (addressSet ∪ batch.toFinset).card then
    fail (tooMany (addressSet ∪ batch.toFinset).card)
  else done (addressSet ∪ batch.toFinset)

def repeatDelay (round : Nat) : Nat := if 0 < round then probeRepeatDelay.asNanos else 0

def afterReply (addressSet : Finset PeerAddress) (next : Finset PeerAddress → Dialogue (Finset PeerAddress)) :
    Except ProtocolError (Except ProtocolError (List PeerAddress)) → Dialogue (Finset PeerAddress)
  | .error err => giveUp addressSet err
  | .ok (.error err) => fail err
  | .ok (.ok batch) => (extend addressSet batch).andThen next

def afterRequest (round : Nat) (addressSet : Finset PeerAddress)
    (next : Finset PeerAddress → Dialogue (Finset PeerAddress)) :
    Except ProtocolError Unit → Dialogue (Finset PeerAddress)
  | .error err => giveUp addressSet err
  | .ok _ => (attempt (receive config (script.addresses round))).andThen (afterReply addressSet next)

def collectDialogue : (remaining round : Nat) → Finset PeerAddress → Dialogue (Finset PeerAddress)
  | 0,_,addressSet => done addressSet
  | remaining + 1,round,addressSet =>
      (pause (repeatDelay round)).andThen (fun _ =>
        (attempt (send .requestAddresses (script.requestSent round))).andThen
          (afterRequest config script round addressSet (collectDialogue remaining (round + 1))))

def ourVersion (peer : PeerVersion) : OurVersion :=
  ⟨peer.message.protocolVersion,script.services,script.timestamp,script.uuid,userAgent,true,config.network⟩

def checkNetwork (peer : PeerVersion) : Dialogue Unit :=
  if peer.network ≠ config.network then fail (.wrongNetwork config.network peer.network) else done ()

def exchange (peer : PeerVersion) : Dialogue Unit :=
  (send (.version (ourVersion config script peer)) script.versionSent).andThen (fun _ =>
    (receive config script.verack).andThen (fun _ =>
      (send .verack script.verackSent).andThen (fun _ =>
        (send .ready script.readySent).andThen (fun _ =>
          (receive config script.ready).andThen (fun _ =>
            (receive config script.requestAddresses).andThen (fun _ =>
              send (.addresses []) script.addressesSent))))))

def farewell : Message := .reject "DUPLICATE_CONNECTION"

def gather (order : HashOrder) (peer : PeerVersion) : Dialogue ProbeResult :=
  (collectDialogue config script (rounds config.probesPerPeer) 0 ∅).andThen (fun found =>
    (attempt (send farewell script.rejectSent)).andThen (fun _ => done ⟨peer.message,order.toVec found⟩))

def doProbeDialogue (order : HashOrder) : Dialogue ProbeResult :=
  (receive config script.version).andThen (fun peer =>
    (checkNetwork config peer).andThen (fun _ =>
      (exchange config script peer).andThen (fun _ => gather config script order peer)))

end dialogue

def incoming {α : Type} (limit : Nat) : Inbound ProtocolError α → Incoming α
  | .after delay outcome =>
      if delay < limit then
        match outcome with
        | .ok payload => .message payload
        | .error err => .failed err
      else .silent
  | .never => .silent

def sent (d : Delivery ProtocolError) : Except ProtocolError Unit :=
  match d.failure with
  | none => .ok ()
  | some err => .error err

def replied : Except ProtocolError (Except ProtocolError (List PeerAddress)) → Round
  | .error err => .receiveFailed err
  | .ok (.error err) => .malformed err
  | .ok (.ok batch) => .received batch

def roundOf (config : ProbeInitializerConfig) (script : Script) (round : Nat) : Round :=
  match (script.requestSent round).failure with
  | some err => .enqueueFailed err
  | none => replied (dequeueWithTimeout config.probeTimeout
      (incoming config.probeTimeout.asNanos (script.addresses round)))

def transcript (config : ProbeInitializerConfig) (script : Script) : Transcript where
  version := incoming config.probeTimeout.asNanos script.version
  versionSent := sent script.versionSent
  verack := incoming config.probeTimeout.asNanos script.verack
  verackSent := sent script.verackSent
  readySent := sent script.readySent
  ready := incoming config.probeTimeout.asNanos script.ready
  requestAddresses := incoming config.probeTimeout.asNanos script.requestAddresses
  addressesSent := sent script.addressesSent
  rounds := roundOf config script

variable {config : ProbeInitializerConfig} {script : Script} {α β : Type}

theorem andThen_fst {p : Dialogue α} {f : α → Dialogue β} {r : Except ProtocolError α}
    {g : α → Except ProtocolError β} (hp : ∀ c, (p c).1 = r) (hf : ∀ a c, (f a c).1 = g a) (c : Clock Message) :
    ((p.andThen f) c).1 = r >>= g := by
  unfold Talk.andThen
  have h := hp c
  cases hr : p c with
  | mk r' c' =>
    rw [hr] at h
    obtain rfl : r' = r := h
    cases r' with
    | error e => rfl
    | ok a => exact hf a c'

theorem attempt_fst {p : Dialogue α} {r : Except ProtocolError α} (hp : ∀ c, (p c).1 = r) (c : Clock Message) :
    (attempt p c).1 = .ok r := congrArg Except.ok (hp c)

theorem receive_fst (config : ProbeInitializerConfig) (arrival : Inbound ProtocolError α) (c : Clock Message) :
    (receive config arrival c).1 =
      dequeueWithTimeout config.probeTimeout (incoming config.probeTimeout.asNanos arrival) := by
  cases arrival with
  | never => rfl
  | after delay outcome =>
    simp only [receive,await,Inbound.outcome,incoming]
    split
    · cases outcome <;> rfl
    · rfl

theorem send_fst (m : Message) (d : Delivery ProtocolError) (c : Clock Message) : (send m d c).1 = sent d := by
  unfold send sent
  cases d.failure <;> rfl

theorem giveUp_fst (addressSet : Finset PeerAddress) (err : ProtocolError) (c : Clock Message) :
    (giveUp addressSet err c).1 = if addressSet = ∅ then .error err else .ok addressSet := by
  unfold giveUp
  split <;> rfl

theorem extend_fst (addressSet : Finset PeerAddress) (batch : List PeerAddress) (c : Clock Message) :
    (extend addressSet batch c).1 =
      if maxAddressesReceive < (addressSet ∪ batch.toFinset).card then
        .error (tooMany (addressSet ∪ batch.toFinset).card)
      else .ok (addressSet ∪ batch.toFinset) := by
  unfold extend
  split <;> rfl

def settle (addressSet : Finset PeerAddress)
    (next : Finset PeerAddress → Except ProtocolError (Finset PeerAddress)) :
    Round → Except ProtocolError (Finset PeerAddress)
  | .enqueueFailed err => if addressSet = ∅ then .error err else .ok addressSet
  | .receiveFailed err => if addressSet = ∅ then .error err else .ok addressSet
  | .malformed err => .error err
  | .received batch =>
      if maxAddressesReceive < (addressSet ∪ batch.toFinset).card then
        .error (tooMany (addressSet ∪ batch.toFinset).card)
      else next (addressSet ∪ batch.toFinset)

theorem collectRounds_succ (rounds : Nat → Round) (remaining round : Nat) (addressSet : Finset PeerAddress) :
    collectRounds rounds (remaining + 1) round addressSet =
      settle addressSet (collectRounds rounds remaining (round + 1)) (rounds round) := by
  rw [collectRounds]
  cases rounds round <;> rfl

section settled
variable {addressSet : Finset PeerAddress} {next : Finset PeerAddress → Dialogue (Finset PeerAddress)}
  {pure : Finset PeerAddress → Except ProtocolError (Finset PeerAddress)}

theorem afterReply_fst (hnext : ∀ set c, (next set c).1 = pure set)
    (reply : Except ProtocolError (Except ProtocolError (List PeerAddress))) (c : Clock Message) :
    (afterReply addressSet next reply c).1 = settle addressSet pure (replied reply) := by
  rcases reply with err | err | batch
  · exact giveUp_fst addressSet err c
  · rfl
  · rw [afterReply,andThen_fst (extend_fst addressSet batch) hnext,replied,settle]
    split <;> rfl

theorem afterRequest_fst (hnext : ∀ set c, (next set c).1 = pure set) (round : Nat) (c : Clock Message) :
    (afterRequest config script round addressSet next (sent (script.requestSent round)) c).1 =
      settle addressSet pure (roundOf config script round) := by
  unfold sent roundOf
  cases (script.requestSent round).failure with
  | some err => exact giveUp_fst addressSet err c
  | none => exact andThen_fst (attempt_fst (receive_fst config _)) (afterReply_fst hnext) c

end settled

theorem collectDialogue_fst (config : ProbeInitializerConfig) (script : Script) (remaining round : Nat)
    (addressSet : Finset PeerAddress) (c : Clock Message) :
    (collectDialogue config script remaining round addressSet c).1 =
      collectRounds (roundOf config script) remaining round addressSet := by
  induction remaining generalizing round addressSet c with
  | zero => rfl
  | succ remaining ih =>
    rw [collectRounds_succ,← afterRequest_fst (ih (round + 1)) round
      (((attempt (send .requestAddresses (script.requestSent round))) (c.later (repeatDelay round) 0 [])).2)]
    rw [← send_fst .requestAddresses (script.requestSent round) (c.later (repeatDelay round) 0 [])]
    rfl

theorem checkNetwork_fst (config : ProbeInitializerConfig) (peer : PeerVersion) (c : Clock Message) :
    (checkNetwork config peer c).1 =
      if peer.network ≠ config.network then .error (.wrongNetwork config.network peer.network) else .ok () := by
  unfold checkNetwork
  split <;> rfl

def exchanged (t : Transcript) (timeout : Duration) : Except ProtocolError Unit := do
  t.versionSent
  dequeueWithTimeout timeout t.verack
  t.verackSent
  t.readySent
  dequeueWithTimeout timeout t.ready
  dequeueWithTimeout timeout t.requestAddresses
  t.addressesSent

theorem exchange_fst (peer : PeerVersion) (c : Clock Message) :
    (exchange config script peer c).1 = exchanged (transcript config script) config.probeTimeout :=
  andThen_fst (send_fst _ _) (fun _ => andThen_fst (receive_fst config _) (fun _ =>
    andThen_fst (send_fst _ _) (fun _ => andThen_fst (send_fst _ _) (fun _ =>
      andThen_fst (receive_fst config _) (fun _ => andThen_fst (receive_fst config _) (fun _ =>
        send_fst _ _)))))) c

theorem gather_fst (order : HashOrder) (peer : PeerVersion) (c : Clock Message) :
    (gather config script order peer c).1 =
      (collectAddresses order config.probesPerPeer (roundOf config script)).map
        (fun addresses => ⟨peer.message,addresses⟩) := by
  have hend : ∀ found c, ((attempt (send farewell script.rejectSent)).andThen
      (fun _ => done (⟨peer.message,order.toVec found⟩ : ProbeResult)) c).1 =
        .ok ⟨peer.message,order.toVec found⟩ := fun _ _ => rfl
  rw [gather,andThen_fst (collectDialogue_fst config script _ _ _) hend,collectAddresses]
  cases collectRounds (roundOf config script) (rounds config.probesPerPeer) 0 ∅ <;> rfl

theorem doProbe_parts (order : HashOrder) (t : Transcript) (peer : PeerVersion) :
    (exchanged t config.probeTimeout >>= fun _ =>
      (collectAddresses order config.probesPerPeer t.rounds).map
        (fun addresses => ⟨peer.message,addresses⟩)) = (do
        t.versionSent
        dequeueWithTimeout config.probeTimeout t.verack
        t.verackSent
        t.readySent
        dequeueWithTimeout config.probeTimeout t.ready
        dequeueWithTimeout config.probeTimeout t.requestAddresses
        t.addressesSent
        let addresses ← collectAddresses order config.probesPerPeer t.rounds
        return (⟨peer.message,addresses⟩ : ProbeResult)) := by
  have hmap : (collectAddresses order config.probesPerPeer t.rounds).map
      (fun addresses => (⟨peer.message,addresses⟩ : ProbeResult)) =
      (collectAddresses order config.probesPerPeer t.rounds >>= fun addresses =>
        pure ⟨peer.message,addresses⟩) := by
    cases collectAddresses order config.probesPerPeer t.rounds <;> rfl
  simp only [exchanged,bind_assoc,hmap]

theorem doProbeDialogue_fst (order : HashOrder) (c : Clock Message) :
    (doProbeDialogue config script order c).1 = doProbe order config (transcript config script) := by
  refine (andThen_fst (receive_fst config _) (fun peer => andThen_fst (checkNetwork_fst config peer)
    (fun _ => andThen_fst (exchange_fst peer) (fun _ => gather_fst order peer))) c).trans ?_
  refine congrArg (dequeueWithTimeout config.probeTimeout
    (incoming config.probeTimeout.asNanos script.version) >>= ·) (funext (fun peer => ?_))
  split
  · rfl
  · exact doProbe_parts order (transcript config script) peer

def Requests (n : Nat) (said : List Message) : Prop := ∃ k ≤ n, said = List.replicate k .requestAddresses

theorem requests_nil (n : Nat) : Requests n [] := ⟨0,Nat.zero_le _,rfl⟩

theorem spends_giveUp (addressSet : Finset PeerAddress) (err : ProtocolError) :
    Spends (giveUp addressSet err) 0 (fun _ said => said = []) := by
  unfold giveUp
  split
  · exact (spends_fail err).weaken (Nat.le_refl _) (fun _ _ h => h.2)
  · exact (spends_done addressSet).weaken (Nat.le_refl _) (fun _ _ h => h.2)

theorem spends_extend (addressSet : Finset PeerAddress) (batch : List PeerAddress) :
    Spends (extend addressSet batch) 0 (fun _ said => said = []) := by
  unfold extend
  split
  · exact (spends_fail _).weaken (Nat.le_refl _) (fun _ _ h => h.2)
  · exact (spends_done _).weaken (Nat.le_refl _) (fun _ _ h => h.2)

section budget
variable {addressSet : Finset PeerAddress} {next : Finset PeerAddress → Dialogue (Finset PeerAddress)}
  {b n : Nat}

theorem spends_afterReply (hnext : ∀ set, Spends (next set) b (fun _ said => Requests n said))
    (reply : Except ProtocolError (Except ProtocolError (List PeerAddress))) :
    Spends (afterReply addressSet next reply) b (fun _ said => Requests n said) := by
  rcases reply with err | err | batch
  · exact (spends_giveUp addressSet err).weaken (Nat.zero_le _) (fun _ _ h => h ▸ requests_nil n)
  · exact (spends_fail err).weaken (Nat.zero_le _) (fun _ _ h => h.2 ▸ requests_nil n)
  · refine ((spends_extend addressSet batch).andThen hnext (fun _ _ h => ?_)
      (fun _ said _ said' h h' => ?_)).weaken (Nat.zero_add _).le (fun _ _ h => h)
    · rw [h]
      exact requests_nil n
    · rw [h]
      exact h'

theorem spends_afterRequest (hnext : ∀ set, Spends (next set) b (fun _ said => Requests n said)) (round : Nat)
    (request : Except ProtocolError Unit) :
    Spends (afterRequest config script round addressSet next request) (config.probeTimeout.asNanos + b)
      (fun _ said => Requests n said) := by
  cases request with
  | error err => exact (spends_giveUp addressSet err).weaken (Nat.zero_le _) (fun _ _ h => h ▸ requests_nil n)
  | ok _ =>
    refine (spends_await _ _ _).attempt.andThen (spends_afterReply hnext) (fun _ _ h => ?_)
      (fun _ said _ said' h h' => ?_)
    · obtain ⟨x,hx,_⟩ := h
      cases hx
    · obtain ⟨x,_,_,rfl⟩ := h
      exact h'

end budget

def collectBudget (timeout : Nat) : Nat → Nat → Nat
  | 0,_ => 0
  | n + 1,round => repeatDelay round + (timeout + collectBudget timeout n (round + 1))

theorem spends_collect (n round : Nat) (addressSet : Finset PeerAddress) :
    Spends (collectDialogue config script n round addressSet)
      (collectBudget config.probeTimeout.asNanos n round) (fun _ said => Requests n said) := by
  induction n generalizing round addressSet with
  | zero => exact (spends_done addressSet).weaken (Nat.le_refl _) (fun _ _ h => h.2 ▸ requests_nil 0)
  | succ n ih =>
    refine (spends_pause (repeatDelay round)).andThen (fun _ => ?_) (fun _ _ h => by cases h.1)
      (fun _ said _ said' h h' => by rw [h.2]; exact h')
    have hsend := (spends_send Message.requestAddresses (script.requestSent round)).attempt
    refine (hsend.andThen (spends_afterRequest (ih (round + 1)) round) (fun _ _ h => ?_)
      (fun x said r said' h h' => ?_)).weaken (Nat.zero_add _).le (fun _ _ h => h)
    · obtain ⟨x,hx,_⟩ := h
      cases hx
    · obtain ⟨k,hk,rfl⟩ := h'
      obtain ⟨_,_,⟨_,_,rfl⟩ | ⟨_,_,_,rfl⟩⟩ := h
      · exact ⟨k + 1,Nat.succ_le_succ hk,(List.replicate_succ ..).symm⟩
      · exact ⟨k,Nat.le_succ_of_le hk,rfl⟩

theorem collectBudget_later (timeout n round : Nat) :
    collectBudget timeout n (round + 1) = n * (probeRepeatDelay.asNanos + timeout) := by
  induction n generalizing round with
  | zero => rw [Nat.zero_mul]; rfl
  | succ n ih =>
    rw [collectBudget,ih,repeatDelay,if_pos (Nat.succ_pos round),Nat.succ_mul]
    omega

theorem collectBudget_first (timeout : Nat) {n : Nat} (h : 0 < n) :
    collectBudget timeout n 0 + probeRepeatDelay.asNanos = n * (probeRepeatDelay.asNanos + timeout) := by
  obtain ⟨k,rfl⟩ := Nat.exists_eq_add_one.mpr h
  rw [collectBudget,collectBudget_later,repeatDelay,if_neg (Nat.lt_irrefl 0),Nat.succ_mul]
  omega

def opening (version : OurVersion) : List Message := [.version version,.verack,.ready,.addresses []]

structure Spoken (config : ProbeInitializerConfig) (script : Script) (peer : PeerVersion) (k : Nat)
    (r : Except ProtocolError ProbeResult) (said : List Message) : Prop where
  heard : dequeueWithTimeout config.probeTimeout (transcript config script).version = .ok peer
  network : peer.network = config.network
  rounds : k ≤ rounds config.probesPerPeer
  spoken : said <+: opening (ourVersion config script peer) ++
    (List.replicate k .requestAddresses ++ [farewell])
  complete : ∀ result, r = .ok result →
    opening (ourVersion config script peer) ++ List.replicate k .requestAddresses <+: said

theorem scripted_receive (config : ProbeInitializerConfig) (arrival : Inbound ProtocolError α) :
    Scripted (receive config arrival) config.probeTimeout.asNanos [] := scripted_await _ _ arrival

theorem scripted_exchange (peer : PeerVersion) :
    Scripted (exchange config script peer) (3 * config.probeTimeout.asNanos)
      (opening (ourVersion config script peer)) := by
  have h := (scripted_send (.version (ourVersion config script peer)) script.versionSent).andThen (fun _ =>
    (scripted_receive config script.verack).andThen (fun _ =>
      (scripted_send Message.verack script.verackSent).andThen (fun _ =>
        (scripted_send Message.ready script.readySent).andThen (fun _ =>
          (scripted_receive config script.ready).andThen (fun _ =>
            (scripted_receive config script.requestAddresses).andThen (fun _ =>
              scripted_send (Message.addresses []) script.addressesSent))))))
  exact h.weaken (by omega) (fun _ _ hs => hs)

def Gathered (config : ProbeInitializerConfig) (r : Except ProtocolError ProbeResult)
    (said : List Message) : Prop :=
  ∃ k ≤ rounds config.probesPerPeer, said <+: List.replicate k .requestAddresses ++ [farewell] ∧
    ∀ result, r = .ok result → List.replicate k .requestAddresses <+: said

theorem spends_gather (order : HashOrder) (peer : PeerVersion) :
    Spends (gather config script order peer)
      (collectBudget config.probeTimeout.asNanos (rounds config.probesPerPeer) 0) (Gathered config) := by
  have hend : ∀ found, Spends ((attempt (send farewell script.rejectSent)).andThen
      (fun _ => done (⟨peer.message,order.toVec found⟩ : ProbeResult))) 0
      (fun _ said => said <+: [farewell]) := by
    intro found
    refine (spends_send farewell script.rejectSent).attempt.andThen (fun _ => spends_done _) (fun _ _ h => ?_)
      (fun _ said _ said' h h' => ?_)
    · obtain ⟨x,hx,_⟩ := h
      cases hx
    · obtain ⟨_,_,⟨_,_,rfl⟩ | ⟨_,_,_,rfl⟩⟩ := h
      · rw [h'.2,List.append_nil]
      · rw [h'.2]
        exact List.nil_prefix
  refine (spends_collect (rounds config.probesPerPeer) 0 ∅).andThen hend (fun e said h => ?_)
    (fun found said r said' h h' => ?_)
  · obtain ⟨k,hk,rfl⟩ := h
    exact ⟨k,hk,List.prefix_append _ _,fun _ hr => by cases hr⟩
  · obtain ⟨k,hk,rfl⟩ := h
    exact ⟨k,hk,(List.prefix_append_right_inj _).mpr h',fun _ _ => List.prefix_append _ _⟩

theorem spends_checkNetwork (peer : PeerVersion) : Spends (checkNetwork config peer) 0
    (fun r said => said = [] ∧ ∀ a, r = .ok a → peer.network = config.network) := by
  unfold checkNetwork
  split
  · refine (spends_fail _).weaken (Nat.le_refl _) (fun r said h => ⟨h.2,fun a ha => ?_⟩)
    rw [h.1] at ha
    cases ha
  · next hsame =>
    exact (spends_done _).weaken (Nat.le_refl _) (fun r said h => ⟨h.2,fun _ _ => not_not.mp hsame⟩)

theorem spends_exchanged (order : HashOrder) (peer : PeerVersion) :
    Spends ((exchange config script peer).andThen (fun _ => gather config script order peer))
      (3 * config.probeTimeout.asNanos +
        collectBudget config.probeTimeout.asNanos (rounds config.probesPerPeer) 0)
      (fun r said => dequeueWithTimeout config.probeTimeout (transcript config script).version = .ok peer →
        peer.network = config.network → ∃ k, Spoken config script peer k r said) := by
  refine Spends.andThen (scripted_exchange peer) (fun _ => spends_gather order peer)
    (fun e said h hheard hsame => ?_) (fun _ said r said' h h' hheard hsame => ?_)
  · exact ⟨0,hheard,hsame,Nat.zero_le _,h.1.trans (List.prefix_append _ _),fun _ hr => by cases hr⟩
  · obtain rfl := h.2 _ rfl
    obtain ⟨k,hk,hsaid,hcomplete⟩ := h'
    exact ⟨k,hheard,hsame,hk,(List.prefix_append_right_inj _).mpr hsaid,
      fun result hr => (List.prefix_append_right_inj _).mpr (hcomplete result hr)⟩

def Conversed (config : ProbeInitializerConfig) (script : Script) (r : Except ProtocolError ProbeResult)
    (said : List Message) : Prop :=
  (said = [] ∧ ∃ e, r = .error e) ∨ ∃ peer k, Spoken config script peer k r said

theorem spends_checked (order : HashOrder) (peer : PeerVersion) :
    Spends ((checkNetwork config peer).andThen (fun _ =>
      (exchange config script peer).andThen (fun _ => gather config script order peer)))
      (3 * config.probeTimeout.asNanos +
        collectBudget config.probeTimeout.asNanos (rounds config.probesPerPeer) 0)
      (fun r said => dequeueWithTimeout config.probeTimeout (transcript config script).version = .ok peer →
        Conversed config script r said) := by
  refine ((spends_checkNetwork peer).andThen (fun _ => spends_exchanged order peer)
    (fun e said h _ => Or.inl ⟨h.1,e,rfl⟩) (fun _ said r said' h h' hheard => ?_)).weaken
    (Nat.zero_add _).le (fun _ _ h => h)
  obtain ⟨k,hk⟩ := h' hheard (h.2 _ rfl)
  rw [h.1]
  exact Or.inr ⟨peer,k,hk⟩

theorem spends_doProbe (config : ProbeInitializerConfig) (script : Script) (order : HashOrder) :
    Spends (doProbeDialogue config script order)
      (4 * config.probeTimeout.asNanos +
        collectBudget config.probeTimeout.asNanos (rounds config.probesPerPeer) 0)
      (Conversed config script) := by
  refine ((spends_await _ _ script.version).andThen (spends_checked order) (fun e said h => Or.inl ⟨h.2,e,rfl⟩)
    (fun peer said r said' h h' => ?_)).weaken (by omega) (fun _ _ h => h)
  rw [h.2]
  exact h' ((receive_fst config script.version .zero).symm.trans h.1.symm)

theorem rounds_pos (n : UInt8) : 0 < rounds n := Nat.lt_of_lt_of_le Nat.zero_lt_one (Nat.le_max_right _ _)

theorem budget_within (config : ProbeInitializerConfig) :
    4 * config.probeTimeout.asNanos +
      collectBudget config.probeTimeout.asNanos (rounds config.probesPerPeer) 0 +
      probeRepeatDelay.asNanos + lifetimeSlack.asNanos = lifetimeNanos config := by
  have h := collectBudget_first config.probeTimeout.asNanos (rounds_pos config.probesPerPeer)
  rw [lifetimeNanos]
  rw [Nat.mul_add] at h
  rw [Nat.mul_add,Nat.mul_comm _ (rounds config.probesPerPeer),Nat.mul_comm probeRepeatDelay.asNanos,
    Nat.mul_comm _ 4]
  omega

theorem asNanos_lifetime {life : Duration} (h : config.maxConnectionLifetime = some life) :
    life.asNanos = lifetimeNanos config := by
  have hfit := (maxConnectionLifetime_isSome_iff config).mp (by rw [h]; rfl)
  obtain ⟨d,hd,hnanos⟩ := Duration.ofNanos_fits hfit
  rw [maxConnectionLifetime_eq,hd] at h
  exact Option.some.inj h ▸ hnanos

theorem handshake_within_lifetime (order : HashOrder) (config : ProbeInitializerConfig) (life : Duration)
    (hlife : config.maxConnectionLifetime = some life) (script : Script) :
    ∃ r clock, doProbeDialogue config script order .zero = (r,clock) ∧
      r = doProbe order config (transcript config script) ∧
      clock.elapsed + probeRepeatDelay.asNanos + lifetimeSlack.asNanos ≤ life.asNanos + clock.overhead ∧
      ((clock.sent = [] ∧ ∃ e, r = .error e) ∨ ∃ peer k, Spoken config script peer k r clock.sent) := by
  obtain ⟨spent,lost,said,hc,hle,hpost⟩ := spends_doProbe config script order .zero
  refine ⟨(doProbeDialogue config script order .zero).1,(doProbeDialogue config script order .zero).2,rfl,
    doProbeDialogue_fst order .zero,?_,?_⟩
  · rw [hc,asNanos_lifetime hlife,← budget_within]
    simp only [Clock.later,Clock.zero]
    omega
  · rw [hc]
    exact hpost

def slowPeer : Script where
  version := .after 3999999999 (.ok ⟨"kaspa-mainnet",⟨[1],7,0,⟨"/kaspad:0.17.1/",by decide⟩,none⟩⟩)
  services := 0
  timestamp := 0
  uuid := []
  versionSent := ⟨5,none⟩
  verack := .after 3999999999 (.ok ())
  verackSent := ⟨5,none⟩
  readySent := ⟨5,none⟩
  ready := .after 3999999999 (.ok ())
  requestAddresses := .after 3999999999 (.ok ())
  addressesSent := ⟨5,none⟩
  requestSent := fun _ => ⟨5,none⟩
  addresses := fun _ => .after 3999999999 (.ok (.ok [gossip 0x08080808]))
  rejectSent := ⟨5,none⟩

theorem handshake_within_lifetime_slow : ∃ r clock,
    doProbeDialogue KaspadProbe.mainnet slowPeer sortedOrder .zero = (r,clock) ∧
    clock.elapsed = 28500000033 ∧ clock.overhead = 40 ∧ clock.sent.length = 8 ∧
    clock.elapsed + probeRepeatDelay.asNanos + lifetimeSlack.asNanos ≤ 43750000000 + clock.overhead := by
  have hlife : KaspadProbe.mainnet.maxConnectionLifetime = some ⟨43,750000000,by decide⟩ := by decide
  obtain ⟨r,clock,h,_,hle,_⟩ := handshake_within_lifetime sortedOrder KaspadProbe.mainnet _ hlife slowPeer
  have hclock : (doProbeDialogue KaspadProbe.mainnet slowPeer sortedOrder .zero).2 = clock := by rw [h]
  refine ⟨r,clock,h,?_,?_,?_,hle⟩
  · rw [← hclock]
    decide
  · rw [← hclock]
    decide
  · rw [← hclock]
    decide

end ProbeInitializer

end DnsSeeder
