import DnsSeeder.Net

namespace DnsSeeder

inductive IoErrorKind where
  | addrNotAvailable
  | unsupported
  | other (code : Nat)
deriving DecidableEq

namespace SocketAddr

def isIpv4 (addr : SocketAddr) : Bool :=
  match addr.ip with
  | .v4 _ => true
  | .v6 _ => false

def isIpv6 (addr : SocketAddr) : Bool :=
  match addr.ip with
  | .v4 _ => false
  | .v6 _ => true

end SocketAddr

namespace Listen

structure Listener where
  addr : SocketAddr
  v6Only : Bool
deriving DecidableEq

abbrev Call := SocketAddr × Except IoErrorKind Unit

def isSoftBindFailure : IoErrorKind → Bool
  | .addrNotAvailable => true
  | .unsupported => true
  | .other _ => false

def needsV6Only (addr : SocketAddr) (listen : List SocketAddr) : Bool :=
  addr.isIpv6 && listen.any (fun other => other.isIpv4 && other.port == addr.port)

inductive Startup where
  | panicked
  | failed (err : IoErrorKind)
  | serving (bound : List Listener)

def bindPairs (listen : List SocketAddr) :
    List Call → List Listener → Option IoErrorKind → Except IoErrorKind (List Listener × Option IoErrorKind)
  | [],bound,lastErr => .ok (bound,lastErr)
  | (addr,.ok ()) :: calls,bound,lastErr =>
      bindPairs listen calls (bound ++ [⟨addr,needsV6Only addr listen⟩]) lastErr
  | (_,.error err) :: calls,bound,_ =>
      if isSoftBindFailure err then bindPairs listen calls bound (some err) else .error err

def runDnsServerWithHandler (calls : List Call) : Startup :=
  if calls.isEmpty then .panicked
  else
    match bindPairs (calls.map Prod.fst) calls [] none with
    | .error err => .failed err
    | .ok ([],some err) => .failed err
    | .ok ([],none) => .panicked
    | .ok (bound,_) => .serving bound

inductive WebError where
  | noListenAddrs
  | tls
  | bind (addr : SocketAddr) (err : IoErrorKind)
  | io (err : IoErrorKind)

def bindListeners : List Call → Except WebError (List Listener)
  | [] => .ok []
  | (addr,.error err) :: _ => .error (.bind addr err)
  | (addr,.ok ()) :: calls => (bindListeners calls).map (⟨addr,addr.isIpv6⟩ :: ·)

-- The join error of a panicked server task is left out: with `panic = "abort"` nothing is left to join it.
inductive Joined where
  | finished
  | failed (err : IoErrorKind)

def joinServers : List Joined → Option IoErrorKind → Bool → Option IoErrorKind × Bool
  | [],firstError,stopping => (firstError,stopping)
  | .finished :: joined,firstError,stopping => joinServers joined firstError stopping
  | .failed err :: joined,firstError,_ => joinServers joined (firstError.or (some err)) true

def runWebServer (tlsLoaded : Option Bool) (calls : List Call) (joined : List Joined) : Except WebError Unit :=
  if calls.isEmpty then .error .noListenAddrs
  else if tlsLoaded = some false then .error .tls
  else
    match bindListeners calls with
    | .error err => .error err
    | .ok _ =>
        match (joinServers joined none false).1 with
        | some err => .error (.io err)
        | none => .ok ()

-- What the kernel delivers to a bound socket; `takes l ipv4 port` is about traffic of one family to one port.
structure DualStack (takes : Listener → Bool → UInt16 → Prop) : Prop where
  port {l ipv4 port} : takes l ipv4 port → l.addr.port = port
  ipv4Only {l ipv4 port} : l.addr.isIpv4 = true → takes l ipv4 port → ipv4 = true
  ipv6Only {l port} : l.addr.isIpv6 = true → l.v6Only = true → ¬ takes l true port
  mapped {l} : l.addr.ip = .v6 0 → l.v6Only = false → takes l true l.addr.port

def Tolerated : Call → Prop
  | (_,.ok ()) => True
  | (_,.error err) => isSoftBindFailure err = true

def served (listen : List SocketAddr) : Call → Option Listener
  | (addr,.ok ()) => some ⟨addr,needsV6Only addr listen⟩
  | (_,.error _) => none

def failure : Call → Option IoErrorKind
  | (_,.ok ()) => none
  | (_,.error err) => some err

variable {listen : List SocketAddr} {calls pre post : List Call} {addr : SocketAddr} {err : IoErrorKind}

theorem bindPairs_tolerated (h : ∀ c ∈ calls, Tolerated c) (bound : List Listener)
    (lastErr : Option IoErrorKind) :
    bindPairs listen calls bound lastErr =
      .ok (bound ++ calls.filterMap (served listen),(calls.filterMap failure).getLast?.or lastErr) := by
  induction calls generalizing bound lastErr with
  | nil => simp [bindPairs]
  | cons c calls ih =>
    have hrest := ih (fun c hc => h c (List.mem_cons_of_mem _ hc))
    match c,h c List.mem_cons_self with
    | (addr,.ok ()),_ =>
      rw [bindPairs,hrest]
      simp [served,failure]
    | (addr,.error err),hsoft =>
      rw [bindPairs,if_pos (show isSoftBindFailure err = true from hsoft),hrest]
      have hnone : calls.filterMap (served listen) =
        ((addr,.error err) :: calls).filterMap (served listen) := rfl
      rw [hnone]
      cases hlast : (calls.filterMap failure).getLast? <;> simp [failure,List.getLast?_cons,hlast]

theorem bindPairs_hard (hpre : ∀ c ∈ pre, Tolerated c) (herr : isSoftBindFailure err = false)
    (bound : List Listener) (lastErr : Option IoErrorKind) :
    bindPairs listen (pre ++ (addr,.error err) :: post) bound lastErr = .error err := by
  induction pre generalizing bound lastErr with
  | nil => simp [bindPairs,herr]
  | cons c pre ih =>
    have hrest := ih (fun c hc => hpre c (List.mem_cons_of_mem _ hc))
    match c,hpre c List.mem_cons_self with
    | (addr,.ok ()),_ => rw [List.cons_append,bindPairs,hrest]
    | (addr,.error err),hsoft =>
      rw [List.cons_append,bindPairs,if_pos (show isSoftBindFailure err = true from hsoft),hrest]

theorem mem_served {l : Listener} (h : l ∈ calls.filterMap (served listen)) :
    (l.addr,.ok ()) ∈ calls ∧ l.v6Only = needsV6Only l.addr listen := by
  obtain ⟨c,hc,hl⟩ := List.mem_filterMap.mp h
  match c,hc,hl with
  | (addr,.ok ()),hc,hl =>
    obtain rfl := Option.some.inj hl
    exact ⟨hc,rfl⟩

theorem bindListeners_ok (h : ∀ c ∈ calls, c.2 = .ok ()) :
    bindListeners calls = .ok (calls.map (fun c => ⟨c.1,c.1.isIpv6⟩)) := by
  induction calls with
  | nil => rfl
  | cons c calls ih =>
    match c,h c List.mem_cons_self with
    | (addr,.ok ()),_ =>
      rw [bindListeners,ih (fun c hc => h c (List.mem_cons_of_mem _ hc))]
      rfl

theorem bindListeners_failed (hpre : ∀ c ∈ pre, c.2 = .ok ()) :
    bindListeners (pre ++ (addr,.error err) :: post) = .error (.bind addr err) := by
  induction pre with
  | nil => rfl
  | cons c pre ih =>
    match c,hpre c List.mem_cons_self with
    | (addr,.ok ()),_ =>
      rw [List.cons_append,bindListeners,ih (fun c hc => hpre c (List.mem_cons_of_mem _ hc))]
      rfl

theorem all_ok_of_bindListeners {bound : List Listener} (h : bindListeners calls = .ok bound) :
    ∀ c ∈ calls, c.2 = .ok () := by
  induction calls generalizing bound with
  | nil => simp
  | cons c calls ih =>
    match c,h with
    | (addr,.ok ()),h =>
      rw [bindListeners] at h
      cases hrest : bindListeners calls with
      | error err =>
        rw [hrest] at h
        cases h
      | ok rest => exact List.forall_mem_cons.mpr ⟨rfl,ih hrest⟩

def Joined.failure : Joined → Option IoErrorKind
  | .failed err => some err
  | _ => none

theorem joinServers_first (joined : List Joined) (firstError : Option IoErrorKind) (stopping : Bool) :
    (joinServers joined firstError stopping).1 = firstError.or (joined.findSome? Joined.failure) := by
  induction joined generalizing firstError stopping with
  | nil => simp [joinServers]
  | cons j joined ih =>
    cases j with
    | finished => exact ih firstError stopping
    | failed err =>
      rw [joinServers,ih]
      cases firstError <;> rfl

theorem v6Only_beside_v4 {l : Listener} {other : SocketAddr} (hl : l.v6Only = needsV6Only l.addr listen)
    (hv6 : l.addr.isIpv6 = true) (hother : other ∈ listen) (hv4 : other.isIpv4 = true)
    (hport : other.port = l.addr.port) : l.v6Only = true := by
  rw [hl,needsV6Only,hv6,Bool.true_and,List.any_eq_true]
  exact ⟨other,hother,by simp [hv4,hport]⟩

section kernel
variable {takes : Listener → Bool → UInt16 → Prop} (hkernel : DualStack takes)
include hkernel

theorem listeners_disjoint {l l' : Listener} (hl : l ∈ calls.filterMap (served (calls.map Prod.fst)))
    (hl' : l' ∈ calls.filterMap (served (calls.map Prod.fst))) (hv4 : l.addr.isIpv4 = true)
    (hv6 : l'.addr.isIpv6 = true) (ipv4 : Bool) (port : UInt16) :
    ¬ (takes l ipv4 port ∧ takes l' ipv4 port) := by
  rintro ⟨h,h'⟩
  obtain rfl := hkernel.ipv4Only hv4 h
  have hmem : l.addr ∈ calls.map Prod.fst := List.mem_map_of_mem (mem_served hl).1
  have hport : l.addr.port = l'.addr.port := (hkernel.port h).trans (hkernel.port h').symm
  exact hkernel.ipv6Only hv6 (v6Only_beside_v4 (mem_served hl').2 hv6 hmem hv4 hport) h'

theorem wildcard_covers_v4 {l : Listener} (hl : l ∈ calls.filterMap (served (calls.map Prod.fst)))
    (hip : l.addr.ip = .v6 0) (halone : ∀ c ∈ calls, c.1.isIpv4 = true → c.1.port ≠ l.addr.port) :
    takes l true l.addr.port := by
  have honly : l.v6Only = false := by
    rw [(mem_served hl).2,needsV6Only,Bool.and_eq_false_iff]
    right
    rw [List.any_eq_false]
    intro other hother
    obtain ⟨c,hc,rfl⟩ := List.mem_map.mp hother
    simpa using halone c hc
  exact hkernel.mapped hip honly

end kernel

theorem served_addrs (calls : List Call) (listen : List SocketAddr) :
    (calls.filterMap (served listen)).map Listener.addr = (calls.filter (fun c => c.2.isOk)).map Prod.fst := by
  induction calls with
  | nil => rfl
  | cons c calls ih =>
    match c with
    | (addr,.ok ()) => exact congrArg (addr :: ·) ih
    | (addr,.error err) => exact ih

theorem dns_refused (hpre : ∀ c ∈ pre, Tolerated c) (herr : isSoftBindFailure err = false) :
    runDnsServerWithHandler (pre ++ (addr,.error err) :: post) = .failed err := by
  rw [runDnsServerWithHandler,if_neg (by simp),bindPairs_hard hpre herr]

theorem dns_unserved (hne : calls ≠ []) (htolerated : ∀ c ∈ calls, Tolerated c)
    (hnone : ∀ c ∈ calls, c.2 ≠ .ok ()) :
    ∃ addr err, calls.getLast? = some (addr,.error err) ∧ runDnsServerWithHandler calls = .failed err := by
  have hbound : calls.filterMap (served (calls.map Prod.fst)) = [] := by
    refine List.eq_nil_iff_forall_not_mem.mpr (fun l hl => ?_)
    exact hnone _ (mem_served hl).1 rfl
  obtain ⟨init,⟨addr,outcome⟩,rfl⟩ := (List.eq_nil_or_concat' calls).resolve_left hne
  cases outcome with
  | ok u => exact absurd rfl (hnone (addr,.ok u) (by simp))
  | error err =>
    refine ⟨addr,err,List.getLast?_concat,?_⟩
    rw [runDnsServerWithHandler,if_neg (by simp),bindPairs_tolerated htolerated,hbound]
    simp [failure]

theorem dns_serving (htolerated : ∀ c ∈ calls, Tolerated c) (hbound : ∃ c ∈ calls, c.2 = .ok ()) :
    runDnsServerWithHandler calls = .serving (calls.filterMap (served (calls.map Prod.fst))) := by
  obtain ⟨⟨addr,outcome⟩,hmem,rfl⟩ := hbound
  have hserved : ⟨addr,needsV6Only addr (calls.map Prod.fst)⟩ ∈ calls.filterMap (served (calls.map Prod.fst)) :=
    List.mem_filterMap.mpr ⟨_,hmem,rfl⟩
  have hopen : ¬ calls.isEmpty = true := by
    rw [List.isEmpty_iff]
    exact List.ne_nil_of_mem hmem
  rw [runDnsServerWithHandler,if_neg hopen,bindPairs_tolerated htolerated,List.nil_append]
  cases hcons : calls.filterMap (served (calls.map Prod.fst)) with
  | nil =>
    rw [hcons] at hserved
    cases hserved
  | cons l bound => rfl

theorem runWebServer_ok_iff (hne : calls ≠ []) (tlsLoaded : Option Bool) (joined : List Joined) :
    runWebServer tlsLoaded calls joined = .ok () ↔
      tlsLoaded ≠ some false ∧ (∀ c ∈ calls, c.2 = .ok ()) ∧ ∀ err, .failed err ∉ joined := by
  have hfirst := joinServers_first joined none false
  constructor
  · intro h
    unfold runWebServer at h
    split at h
    · cases h
    · split at h
      · cases h
      · next htls =>
        split at h
        · cases h
        · next bound hbound =>
          split at h
          · cases h
          · next hnone =>
            refine ⟨htls,all_ok_of_bindListeners hbound,fun err hmem => ?_⟩
            rw [hfirst,Option.none_or,List.findSome?_eq_none_iff] at hnone
            cases hnone _ hmem
  · rintro ⟨htls,hok,hjoined⟩
    have hnone : joined.findSome? Joined.failure = none := by
      refine List.findSome?_eq_none_iff.mpr (fun j hj => ?_)
      cases j with
      | failed err => exact absurd hj (hjoined err)
      | _ => rfl
    rw [hnone] at hfirst
    simp [runWebServer,hne,htls,bindListeners_ok hok,hfirst]

theorem listeners_started (takes : Listener → Bool → UInt16 → Prop) (hkernel : DualStack takes)
    (calls : List Call) (hne : calls ≠ []) :
    (∀ pre addr err post, calls = pre ++ (addr,.error err) :: post → isSoftBindFailure err = false →
      (∀ c ∈ pre, Tolerated c) → runDnsServerWithHandler calls = .failed err) ∧
    ((∀ c ∈ calls, Tolerated c) → (∀ c ∈ calls, c.2 ≠ .ok ()) →
      ∃ addr err, calls.getLast? = some (addr,.error err) ∧ runDnsServerWithHandler calls = .failed err) ∧
    ((∀ c ∈ calls, Tolerated c) → (∃ c ∈ calls, c.2 = .ok ()) →
      ∃ bound, runDnsServerWithHandler calls = .serving bound ∧
        bound.map Listener.addr = (calls.filter (fun c => c.2.isOk)).map Prod.fst ∧
        (∀ l ∈ bound, ∀ l' ∈ bound, l.addr.isIpv4 = true → l'.addr.isIpv6 = true → ∀ ipv4 port,
          ¬ (takes l ipv4 port ∧ takes l' ipv4 port)) ∧
        ∀ l ∈ bound, l.addr.ip = .v6 0 → (∀ c ∈ calls, c.1.isIpv4 = true → c.1.port ≠ l.addr.port) →
          takes l true l.addr.port) ∧
    (∀ pre addr err post joined, calls = pre ++ (addr,.error err) :: post → (∀ c ∈ pre, c.2 = .ok ()) →
      runWebServer none calls joined = .error (.bind addr err)) ∧
    ∀ tlsLoaded joined, runWebServer tlsLoaded calls joined = .ok () ↔
      tlsLoaded ≠ some false ∧ (∀ c ∈ calls, c.2 = .ok ()) ∧ ∀ err, .failed err ∉ joined := by
  refine ⟨?_,dns_unserved hne,?_,?_,runWebServer_ok_iff hne⟩
  · rintro pre addr err post rfl herr hpre
    exact dns_refused hpre herr
  · intro htolerated hbound
    exact ⟨_,dns_serving htolerated hbound,served_addrs _ _,fun _ hl _ hl' => listeners_disjoint hkernel hl hl',
      fun _ hl => wildcard_covers_v4 hkernel hl⟩
  · rintro pre addr err post joined rfl hpre
    simp [runWebServer,bindListeners_failed hpre]

def wildcardTakes (l : Listener) (ipv4 : Bool) (port : UInt16) : Prop :=
  l.addr.port = port ∧
    match l.addr.ip with
    | .v4 _ => ipv4 = true
    | .v6 ip => ipv4 = false ∨ l.v6Only = false ∧ ip = 0

theorem dualStack_wildcardTakes : DualStack wildcardTakes where
  port h := h.1
  ipv4Only {l _ _} hv4 h := by
    cases hip : l.addr.ip with
    | v4 ip => simpa [hip] using h.2
    | v6 ip => simp [SocketAddr.isIpv4,hip] at hv4
  ipv6Only {l _} hv6 honly h := by
    cases hip : l.addr.ip with
    | v4 ip => simp [SocketAddr.isIpv6,hip] at hv6
    | v6 ip => simpa [hip,honly] using h.2
  mapped {l} hip honly := by simp [wildcardTakes,hip,honly]

-- The second address is not one of the host's: EADDRNOTAVAIL.
def unassigned : List Call :=
  [(⟨.v4 0,53⟩,.ok ()),(⟨.v6 0x20010db8000000000000000000000001#128,53⟩,.error .addrNotAvailable),
    (⟨.v6 0,5353⟩,.ok ())]

-- On a Linux host without IPv6 the socket call fails with EAFNOSUPPORT, which is no soft kind.
def ipv6Less : List Call := [(⟨.v4 0,53⟩,.ok ()),(⟨.v6 0,53⟩,.error (.other 97))]

theorem listeners_started_unassigned :
    (∃ bound, runDnsServerWithHandler unassigned = .serving bound ∧
      bound.map Listener.addr = [⟨.v4 0,53⟩,⟨.v6 0,5353⟩] ∧
      ∀ l ∈ bound, l.addr.ip = .v6 0 → wildcardTakes l true 5353) ∧
    (∀ joined, runWebServer none unassigned joined =
      .error (.bind ⟨.v6 0x20010db8000000000000000000000001#128,53⟩ .addrNotAvailable)) ∧
    runDnsServerWithHandler ipv6Less = .failed (.other 97) := by
  obtain ⟨_,_,hdns,hweb,_⟩ := listeners_started wildcardTakes dualStack_wildcardTakes unassigned
    (by simp [unassigned])
  refine ⟨?_,?_,?_⟩
  · have htolerated : ∀ c ∈ unassigned, Tolerated c := by simp [unassigned,Tolerated,isSoftBindFailure]
    obtain ⟨bound,hbound,haddrs,_,hmapped⟩ := hdns htolerated ⟨_,List.mem_cons_self,rfl⟩
    have hlisted : bound.map Listener.addr = [⟨.v4 0,53⟩,⟨.v6 0,5353⟩] := haddrs
    refine ⟨bound,hbound,hlisted,fun l hl hip => ?_⟩
    have haddr : l.addr = ⟨.v6 0,5353⟩ := by
      have hmem : l.addr ∈ bound.map Listener.addr := List.mem_map_of_mem hl
      rw [hlisted] at hmem
      rcases List.mem_pair.mp hmem with h | h
      · rw [h] at hip
        cases hip
      · exact h
    have htakes := hmapped l hl hip (by simp [haddr,unassigned,SocketAddr.isIpv4])
    rwa [haddr] at htakes
  · intro joined
    exact hweb [(⟨.v4 0,53⟩,.ok ())] _ _ [(⟨.v6 0,5353⟩,.ok ())] joined rfl (by simp)
  · obtain ⟨hrefused,_⟩ := listeners_started wildcardTakes dualStack_wildcardTakes ipv6Less (by simp [ipv6Less])
    exact hrefused [(⟨.v4 0,53⟩,.ok ())] ⟨.v6 0,53⟩ (.other 97) [] rfl rfl (by simp [Tolerated])

end Listen

end DnsSeeder
