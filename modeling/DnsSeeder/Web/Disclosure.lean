import DnsSeeder.Store.Bincode
import DnsSeeder.Web.Listing

namespace DnsSeeder

open Lib

namespace Web

structure PublicFields where
  port : UInt16
  protocolVersion : UInt32
  userAgent : Text
  lastSuccessMs : Int64

def publicFields (rec : PeerRecord) : PublicFields :=
  ⟨rec.address.port,rec.protocolVersion,rec.userAgent,rec.lastSuccessMs⟩

def PublicFields.known (f : PublicFields) : PeerRecord :=
  ⟨⟨.v4 0,f.port⟩,unknownPeerId,f.protocolVersion,f.userAgent,none,0,0,0,0,f.lastSuccessMs⟩

def Stamped (c : Codec) (db : Db) : Prop :=
  ∀ rec ∈ PeerStore.records c db, 0 ≤ rec.lastSeenMs ∧ 0 ≤ rec.lastSuccessMs

def SamePublic (c : Codec) (db db' : Db) : Prop :=
  ((PeerStore.records c db).map publicFields).Perm ((PeerStore.records c db').map publicFields)

structure SameListing (body body' : Body) : Prop where
  perm : body.Perm body'
  order : body.map PeerDto.lastSuccessMs = body'.map PeerDto.lastSuccessMs

variable {v : ListServer} {key : Key} {now : Int64} {db db' : Db} {rec : PeerRecord}

theorem matches_known {config : WebConfig} {all : Bool} {semver : Semver} (hnow : 0 ≤ now)
    (hrec : 0 ≤ rec.lastSeenMs) :
    (listFilter config all now).matchesRecord semver rec =
      (listFilter config all now).matchesRecord semver (publicFields rec).known := by
  have hlive : ∀ stamp : Int64, 0 ≤ stamp → Filter.exceeds now stamp Int64.maxValue = some false := by
    intro stamp hstamp
    obtain ⟨b,hb⟩ := Option.isSome_iff_exists.mp (Filter.exceeds_isSome Int64.maxValue hnow hstamp)
    have hval := Filter.exceeds_eq hb
    have hlt := now.toInt_lt
    have h0 : (0 : Int64).toInt = 0 := rfl
    have hmax : Int64.maxValue.toInt = 2^63 - 1 := rfl
    rw [int64_le_iff,h0] at hstamp
    rw [hb,hval,decide_eq_false (by omega)]
  simp only [Filter.matchesRecord,listFilter,Filter.serving,hlive _ hrec]
  rw [show (publicFields rec).known.lastSeenMs = 0 from rfl,hlive 0 (by decide)]
  rfl

theorem pairwise_freshFirst (records : List PeerRecord) :
    (freshFirst records).Pairwise (fun a b => b.lastSuccessMs ≤ a.lastSuccessMs) :=
  pairwise_sort_descending records

theorem perm_retained {all : Bool} {records records' : List PeerRecord}
    (h : (records.map publicFields).Perm (records'.map publicFields)) :
    ((retained all records).map publicFields).Perm ((retained all records').map publicFields) := by
  cases all with
  | false => exact h
  | true => exact perm_filter_project (q := fun f => f.lastSuccessMs > 0) (fun _ _ => rfl) (fun _ _ => rfl) h

theorem perm_freshFirst {records records' : List PeerRecord}
    (h : (records.map publicFields).Perm (records'.map publicFields)) :
    ((freshFirst records).map publicFields).Perm ((freshFirst records').map publicFields) :=
  ((List.perm_insertionSort _ records).map publicFields).trans
    (h.trans ((List.perm_insertionSort _ records').map publicFields).symm)

def listed (v : ListServer) (all : Bool) (now : Int64) (db : Db) : List PeerRecord :=
  retained all ((PeerStore.records v.codec db).filter
    (fun rec => (listFilter v.config all now).matchesRecord v.semver rec == some true))

theorem collectMatching_stamped {all : Bool} (hnow : 0 ≤ now) (h : Stamped v.codec db) :
    PeerStore.collectMatching v.codec v.semver (listFilter v.config all now) db =
      some ((PeerStore.records v.codec db).filter
        (fun rec => (listFilter v.config all now).matchesRecord v.semver rec == some true)) := by
  refine filterChecked_eq ?_
  intro rec hrec
  exact Filter.matchesRecord_isSome v.semver hnow (h rec hrec).1 (h rec hrec).2

theorem perm_listed (all : Bool) (hnow : 0 ≤ now) (h : Stamped v.codec db) (h' : Stamped v.codec db')
    (hsame : SamePublic v.codec db db') :
    ((listed v all now db).map publicFields).Perm ((listed v all now db').map publicFields) := by
  have hmatch : ∀ db, Stamped v.codec db → ∀ rec ∈ PeerStore.records v.codec db,
      ((listFilter v.config all now).matchesRecord v.semver rec == some true) =
        ((listFilter v.config all now).matchesRecord v.semver (publicFields rec).known == some true) := by
    intro db hdb rec hrec
    rw [matches_known hnow (hdb rec hrec).1]
  have hproj := perm_filter_project (q := fun f : PublicFields =>
    (listFilter v.config all now).matchesRecord v.semver f.known == some true)
    (hmatch db h) (hmatch db' h') hsame
  exact perm_retained hproj

theorem listRecords_uncapped {all : Bool} (hnow : 0 ≤ now) (h : Stamped v.codec db)
    (hcap : (listed v all now db).length ≤ maxListResponse) :
    listRecords v.codec v.semver v.config all now db = some (freshFirst (listed v all now db)) := by
  have hlen : (freshFirst (listed v all now db)).length ≤ maxListResponse := by
    rw [freshFirst,List.length_insertionSort]
    exact hcap
  rw [listRecords,collectMatching_stamped hnow h,Option.map_some,Option.some.injEq]
  exact if_neg (Nat.not_lt.mpr hlen)

def publicBody (v : ListServer) (fields : List PublicFields) : Body :=
  fields.map (fun f => .publicDto (.fromRecord v.semver v.formats f.known))

theorem sameListing_publicBody {records records' : List PeerRecord}
    (h : (records.map publicFields).Perm (records'.map publicFields)) :
    SameListing (publicBody v ((freshFirst records).map publicFields))
      (publicBody v ((freshFirst records').map publicFields)) := by
  have hperm := perm_freshFirst h
  have hsorted : ∀ records : List PeerRecord, ((freshFirst records).map publicFields).Pairwise
      (fun a b => b.lastSuccessMs ≤ a.lastSuccessMs) :=
    fun records => List.pairwise_map.mpr (pairwise_freshFirst records)
  have hkeys := keys_eq_of_perm (fun _ _ => Int64.le_antisymm) hperm (hsorted records) (hsorted records')
  have horder : ∀ fields : List PublicFields, (publicBody v fields).map PeerDto.lastSuccessMs =
      (fields.map PublicFields.lastSuccessMs).map optMs := by
    intro fields
    simp only [publicBody,List.map_map]
    rfl
  exact ⟨hperm.map _,by rw [horder,horder,hkeys]⟩

theorem computeListBody_uncapped (hnow : 0 ≤ now) (h : Stamped v.codec db)
    (hcap : (listed v key.all now db).length ≤ maxListResponse) :
    v.computeListBody key now db = some ((freshFirst (listed v key.all now db)).map
      (fun rec => PeerDto.fromRecord v.semver v.formats rec key.expose)) := by
  rw [ListServer.computeListBody,listRecords_uncapped hnow h hcap,Option.map_some]

def BodyAlike (key : Key) (body body' : Body) : Prop := key.expose = false → SameListing body body'

theorem computeListBody_alike (hnow : 0 ≤ now) (h : Stamped v.codec db) (h' : Stamped v.codec db')
    (hsame : SamePublic v.codec db db') (hcap : (listed v key.all now db).length ≤ maxListResponse) :
    ∃ body body', v.computeListBody key now db = some body ∧ v.computeListBody key now db' = some body' ∧
      BodyAlike key body body' := by
  have hperm := perm_listed key.all hnow h h' hsame
  have hcap' : (listed v key.all now db').length ≤ maxListResponse := by
    have hlen := hperm.length_eq
    rw [List.length_map,List.length_map] at hlen
    exact hlen ▸ hcap
  refine ⟨_,_,computeListBody_uncapped hnow h hcap,computeListBody_uncapped hnow h' hcap',?_⟩
  intro hexpose
  have hlisting := sameListing_publicBody (v := v) hperm
  simp only [publicBody,List.map_map] at hlisting
  rw [hexpose]
  exact hlisting

inductive PhaseAlike (key : Key) : ListPhase → ListPhase → Prop
  | computing : PhaseAlike key .computing .computing
  | scanning {now : Int64} (hnow : 0 ≤ now) : PhaseAlike key (.scanning now) (.scanning now)
  | computed {body body' : Body} (h : BodyAlike key body body') :
      PhaseAlike key (.computed body) (.computed body')
  | hit {body body' : Body} (h : BodyAlike key body body') (instant : Nat) :
      PhaseAlike key (.hit body instant) (.hit body' instant)
  | stored {body body' : Body} (h : BodyAlike key body body') (instant : Nat) :
      PhaseAlike key (.stored body instant) (.stored body' instant)
  | failed (message : String) : PhaseAlike key (.failed message) (.failed message)
  | dropped : PhaseAlike key .dropped .dropped

structure RequestAlike (r r' : ListRequest) : Prop where
  key : r'.key = r.key
  phase : PhaseAlike r.key r.phase r'.phase

structure StateAlike (s s' : ListState) : Prop where
  cache : s.cache.Alike BodyAlike s'.cache
  requests : List.Forall₂ RequestAlike s.requests s'.requests

inductive EventAlike (c : Codec) : ListEvent → ListEvent → Prop
  | request (all : Bool) (header : Option String) (instant : Nat) :
      EventAlike c (.request all header instant) (.request all header instant)
  | filter (i : Nat) {now : Int64} (hnow : 0 ≤ now) : EventAlike c (.filter i now) (.filter i now)
  | collect (i : Nat) {db db' : Db} (hsame : SamePublic c db db') (h : Stamped c db) (h' : Stamped c db') :
      EventAlike c (.collect i (.ok db)) (.collect i (.ok db'))
  | failure (i : Nat) (e e' : Error) : EventAlike c (.collect i (.error e)) (.collect i (.error e'))
  | put (i instant : Nat) : EventAlike c (.put i instant) (.put i instant)
  | disconnect (i : Nat) : EventAlike c (.disconnect i) (.disconnect i)

variable {s s' t : ListState} {e e' : ListEvent}

theorem afterGet_alike {hit hit' : Option Body} (h : Option.Rel (BodyAlike key) hit hit') (instant : Nat) :
    PhaseAlike key (ListServer.afterGet instant hit) (ListServer.afterGet instant hit') := by
  cases h with
  | some h => exact .hit h instant
  | none => exact .computing

theorem listed_of_uncapped {i : Nat} (hnow : 0 ≤ now) (h : Stamped v.codec db)
    (hi : s.requests[i]? = some ⟨key,.scanning now⟩) (hcap : v.uncapped s (.collect i (.ok db)) = true) :
    (listed v key.all now db).length ≤ maxListResponse := by
  simp only [ListServer.uncapped,hi,collectMatching_stamped hnow h,Option.all_some,decide_eq_true_eq] at hcap
  exact hcap

theorem StateAlike.set {i : Nat} {phase phase' : ListPhase} (h : StateAlike s s')
    (hphase : PhaseAlike key phase phase') :
    StateAlike (ListServer.setRequest s i key phase) (ListServer.setRequest s' i key phase') := by
  have hr : RequestAlike ⟨key,phase⟩ ⟨key,phase'⟩ := ⟨rfl,hphase⟩
  exact ⟨h.cache,forall₂_set h.requests i hr⟩

theorem StateAlike.request {i : Nat} {phase : ListPhase} (h : StateAlike s s')
    (hi : s.requests[i]? = some ⟨key,phase⟩) :
    ∃ phase', s'.requests[i]? = some ⟨key,phase'⟩ ∧ PhaseAlike key phase phase' := by
  obtain ⟨⟨_,phase'⟩,hi',rfl,hphase⟩ := forall₂_getElem? h.requests hi
  exact ⟨phase',hi',hphase⟩

theorem stateAlike_step (h : StateAlike s s') (he : EventAlike v.codec e e')
    (hs : restrict v.uncapped v.step s e = some t) : ∃ t', v.step s' e' = some t' ∧ StateAlike t t' := by
  obtain ⟨hcap,hs⟩ := restrict_eq_some.mp hs
  have hm := ListServer.step_eq_some.mp hs
  simp only [ListServer.step_eq_some]
  cases he with
  | request all header instant =>
    cases hm with
    | @request _ _ _ key hkey =>
      obtain ⟨hhit,hcache⟩ := h.cache.get key instant
      exact ⟨_,.request all header instant hkey,hcache,
        List.rel_append h.requests (.cons ⟨rfl,afterGet_alike hhit instant⟩ .nil)⟩
  | filter i hnow =>
    cases hm with
    | filter _ hi =>
      obtain ⟨_,hi',hphase⟩ := h.request hi
      cases hphase
      exact ⟨_,.filter _ hi',h.set (.scanning hnow)⟩
  | collect i hsame hdb hdb' =>
    cases hm with
    | collect scan hi =>
      obtain ⟨_,hi',hphase⟩ := h.request hi
      cases hphase with
      | scanning hnow =>
        obtain ⟨body,body',hb,hb',halike⟩ :=
          computeListBody_alike hnow hdb hdb' hsame (listed_of_uncapped hnow hdb hi hcap)
        refine ⟨_,.collect _ hi',?_⟩
        simp only [ListServer.afterScan,hb,hb']
        exact h.set (.computed halike)
  | failure i err err' =>
    cases hm with
    | collect scan hi =>
      obtain ⟨_,hi',hphase⟩ := h.request hi
      cases hphase
      exact ⟨_,.collect _ hi',h.set (.failed _)⟩
  | put i instant =>
    cases hm with
    | put _ hi =>
      obtain ⟨_,hi',hphase⟩ := h.request hi
      cases hphase with
      | computed hbody =>
        exact ⟨_,.put instant hi',h.cache.put hbody,(h.set (i := i) (.stored hbody instant)).requests⟩
  | disconnect i =>
    cases hm with
    | disconnect hi =>
      obtain ⟨_,hi',hphase⟩ := h.request hi
      cases hphase
      exact ⟨_,.disconnect hi',h.set .dropped⟩

def ListPhase.body : ListPhase → Option Body
  | .computed body => some body
  | .hit body _ => some body
  | .stored body _ => some body
  | _ => none

def Computed (v : ListServer) (key : Key) (body : Body) : Prop :=
  ∃ now db, v.computeListBody key now db = some body

theorem Computed.isPublic {body : Body} (h : Computed v key body) (hexpose : key.expose = false) :
    ∀ dto ∈ body, dto.isPublic = true := by
  obtain ⟨now,db,h⟩ := h
  obtain ⟨records,_,rfl⟩ := Option.map_eq_some_iff.mp h
  intro dto hdto
  obtain ⟨rec,_,rfl⟩ := List.mem_map.mp hdto
  simp [PeerDto.fromRecord,hexpose,PeerDto.isPublic]

structure Sourced (v : ListServer) (s : ListState) : Prop where
  ttl : s.cache.ttl = peersCacheTtl
  entries : ∀ e ∈ s.cache.entries, ⟨e.key,.stored e.body e.inserted⟩ ∈ s.requests
  hits : ∀ key body instant, ⟨key,.hit body instant⟩ ∈ s.requests →
    ∃ inserted, ⟨key,.stored body inserted⟩ ∈ s.requests ∧ instant < inserted + peersCacheTtl.asNanos
  bodies : ∀ r ∈ s.requests, ∀ body, r.phase.body = some body → Computed v r.key body

theorem sourced_start : Sourced v ListServer.start :=
  ⟨rfl,by simp [ListServer.start,PeersCache.new],by simp [ListServer.start],by simp [ListServer.start]⟩

theorem Sourced.set {i : Nat} {old phase : ListPhase} (h : Sourced v s)
    (hi : s.requests[i]? = some ⟨key,old⟩) (hold : ∀ body instant, old ≠ .stored body instant)
    (hnew : ∀ body instant, phase ≠ .hit body instant)
    (hbody : ∀ body, phase.body = some body → Computed v key body) :
    Sourced v (ListServer.setRequest s i key phase) := by
  have hkeep : ∀ key' body instant, (⟨key',.stored body instant⟩ : ListRequest) ∈ s.requests →
      ⟨key',.stored body instant⟩ ∈ s.requests.set i ⟨key,phase⟩ := by
    intro key' body instant hm
    refine mem_set_of_ne hi hm ?_
    intro heq
    exact hold body instant (ListRequest.mk.inj heq).2.symm
  refine ⟨h.ttl,fun e he => hkeep _ _ _ (h.entries e he),?_,?_⟩
  · intro key' body instant hm
    rcases List.mem_or_eq_of_mem_set hm with hm | heq
    · obtain ⟨inserted,hs,hlt⟩ := h.hits key' body instant hm
      exact ⟨inserted,hkeep _ _ _ hs,hlt⟩
    · exact absurd (ListRequest.mk.inj heq).2.symm (hnew body instant)
  · intro r hm body hr
    rcases List.mem_or_eq_of_mem_set hm with hm | rfl
    · exact h.bodies r hm body hr
    · exact hbody body hr

theorem afterScan_computed {scan : Except Error Db} {body : Body}
    (h : (v.afterScan key now scan).body = some body) : Computed v key body := by
  unfold ListServer.afterScan at h
  split at h
  · cases h
  · next db =>
    split at h
    · next hb => exact ⟨now,db,hb.trans h⟩
    · cases h

theorem afterScan_not_hit {scan : Except Error Db} (body : Body) (instant : Nat) :
    v.afterScan key now scan ≠ .hit body instant := by
  unfold ListServer.afterScan
  repeat' split
  all_goals simp

theorem sourced_request {instant : Nat} (h : Sourced v s) : Sourced v ⟨(s.cache.get key instant).2,
    s.requests ++ [⟨key,ListServer.afterGet instant (s.cache.get key instant).1⟩]⟩ := by
  have hhit : ∀ body, (s.cache.get key instant).1 = some body → ∃ inserted,
      ⟨key,.stored body inserted⟩ ∈ s.requests ∧ instant < inserted + peersCacheTtl.asNanos := by
    intro body hget
    obtain ⟨e,he,rfl,rfl,hlt⟩ := PeersCache.get_hit hget
    exact ⟨e.inserted,h.entries e he,h.ttl ▸ hlt⟩
  refine ⟨h.ttl,?_,?_,?_⟩
  · intro e he
    have hm : e ∈ (s.cache.get key instant).2.entries := he
    exact List.mem_append_left _ (h.entries e (PeersCache.mem_get hm))
  · intro key' body instant' hm
    rcases List.mem_append.mp hm with hm | hm
    · obtain ⟨inserted,hs,hlt⟩ := h.hits key' body instant' hm
      exact ⟨inserted,List.mem_append_left _ hs,hlt⟩
    · obtain ⟨rfl,hphase⟩ := ListRequest.mk.inj (List.mem_singleton.mp hm)
      cases hget : (s.cache.get key' instant).1 with
      | none =>
        rw [hget] at hphase
        cases hphase
      | some hit =>
        rw [hget] at hphase
        obtain ⟨rfl,rfl⟩ := ListPhase.hit.inj hphase
        obtain ⟨inserted,hs,hlt⟩ := hhit body hget
        exact ⟨inserted,List.mem_append_left _ hs,hlt⟩
  · intro r hm body hr
    rcases List.mem_append.mp hm with hm | hm
    · exact h.bodies r hm body hr
    · obtain rfl := List.mem_singleton.mp hm
      cases hget : (s.cache.get key instant).1 with
      | none =>
        rw [hget] at hr
        cases hr
      | some hit =>
        rw [hget] at hr
        obtain ⟨inserted,hs,_⟩ := hhit body (hget.trans hr)
        exact h.bodies _ hs body rfl

theorem sourced_step (h : Sourced v s) (hs : v.step s e = some t) : Sourced v t := by
  cases ListServer.step_eq_some.mp hs with
  | request all header instant _ => exact sourced_request h
  | filter now hi => exact h.set hi (by simp) (by simp) (by simp [ListPhase.body])
  | collect scan hi => exact h.set hi (by simp) afterScan_not_hit (fun _ => afterScan_computed)
  | disconnect hi => exact h.set hi (by simp) (by simp) (by simp [ListPhase.body])
  | @put i instant key body hi =>
    have hcomputed : Computed v key body := h.bodies _ (List.mem_of_getElem? hi) body rfl
    have hset : Sourced v (ListServer.setRequest s i key (.stored body instant)) := by
      refine h.set hi (by simp) (by simp) ?_
      intro body' hbody
      exact Option.some.inj hbody ▸ hcomputed
    refine ⟨h.ttl,?_,hset.hits,hset.bodies⟩
    intro e he
    rcases PeersCache.mem_put he with he | rfl
    · exact hset.entries e he
    · exact mem_set_self hi _

inductive ResponseAlike : ListResponse → ListResponse → Prop
  | ok {body body' : Body} (h : SameListing body body') : ResponseAlike (.ok body) (.ok body')
  | internal (message : String) : ResponseAlike (.internal message) (.internal message)

theorem PhaseAlike.response {phase phase' : ListPhase} (h : PhaseAlike key phase phase')
    (hexpose : key.expose = false) : Option.Rel ResponseAlike phase.response phase'.response := by
  cases h with
  | hit h _ => exact .some (.ok (h hexpose))
  | stored h _ => exact .some (.ok (h hexpose))
  | failed message => exact .some (.internal message)
  | _ => exact .none

theorem public_list_undisclosed (v : ListServer) {es es' : List ListEvent} {s : ListState}
    (hes : List.Forall₂ (EventAlike v.codec) es es')
    (hrun : run (restrict v.uncapped v.step) ListServer.start es = some s) :
    ∃ s', run v.step ListServer.start es' = some s' ∧
      List.Forall₂ (fun r r' => r'.key = r.key ∧
        (r.key.expose = false → Option.Rel ResponseAlike r.phase.response r'.phase.response))
        s.requests s'.requests ∧
      ∀ t, t = s ∨ t = s' →
        (∀ key body instant, ⟨key,.hit body instant⟩ ∈ t.requests →
          Computed v key body ∧ ∃ inserted, ⟨key,.stored body inserted⟩ ∈ t.requests ∧
            instant < inserted + peersCacheTtl.asNanos) ∧
        ∀ r ∈ t.requests, r.key.expose = false → ∀ body, r.phase.response = some (.ok body) →
          Computed v r.key body ∧ ∀ dto ∈ body, dto.isPublic = true := by
  have hstart : StateAlike ListServer.start ListServer.start := ⟨⟨rfl,.nil⟩,.nil⟩
  have hstep : ∀ s s' e e' t, StateAlike s s' → EventAlike v.codec e e' →
      restrict v.uncapped v.step s e = some t → ∃ t', v.step s' e' = some t' ∧ StateAlike t t' :=
    fun _ _ _ _ _ h he hs => stateAlike_step h he hs
  obtain ⟨s',hrun',halike⟩ := run_related hstep hstart hes hrun
  refine ⟨s',hrun',?_,?_⟩
  · refine halike.requests.imp ?_
    intro r r' hr
    exact ⟨hr.key,fun hexpose => hr.phase.response hexpose⟩
  · intro t ht
    have hsourced : Sourced v t := by
      rcases ht with rfl | rfl
      · exact run_invariant (fun _ _ _ h hs => sourced_step h (restrict_eq_some.mp hs).2) sourced_start hrun
      · exact run_invariant (fun _ _ _ h hs => sourced_step h hs) sourced_start hrun'
    refine ⟨?_,?_⟩
    · intro key body instant hm
      exact ⟨hsourced.bodies _ hm body rfl,hsourced.hits key body instant hm⟩
    · intro r hm hexpose body hr
      have hbody : r.phase.body = some body := by
        cases hp : r.phase with
        | hit body' _ => simpa [hp,ListPhase.response,ListPhase.body] using hr
        | stored body' _ => simpa [hp,ListPhase.response,ListPhase.body] using hr
        | _ => simp [hp,ListPhase.response] at hr
      have hcomputed := hsourced.bodies r hm body hbody
      exact ⟨hcomputed,hcomputed.isPublic hexpose⟩

def sampleListServer : ListServer where
  codec := Bincode.standard
  semver := ⟨fun _ => none⟩
  formats := ⟨Int64,some,0,fun ms => toString ms,fun _ => "id",fun _ => "version"⟩
  config := ⟨16111,false,1,.fromSecs 60,.fromSecs 1800,none,none⟩
  apiKey := "secret"

def listedPeer (ip : BitVec 32) (seen success : Int64) : PeerRecord where
  address := ⟨.v4 ip,16111⟩
  id := unknownPeerId
  protocolVersion := 7
  userAgent := Format.Text.empty
  subnetworkId := none
  timestampMs := 0
  firstSeenMs := seen
  lastSeenMs := seen
  lastAttemptMs := seen
  lastSuccessMs := success

def firstPair : Db :=
  PeerStore.upsert Bincode.standard (listedPeer 0x08080808#32 5000 5000)
    (PeerStore.upsert Bincode.standard (listedPeer 0x01010101#32 5000 5500) .empty)

def secondPair : Db :=
  PeerStore.upsert Bincode.standard (listedPeer 0x08080404#32 5500 5000)
    (PeerStore.upsert Bincode.standard (listedPeer 0x09090909#32 5700 5500) .empty)

def listThrice (db : Db) : List ListEvent :=
  [.request false none 0,.request false (some "secret") 1,.filter 0 6000,.filter 1 6000,.collect 1 (.ok db),
    .collect 0 (.ok db),.put 0 2,.put 1 3,.request false none 4]

theorem public_list_undisclosed_pairs :
    ∃ s s', run sampleListServer.step ListServer.start (listThrice firstPair) = some s ∧
      run sampleListServer.step ListServer.start (listThrice secondPair) = some s' ∧
      s.requests.map (fun r => r.key.expose) = [false,true,false] ∧
      List.Forall₂ (fun r r' => r'.key = r.key ∧
        (r.key.expose = false → Option.Rel ResponseAlike r.phase.response r'.phase.response))
        s.requests s'.requests := by
  obtain ⟨s,hrun,hplain,hexpose⟩ : ∃ s, run (restrict sampleListServer.uncapped sampleListServer.step)
      ListServer.start (listThrice firstPair) = some s ∧
      run sampleListServer.step ListServer.start (listThrice firstPair) = some s ∧
      s.requests.map (fun r => r.key.expose) = [false,true,false] := ⟨_,rfl,rfl,rfl⟩
  have hstamped : ∀ rec ∈ PeerStore.records Bincode.standard firstPair,
      0 ≤ rec.lastSeenMs ∧ 0 ≤ rec.lastSuccessMs := by decide
  have hstamped' : ∀ rec ∈ PeerStore.records Bincode.standard secondPair,
      0 ≤ rec.lastSeenMs ∧ 0 ≤ rec.lastSuccessMs := by decide
  have hsame : ((PeerStore.records Bincode.standard firstPair).map publicFields).Perm
      ((PeerStore.records Bincode.standard secondPair).map publicFields) := List.Perm.swap _ _ _
  have hes : List.Forall₂ (EventAlike Bincode.standard) (listThrice firstPair) (listThrice secondPair) :=
    .cons (.request false none 0) (.cons (.request false (some "secret") 1) (.cons (.filter 0 (by decide))
      (.cons (.filter 1 (by decide)) (.cons (.collect 1 hsame hstamped hstamped')
        (.cons (.collect 0 hsame hstamped hstamped') (.cons (.put 0 2) (.cons (.put 1 3)
          (.cons (.request false none 4) .nil))))))))
  obtain ⟨s',hrun',hreq,_⟩ := public_list_undisclosed sampleListServer hes hrun
  exact ⟨s,s',hplain,hrun',hexpose,hreq⟩

end Web

end DnsSeeder
