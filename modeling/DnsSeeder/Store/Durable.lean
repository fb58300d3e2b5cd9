import DnsSeeder.Lib.Run
import DnsSeeder.Store.Batch
import DnsSeeder.Store.Prune
import DnsSeeder.Store.Summary

namespace DnsSeeder

open Lib

inductive StoreCall where
  | upsert (rec : PeerRecord)
  | get (addr : NetAddress)
  | delete (addr : NetAddress)
  | recordAttempt (addr : NetAddress) (nowMs : Int64)
  | insertOrRefreshSeen (addr : NetAddress) (nowMs : Int64)
  | insertOrRefreshSeenBatch (addrs : List NetAddress) (nowMs : Int64)
  | pruneDead (cutoffMs : Int64)
  | len
  | isEmpty

inductive StoreReply where
  | done
  | found (rec : Option PeerRecord)
  | attempted (rec : PeerRecord)
  | flag (value : Bool)
  | count (n : Nat)
deriving DecidableEq

namespace PeerStore

def len (db : Db) : Nat := db.peers.iter.length

def isEmpty (db : Db) : Bool := len db == 0

def call (c : Codec) (db : Db) : StoreCall → Except Error (StoreReply × Db)
  | .upsert rec => .ok (.done,upsert c rec db)
  | .get addr => (get c addr db).map (fun rec => (.found rec,db))
  | .delete addr => .ok (.flag (delete c addr db).1,(delete c addr db).2)
  | .recordAttempt addr now => (recordAttempt c addr now db).map (fun r => (.attempted r.1,r.2))
  | .insertOrRefreshSeen addr now => (insertOrRefreshSeen c addr now db).map (fun r => (.flag r.1,r.2))
  | .insertOrRefreshSeenBatch addrs now =>
      (insertOrRefreshSeenBatch c addrs now db).map (fun r => (.count r.1,r.2))
  | .pruneDead cutoff => .ok (.count (pruneDead c cutoff db).1,(pruneDead c cutoff db).2)
  | .len => .ok (.count (len db),db)
  | .isEmpty => .ok (.flag (isEmpty db),db)

inductive Action where
  | call (call : StoreCall)
  | crash (interrupted : List OpenStage)

inductive Output where
  | reply (reply : Except Error StoreReply)
  | opened (purged indexed : Nat)

def Action.isCall : Action → Bool
  | .call _ => true
  | .crash _ => false

-- a transaction that fails is dropped before its commit, so the tables stay as they were
def machine (c : Codec) : Machine Db Action Output where
  step db
    | .call k =>
        match call c db k with
        | .ok (r,db') => (.reply (.ok r),db')
        | .error e => (.reply (.error e),db)
    | .crash interrupted =>
        let file := interrupted.foldl (interruptedOpen c) db
        let (purged,db) := purgeUndecodable c file
        (.opened purged (rebuildAttemptIndex c db).1,openStore c (.compatible file))

end PeerStore

namespace StoreCall

open PeerStore

def op : StoreCall → Option StoreOp
  | .upsert rec => some (.upsert rec)
  | .delete addr => some (.delete addr)
  | .recordAttempt addr now => some (.recordAttempt addr now)
  | .insertOrRefreshSeen addr now => some (.insertOrRefreshSeenBatch [addr] now)
  | .insertOrRefreshSeenBatch addrs now => some (.insertOrRefreshSeenBatch addrs now)
  | .pruneDead cutoff => some (.pruneDead cutoff)
  | .get _ => none
  | .len => none
  | .isEmpty => none

end StoreCall

namespace PeerMap

open PeerStore

noncomputable def count (m : PeerMap) (p : PeerRecord → Bool) : Nat :=
  {addr | ∃ rec, m addr = some rec ∧ p rec = true}.ncard

open Classical in
noncomputable def reply (m : PeerMap) : StoreCall → StoreReply
  | .upsert _ => .done
  | .get addr => .found (m addr)
  | .delete addr => .flag (m addr).isSome
  | .recordAttempt addr now => .attempted (attempted addr now (m addr))
  | .insertOrRefreshSeen addr _ => .flag (m addr).isNone
  | .insertOrRefreshSeenBatch addrs _ => .count {addr | addr ∈ addrs ∧ m addr = none}.ncard
  | .pruneDead cutoff => .count (m.count (fun rec => isDead rec cutoff))
  | .len => .count (m.count (fun _ => true))
  | .isEmpty => .flag (decide (∀ addr, m addr = none))

def effect (m : PeerMap) (k : StoreCall) : PeerMap :=
  match k.op with
  | some op => apply op m
  | none => m

noncomputable def machine : Machine PeerMap Action Output where
  step m
    | .call k => (.reply (.ok (m.reply k)),m.effect k)
    | .crash _ => (.opened 0 (m.count (fun _ => true)),m)

end PeerMap

namespace PeerStore

variable {c : Codec} {db : Db}

theorem purge_exact (hx : Exact c db) : purgeUndecodable c db = (0,db) := by
  unfold purgeUndecodable
  rw [List.filterMap_eq_nil_iff.mpr]
  · rfl
  · intro row hrow
    obtain ⟨rec,hd⟩ := hx.decodes row.1 row.2 ((Table.mem_iter _ _ _).mp hrow)
    simp only [hd]

theorem rebuild_exact (hx : Exact c db) : (rebuildAttemptIndex c db).2 = db := by
  have hx' := exact_rebuild hx.decodes
  refine Db.ext (fun _ => rfl) ?_
  rintro ⟨t,key⟩
  rw [hx'.index,hx.index]
  rfl

theorem open_exact (hx : Exact c db) : openStore c (.compatible db) = db := by
  change (rebuildAttemptIndex c (purgeUndecodable c db).2).2 = db
  rw [purge_exact hx,rebuild_exact hx]

theorem interrupted_exact (hx : Exact c db) (interrupted : List OpenStage) :
    interrupted.foldl (interruptedOpen c) db = db := by
  induction interrupted with
  | nil => rfl
  | cons stage interrupted ih =>
    have hstage : interruptedOpen c db stage = db := by
      cases stage with
      | created => rfl
      | purged => rw [interruptedOpen,purge_exact hx]
    rw [List.foldl_cons,hstage,ih]

theorem indexed_count (rows : List (Bytes × Bytes)) (acc : Nat × Multimap Int64 Bytes) :
    (rows.foldl (indexRow c) acc).1 =
      acc.1 + (rows.filterMap (fun row => (c.decodeRecord row.2).toOption)).length := by
  induction rows generalizing acc with
  | nil => rfl
  | cons row rows ih =>
    rw [List.foldl_cons,ih,indexRow]
    cases hd : c.decodeRecord row.2 with
    | error e => simp [hd,Except.toOption]
    | ok rec =>
      simp only [List.filterMap_cons,hd,Except.toOption,List.length_cons]
      omega

theorem rebuild_count (db : Db) : (rebuildAttemptIndex c db).1 = (records c db).length :=
  (indexed_count db.peers.iter (0,.empty)).trans (Nat.zero_add _)

theorem count_records (hk : Keyed c db) (p : PeerRecord → Bool) :
    PeerMap.count (view c db) p = (records c db).countP p := by
  classical
  have hset : {addr | ∃ rec, view c db addr = some rec ∧ p rec = true} =
      ((((records c db).filter p).map (·.address)).toFinset : Set NetAddress) := by
    ext addr
    simp only [Set.mem_ofPred_eq,List.coe_toFinset,List.mem_map,List.mem_filter]
    constructor
    · rintro ⟨rec,hview,hp⟩
      obtain rfl := view_address hk hview
      exact ⟨rec,⟨(mem_records hk rec).mpr hview,hp⟩,rfl⟩
    · rintro ⟨rec,⟨hrec,hp⟩,rfl⟩
      exact ⟨rec,(mem_records hk rec).mp hrec,hp⟩
  have hnodup : (((records c db).filter p).map (·.address)).Nodup :=
    (records_address_nodup hk).sublist (List.filter_sublist.map _)
  rw [PeerMap.count,hset,Set.ncard_coe_finset,List.toFinset_card_of_nodup hnodup,List.length_map,
    List.countP_eq_length_filter]

theorem records_stored (c : Codec) (db : Db) : (stored c db).map Prod.snd = records c db := by
  rw [stored,records,List.map_filterMap]
  congr 1
  funext row
  cases (c.decodeRecord row.2).toOption <;> rfl

theorem pruneDead_count_map (hk : Keyed c db) (cutoff : Int64) :
    (pruneDead c cutoff db).1 = PeerMap.count (view c db) (fun rec => isDead rec cutoff) := by
  rw [count_records hk,pruneDead_count,← records_stored,List.countP_map]
  rfl

theorem len_map (hx : Exact c db) (hk : Keyed c db) :
    len db = PeerMap.count (view c db) (fun _ => true) := by
  rw [count_records hk,List.countP_true,length_records hx.decodes]
  rfl

theorem isEmpty_map (hx : Exact c db) (hk : Keyed c db) :
    isEmpty db = true ↔ ∀ addr, view c db addr = none := by
  rw [isEmpty,beq_iff_eq,len,← length_records hx.decodes,List.length_eq_zero_iff]
  constructor
  · intro hempty addr
    rw [Option.eq_none_iff_forall_ne_some]
    intro rec hview
    have hrec := (mem_records hk rec).mpr ((view_address hk hview).symm ▸ hview)
    rw [hempty] at hrec
    cases hrec
  · intro hnone
    refine List.eq_nil_iff_forall_not_mem.mpr (fun rec hrec => ?_)
    rw [mem_records hk,hnone] at hrec
    cases hrec

theorem delete_found (hx : Exact c db) (addr : NetAddress) :
    (delete c addr db).1 = (view c db addr).isSome := by
  cases hget : db.peers.get (c.encodeKey addr) with
  | none => simp only [delete,view,hget,row_of_get_none hget,Option.isSome_none]
  | some v =>
    obtain ⟨rec,hd⟩ := hx.decodes _ v hget
    simp only [delete,view,hget,row_of_decode hget hd,Option.isSome_some]

theorem recordAttempt_map (hx : Exact c db) (addr : NetAddress) (now : Int64) :
    ∃ db', recordAttempt c addr now db = .ok (attempted addr now (view c db addr),db') := by
  obtain ⟨rec,db',h⟩ := recordAttempt_total hx addr now
  obtain ⟨rfl,_⟩ := recordAttempt_ok h
  exact ⟨db',h⟩

theorem batch_map (hx : Exact c db) (addrs : List NetAddress) (now : Int64) :
    ∃ db', insertOrRefreshSeenBatch c addrs now db =
      .ok ({addr | addr ∈ addrs ∧ view c db addr = none}.ncard,db') := by
  classical
  obtain ⟨⟨n,db'⟩,h⟩ := batch_total hx addrs now
  have hset : {addr | addr ∈ addrs ∧ view c db addr = none} =
      ((addrs.toFinset.filter (fun a => view c db a = none) : Finset NetAddress) : Set NetAddress) := by
    ext addr
    simp
  rw [hset,Set.ncard_coe_finset]
  have hn := (refreshed_batch h).inserted
  exact ⟨db',by rw [h,hn]⟩

theorem seen_map (hx : Exact c db) (addr : NetAddress) (now : Int64) :
    insertOrRefreshSeen c addr now db =
      .ok ((view c db addr).isNone,exec c db (.insertOrRefreshSeenBatch [addr] now)) := by
  obtain ⟨db',h⟩ := batch_map hx [addr] now
  have hone : ({a | a ∈ [addr] ∧ view c db a = none}.ncard == 1) = (view c db addr).isNone := by
    cases hview : view c db addr with
    | none =>
      have hset : {a | a ∈ [addr] ∧ view c db a = none} = {addr} := by
        ext a
        simp only [List.mem_singleton,Set.mem_ofPred_eq,Set.mem_singleton_iff]
        exact ⟨And.left,fun ha => ⟨ha,ha ▸ hview⟩⟩
      rw [hset,Set.ncard_singleton]
      rfl
    | some rec =>
      have hset : {a | a ∈ [addr] ∧ view c db a = none} = ∅ := by
        refine Set.eq_empty_of_forall_notMem ?_
        rintro a ⟨ha,hnone⟩
        rw [List.mem_singleton.mp ha,hview] at hnone
        cases hnone
      rw [hset,Set.ncard_empty]
      rfl
  rw [insertOrRefreshSeen,h,exec,h]
  exact congrArg (fun b => Except.ok (b,db')) hone

theorem call_map (hx : Exact c db) (hk : Keyed c db) (k : StoreCall) :
    call c db k = .ok (PeerMap.reply (view c db) k,(k.op.map (exec c db)).getD db) := by
  cases k with
  | upsert rec => rfl
  | get addr => rw [call,get_eq_view hx]; rfl
  | delete addr => rw [call,delete_found hx]; rfl
  | recordAttempt addr now =>
    obtain ⟨db',h⟩ := recordAttempt_map hx addr now
    simp only [call,StoreCall.op,Option.map_some,Option.getD_some,exec,h]
    rfl
  | insertOrRefreshSeen addr now => rw [call,seen_map hx]; rfl
  | insertOrRefreshSeenBatch addrs now =>
    obtain ⟨db',h⟩ := batch_map hx addrs now
    simp only [call,StoreCall.op,Option.map_some,Option.getD_some,exec,h]
    rfl
  | pruneDead cutoff => rw [call,pruneDead_count_map hk]; rfl
  | len => rw [call,len_map hx hk]; rfl
  | isEmpty =>
    classical
    have hflag : isEmpty db = decide (∀ addr, view c db addr = none) := by
      rw [Bool.eq_iff_iff,isEmpty_map hx hk,decide_eq_true_eq]
    rw [call,hflag]
    rfl

structure Holds (c : Codec) (db : Db) (m : PeerMap) : Prop where
  exact : Exact c db
  keyed : Keyed c db
  contents : view c db = m

theorem step_call (hx : Exact c db) (hk : Keyed c db) (k : StoreCall) :
    (machine c).step db (.call k) =
      (.reply (.ok (PeerMap.reply (view c db) k)),(k.op.map (exec c db)).getD db) := by
  simp only [machine,call_map hx hk]

theorem step_crash (hx : Exact c db) (interrupted : List OpenStage) :
    (machine c).step db (.crash interrupted) = (.opened 0 (records c db).length,db) := by
  simp only [machine,interrupted_exact hx,purge_exact hx,rebuild_count,open_exact hx]

theorem holds_exec {m : PeerMap} (h : Holds c db m) (k : StoreCall) :
    Holds c ((k.op.map (exec c db)).getD db) (m.effect k) := by
  obtain ⟨hx,hk,rfl⟩ := h
  unfold PeerMap.effect
  cases k.op with
  | none => exact ⟨hx,hk,rfl⟩
  | some op => exact ⟨exact_exec hx op,keyed_exec hx hk op,view_exec hx op⟩

theorem simulates (c : Codec) : Machine.Simulates (machine c) PeerMap.machine (Holds c) where
  output db m a h := by
    obtain ⟨hx,hk,rfl⟩ := h
    cases a with
    | call k => rw [step_call hx hk]; rfl
    | crash interrupted =>
      have hcount : (records c db).length = PeerMap.count (view c db) (fun _ => true) := by
        rw [count_records hk,List.countP_true]
      rw [step_crash hx,hcount]
      rfl
  next db m a h := by
    cases a with
    | call k =>
      rw [step_call h.exact h.keyed]
      exact holds_exec h k
    | crash interrupted =>
      rw [step_crash h.exact]
      exact h

theorem durable_map (c : Codec) (file : DatabaseFile) (hk : Keyed c (openStore c file))
    (actions : List Action) :
    ((machine c).trace (openStore c file) actions).1 =
      (PeerMap.machine.trace (view c (openStore c file)) actions).1 ∧
    view c ((machine c).trace (openStore c file) actions).2 =
      (PeerMap.machine.trace (view c (openStore c file)) actions).2 ∧
    ((machine c).trace (openStore c file) actions).2 =
      ((machine c).trace (openStore c file) (actions.filter Action.isCall)).2 := by
  have hstart : Holds c (openStore c file) (view c (openStore c file)) := ⟨exact_open file,hk,rfl⟩
  obtain ⟨hout,hend⟩ := (simulates c).trace hstart actions
  refine ⟨hout,hend.contents,?_⟩
  refine (Machine.trace_filter (I := fun db => Exact c db ∧ Keyed c db) ?_ ?_ ⟨exact_open file,hk⟩ actions).symm
  · rintro db a ⟨hx,hk⟩
    have hnext := (simulates c).next db (view c db) a ⟨hx,hk,rfl⟩
    exact ⟨hnext.exact,hnext.keyed⟩
  · rintro db a ⟨hx,_⟩ ha
    cases a with
    | call k => cases ha
    | crash interrupted => rw [step_crash hx]

def durableActions : List Action :=
  [.call (.insertOrRefreshSeen (seenPeer 1) 5),.crash [.purged],
    .call (.insertOrRefreshSeenBatch [seenPeer 2,seenPeer 1] 6),.call .len,.crash [],
    .call (.delete (seenPeer 1)),.call (.get (seenPeer 1))]

theorem durable_map_crashes :
    ((machine Bincode.standard).trace (openStore Bincode.standard .missing) durableActions).1 =
      (PeerMap.machine.trace (view Bincode.standard (openStore Bincode.standard .missing)) durableActions).1 ∧
    ((machine Bincode.standard).trace (openStore Bincode.standard .missing) durableActions).2 =
      ((machine Bincode.standard).trace (openStore Bincode.standard .missing)
        (durableActions.filter Action.isCall)).2 := by
  have hkeyed : Keyed Bincode.standard (openStore Bincode.standard .missing) := by
    rw [show openStore Bincode.standard .missing = Db.empty from open_exact exact_empty]
    exact keyed_empty
  obtain ⟨hout,_,hend⟩ := durable_map Bincode.standard .missing hkeyed durableActions
  exact ⟨hout,hend⟩

end PeerStore

end DnsSeeder
