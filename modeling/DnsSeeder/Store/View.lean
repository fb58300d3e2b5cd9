import DnsSeeder.Store.Index

namespace DnsSeeder

open Lib

abbrev PeerMap := NetAddress → Option PeerRecord

namespace PeerStore

variable {c : Codec}

def view (c : Codec) (db : Db) : PeerMap := fun addr => row c db (c.encodeKey addr)

def attempted (addr : NetAddress) (now : Int64) (old : Option PeerRecord) : PeerRecord :=
  { old.getD (attemptStub addr now) with lastAttemptMs := now }

def apply : StoreOp → PeerMap → PeerMap
  | .upsert rec, m => Function.update m rec.address (some rec)
  | .delete addr, m => Function.update m addr none
  | .recordAttempt addr now, m => Function.update m addr (some (attempted addr now (m addr)))
  | .insertOrRefreshSeenBatch addrs now, m => fun addr =>
      if addr ∈ addrs then some (seenRecord addr now (m addr)) else m addr
  | .pruneDead cutoff, m => fun addr => (m addr).filter (fun rec => !isDead rec cutoff)

def StoreOp.targets : StoreOp → List NetAddress
  | .upsert rec => [rec.address]
  | .recordAttempt addr _ => [addr]
  | .insertOrRefreshSeenBatch addrs _ => addrs
  | .delete _ => []
  | .pruneDead _ => []

inductive Leaves (m : PeerMap) (addr : NetAddress) : StoreOp → PeerRecord → Prop
  | upserted {rec : PeerRecord} (ha : addr = rec.address) : Leaves m addr (.upsert rec) rec
  | attempted (now : Int64) : Leaves m addr (.recordAttempt addr now) (attempted addr now (m addr))
  | seen {addrs : List NetAddress} (now : Int64) (ha : addr ∈ addrs) :
      Leaves m addr (.insertOrRefreshSeenBatch addrs now) (seenRecord addr now (m addr))
  | kept {op : StoreOp} {rec : PeerRecord} (hm : m addr = some rec) (ha : addr ∉ op.targets) :
      Leaves m addr op rec

theorem leaves_of_apply {op : StoreOp} {m : PeerMap} {addr : NetAddress} {rec : PeerRecord}
    (h : apply op m addr = some rec) : Leaves m addr op rec := by
  cases op with
  | upsert rec' =>
    by_cases ha : addr = rec'.address
    · simp only [apply,ha,Function.update_self,Option.some.injEq] at h
      exact h ▸ .upserted ha
    · rw [apply,Function.update_of_ne ha] at h
      exact .kept h (by simpa [StoreOp.targets] using ha)
  | delete addr' =>
    by_cases ha : addr = addr'
    · simp [apply,ha] at h
    · rw [apply,Function.update_of_ne ha] at h
      exact .kept h (by simp [StoreOp.targets])
  | recordAttempt addr' now =>
    by_cases ha : addr = addr'
    · subst ha
      simp only [apply,Function.update_self,Option.some.injEq] at h
      exact h ▸ .attempted now
    · rw [apply,Function.update_of_ne ha] at h
      exact .kept h (by simpa [StoreOp.targets] using ha)
  | insertOrRefreshSeenBatch addrs now =>
    by_cases ha : addr ∈ addrs
    · simp only [apply,if_pos ha,Option.some.injEq] at h
      exact h ▸ .seen now ha
    · simp only [apply,if_neg ha] at h
      exact .kept h ha
  | pruneDead cutoff => exact .kept (Option.filter_eq_some_iff.mp h).1 (by simp [StoreOp.targets])

theorem view_put (db : Db) (addr : NetAddress) (rec : PeerRecord) :
    view c (put c (c.encodeKey addr) rec db) = Function.update (view c db) addr (some rec) := by
  funext a
  simp only [view,row_put,Function.update_apply,c.encodeKey_injective.eq_iff,eq_comm]

theorem view_drop (db : Db) (addr : NetAddress) :
    view c (drop c (c.encodeKey addr) db) = Function.update (view c db) addr none := by
  funext a
  simp only [view,row_drop,Function.update_apply,c.encodeKey_injective.eq_iff,eq_comm]

theorem get_eq_view {db : Db} (hx : Exact c db) (addr : NetAddress) :
    get c addr db = .ok (view c db addr) := by
  unfold get view
  cases hv : db.peers.get (c.encodeKey addr) with
  | none => simp [row,hv]
  | some v =>
    obtain ⟨rec,hd⟩ := hx.decodes _ _ hv
    simp [row,hv,hd,Except.map,Except.toOption]

theorem recordAttempt_total {db : Db} (hx : Exact c db) (addr : NetAddress) (now : Int64) :
    ∃ rec db', recordAttempt c addr now db = .ok (rec,db') := by
  cases hv : db.peers.get (c.encodeKey addr) with
  | none => exact ⟨_,_,by simp only [recordAttempt,hv]; rfl⟩
  | some v =>
    obtain ⟨rec,hd⟩ := hx.decodes _ _ hv
    exact ⟨_,_,by simp only [recordAttempt,hv,hd]; rfl⟩

theorem view_recordAttempt {db : Db} (hx : Exact c db) (addr : NetAddress) (now : Int64) :
    view c (commit db (recordAttempt c addr now db)) =
      Function.update (view c db) addr (some (attempted addr now (view c db addr))) := by
  obtain ⟨rec,db',h⟩ := recordAttempt_total hx addr now
  obtain ⟨hr,hdb⟩ := recordAttempt_ok h
  rw [h,commit,hdb,view_put,hr]
  rfl

theorem seenRecord_seenRecord (addr : NetAddress) (now : Int64) (old : Option PeerRecord) :
    seenRecord addr now (some (seenRecord addr now old)) = seenRecord addr now old := by
  cases old <;> rfl

theorem refreshSeen_total {db : Db} (hx : Exact c db) (now : Int64) (n : Nat) (addr : NetAddress) :
    ∃ acc, refreshSeen c now (n,db) addr = .ok acc := by
  cases hv : db.peers.get (c.encodeKey addr) with
  | none => exact ⟨_,by simp only [refreshSeen,hv]; rfl⟩
  | some v =>
    obtain ⟨rec,hd⟩ := hx.decodes _ _ hv
    exact ⟨_,by simp only [refreshSeen,hv,hd]; rfl⟩

theorem batch_total {db : Db} (hx : Exact c db) (addrs : List NetAddress) (now : Int64) :
    ∃ acc, insertOrRefreshSeenBatch c addrs now db = .ok acc := by
  refine except_foldlM_total (fun acc => Exact c acc.2) ?_ addrs hx
  intro addr acc hx
  obtain ⟨acc',h⟩ := refreshSeen_total hx now acc.1 addr
  refine ⟨acc',h,?_⟩
  rw [refreshSeen_ok hx h]
  exact exact_put hx _ _

theorem apply_seen_snoc (addrs : List NetAddress) (addr : NetAddress) (now : Int64) (m : PeerMap) :
    Function.update (apply (.insertOrRefreshSeenBatch addrs now) m) addr
      (some (seenRecord addr now (apply (.insertOrRefreshSeenBatch addrs now) m addr))) =
    apply (.insertOrRefreshSeenBatch (addrs ++ [addr]) now) m := by
  funext a
  by_cases ha : a = addr
  · subst ha
    by_cases hm : a ∈ addrs <;> simp [apply,hm,seenRecord_seenRecord]
  · simp [apply,ha]

theorem view_batch {db : Db} (hx : Exact c db) (addrs : List NetAddress) (now : Int64) :
    view c (commit db (insertOrRefreshSeenBatch c addrs now db)) =
      apply (.insertOrRefreshSeenBatch addrs now) (view c db) := by
  obtain ⟨acc,h⟩ := batch_total hx addrs now
  rw [h]
  refine (except_foldlM_invariant (fun xs acc => Exact c acc.2 ∧
    view c acc.2 = apply (.insertOrRefreshSeenBatch xs now) (view c db)) ?_ ⟨hx,?_⟩ h).2
  · rintro xs addr acc acc' ⟨hx,hv⟩ hs
    rw [refreshSeen_ok hx hs]
    refine ⟨exact_put hx _ _,?_⟩
    rw [view_put,← apply_seen_snoc,← hv]
    rfl
  · funext a
    simp [apply]

theorem peers_removeRows (entries : List (Bytes × Int64)) (db : Db) :
    (entries.foldl removeRow db).peers = (entries.map Prod.fst).foldl Table.remove db.peers := by
  induction entries generalizing db with
  | nil => rfl
  | cons e entries ih => rw [List.foldl_cons,ih,List.map_cons,List.foldl_cons,removeRow]

theorem mem_deadKeys {cutoff : Int64} {db : Db} {key : Bytes} :
    key ∈ (db.peers.iter.filterMap (deadRow c cutoff)).map Prod.fst ↔
      ∃ rec, row c db key = some rec ∧ isDead rec cutoff = true := by
  constructor
  · intro h
    obtain ⟨⟨k,t⟩,he,rfl⟩ := List.mem_map.mp h
    obtain ⟨rec,hr,_,hd⟩ := mem_deadRows he
    exact ⟨rec,hr,hd⟩
  · rintro ⟨rec,hr,hd⟩
    obtain ⟨v,hv,hdec⟩ := row_eq_some.mp hr
    refine List.mem_map.mpr ⟨(key,rec.lastAttemptMs),?_,rfl⟩
    exact List.mem_filterMap.mpr ⟨(key,v),by simpa using hv,by simp [deadRow,hdec,hd]⟩

def deadAt (c : Codec) (cutoff : Int64) (db : Db) (key : Bytes) : Bool :=
  (row c db key).any (fun rec => isDead rec cutoff)

theorem deadAt_iff {cutoff : Int64} {db : Db} {key : Bytes} : deadAt c cutoff db key = true ↔
    ∃ rec, row c db key = some rec ∧ isDead rec cutoff = true := by
  cases h : row c db key with
  | none => simp [deadAt,h]
  | some rec => simp [deadAt,h]

theorem pruneDead_get (cutoff : Int64) (db : Db) (key : Bytes) :
    (pruneDead c cutoff db).2.peers.get key = if deadAt c cutoff db key then none else db.peers.get key := by
  have hget := Table.get_removeAll
    ((db.peers.iter.filterMap (deadRow c cutoff)).map Prod.fst) db.peers key
  rw [← peers_removeRows] at hget
  simp only [mem_deadKeys,← deadAt_iff] at hget
  exact hget

theorem row_pruneDead (cutoff : Int64) (db : Db) (key : Bytes) :
    row c (pruneDead c cutoff db).2 key = (row c db key).filter (fun rec => !isDead rec cutoff) := by
  have hrow : row c (pruneDead c cutoff db).2 key =
      if deadAt c cutoff db key then none else row c db key := by
    rw [row,pruneDead_get]
    split <;> rfl
  rw [hrow,deadAt]
  cases row c db key with
  | none => rfl
  | some rec => cases hd : isDead rec cutoff <;> simp [Option.filter,hd]

theorem view_exec {db : Db} (hx : Exact c db) (op : StoreOp) :
    view c (exec c db op) = apply op (view c db) := by
  cases op with
  | upsert rec => rw [exec,upsert_eq_put,view_put]; rfl
  | delete addr => rw [exec,delete_eq_drop,view_drop]; rfl
  | recordAttempt addr now => rw [exec,view_recordAttempt hx]; rfl
  | insertOrRefreshSeenBatch addrs now => rw [exec,view_batch hx]
  | pruneDead cutoff =>
    funext addr
    exact row_pruneDead cutoff db (c.encodeKey addr)

def Keyed (c : Codec) (db : Db) : Prop :=
  ∀ key rec, row c db key = some rec → key = c.encodeKey rec.address

theorem keyed_empty : Keyed c .empty := by
  intro key rec h
  simp [row,Db.empty] at h

theorem exact_empty : Exact c .empty := by
  constructor
  · intro k v h
    simp [Db.empty] at h
  · intro t k
    simp [Db.empty,row]

theorem keyed_put {db : Db} (hk : Keyed c db) {addr : NetAddress} {rec : PeerRecord}
    (h : rec.address = addr) : Keyed c (put c (c.encodeKey addr) rec db) := by
  intro key rec' hr
  rw [row_put] at hr
  split at hr
  · next hkey =>
    obtain rfl := Option.some.inj hr
    rw [← hkey,h]
  · exact hk key rec' hr

theorem keyed_drop {db : Db} (hk : Keyed c db) (key : Bytes) : Keyed c (drop c key db) := by
  intro key' rec hr
  rw [row_drop] at hr
  split at hr
  · simp at hr
  · exact hk key' rec hr

theorem view_address {db : Db} (hk : Keyed c db) {addr : NetAddress} {rec : PeerRecord}
    (h : view c db addr = some rec) : rec.address = addr :=
  (c.encodeKey_injective (hk _ _ h)).symm

theorem attempted_address {db : Db} (hk : Keyed c db) (addr : NetAddress) (now : Int64) :
    (attempted addr now (view c db addr)).address = addr := by
  cases h : view c db addr with
  | none => rfl
  | some rec =>
    change rec.address = addr
    exact view_address hk h

theorem seenRecord_address {db : Db} (hk : Keyed c db) (addr : NetAddress) (now : Int64) :
    (seenRecord addr now (view c db addr)).address = addr := by
  cases h : view c db addr with
  | none => rfl
  | some rec =>
    change rec.address = addr
    exact view_address hk h

theorem keyed_exec {db : Db} (hx : Exact c db) (hk : Keyed c db) (op : StoreOp) :
    Keyed c (exec c db op) := by
  cases op with
  | upsert rec =>
    rw [exec,upsert_eq_put]
    exact keyed_put hk rfl
  | delete addr =>
    rw [exec,delete_eq_drop]
    exact keyed_drop hk _
  | recordAttempt addr now =>
    obtain ⟨rec,db',h⟩ := recordAttempt_total hx addr now
    obtain ⟨hr,hdb⟩ := recordAttempt_ok h
    rw [exec,h,commit,hdb]
    refine keyed_put hk ?_
    rw [hr]
    exact attempted_address hk addr now
  | insertOrRefreshSeenBatch addrs now =>
    obtain ⟨acc,h⟩ := batch_total hx addrs now
    rw [exec,h]
    refine (except_foldlM_invariant (fun _ acc => Exact c acc.2 ∧ Keyed c acc.2) ?_ ⟨hx,hk⟩ h).2
    rintro _ addr acc acc' ⟨hx,hk⟩ hs
    rw [refreshSeen_ok hx hs]
    exact ⟨exact_put hx _ _,keyed_put hk (seenRecord_address hk addr now)⟩
  | pruneDead cutoff =>
    intro key rec hr
    rw [exec,row_pruneDead,Option.filter_eq_some_iff] at hr
    exact hk key rec hr.1

def records (c : Codec) (db : Db) : List PeerRecord :=
  db.peers.iter.filterMap (fun row => (c.decodeRecord row.2).toOption)

theorem mem_records {db : Db} (hk : Keyed c db) (rec : PeerRecord) :
    rec ∈ records c db ↔ view c db rec.address = some rec := by
  simp only [records,List.mem_filterMap,Prod.exists,Table.mem_iter,view]
  constructor
  · rintro ⟨k,v,hv,hd⟩
    have hr : row c db k = some rec := by simp [row,hv,hd]
    rw [← hk k rec hr,hr]
  · intro h
    obtain ⟨v,hv,hd⟩ := row_eq_some.mp h
    exact ⟨_,v,hv,by simp [hd,Except.toOption]⟩

theorem records_address_nodup {db : Db} (hk : Keyed c db) :
    ((records c db).map (·.address)).Nodup := by
  have hrow : ∀ p ∈ db.peers.iter, ∀ rec, (c.decodeRecord p.2).toOption = some rec →
      p.1 = c.encodeKey rec.address := by
    rintro ⟨k,v⟩ hm rec hd
    rw [Table.mem_iter] at hm
    exact hk k rec (by simp [row,hm,hd])
  have hnd := db.peers.iter_nodup
  unfold records
  generalize db.peers.iter = rows at hrow hnd
  induction rows with
  | nil => simp
  | cons p rows ih =>
    rw [List.map_cons,List.nodup_cons] at hnd
    have ih := ih (fun q hq => hrow q (by simp [hq])) hnd.2
    rw [List.filterMap_cons]
    split
    · exact ih
    · next rec hd =>
      rw [List.map_cons,List.nodup_cons]
      refine ⟨?_,ih⟩
      intro hm
      obtain ⟨rec',hm',ha⟩ := List.mem_map.mp hm
      obtain ⟨q,hq,hd'⟩ := List.mem_filterMap.mp hm'
      have hpq : p.1 = q.1 := by
        rw [hrow p (by simp) rec hd,hrow q (by simp [hq]) rec' hd',ha]
      exact hnd.1 (hpq ▸ List.mem_map_of_mem hq)

end PeerStore

end DnsSeeder
