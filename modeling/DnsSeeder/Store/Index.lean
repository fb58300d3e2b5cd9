import DnsSeeder.Lib.Run
import DnsSeeder.Store.PeerStore

namespace DnsSeeder

open Lib

namespace PeerStore

variable {c : Codec}

def row (c : Codec) (db : Db) (key : Bytes) : Option PeerRecord :=
  (db.peers.get key).bind (fun v => (c.decodeRecord v).toOption)

def unindex (idx : Multimap Int64 Bytes) (key : Bytes) : Option PeerRecord → Multimap Int64 Bytes
  | some rec => idx.remove rec.lastAttemptMs key
  | none => idx

def put (c : Codec) (key : Bytes) (rec : PeerRecord) (db : Db) : Db :=
  ⟨db.peers.insert key (c.encodeRecord rec),
    (unindex db.attemptIdx key (row c db key)).insert rec.lastAttemptMs key⟩

def drop (c : Codec) (key : Bytes) (db : Db) : Db :=
  ⟨db.peers.remove key,unindex db.attemptIdx key (row c db key)⟩

structure Exact (c : Codec) (db : Db) : Prop where
  decodes : ∀ k v, db.peers.get k = some v → ∃ rec, c.decodeRecord v = .ok rec
  index : ∀ t k, (t,k) ∈ db.attemptIdx ↔ ∃ rec, row c db k = some rec ∧ rec.lastAttemptMs = t

theorem row_eq_some {db : Db} {k : Bytes} {rec : PeerRecord} :
    row c db k = some rec ↔ ∃ v, db.peers.get k = some v ∧ c.decodeRecord v = .ok rec := by
  simp only [row,Option.bind_eq_some_iff]
  constructor
  · rintro ⟨v,hv,hr⟩
    refine ⟨v,hv,?_⟩
    cases hd : c.decodeRecord v with
    | error e => simp [hd,Except.toOption] at hr
    | ok r => simpa [hd,Except.toOption] using hr
  · rintro ⟨v,hv,hr⟩
    exact ⟨v,hv,by simp [hr,Except.toOption]⟩

theorem row_congr {db db' : Db} {k : Bytes} (h : db.peers.get k = db'.peers.get k) :
    row c db k = row c db' k := by
  simp [row,h]

theorem row_of_get_none {db : Db} {k : Bytes} (h : db.peers.get k = none) : row c db k = none := by
  simp [row,h]

theorem row_of_decode {db : Db} {k v : Bytes} {rec : PeerRecord} (hv : db.peers.get k = some v)
    (hd : c.decodeRecord v = .ok rec) : row c db k = some rec :=
  row_eq_some.mpr ⟨v,hv,hd⟩

theorem row_insert (db : Db) (idx : Multimap Int64 Bytes) (key k : Bytes) (rec : PeerRecord) :
    row c ⟨db.peers.insert key (c.encodeRecord rec),idx⟩ k = if key = k then some rec else row c db k := by
  by_cases h : key = k
  · simp [row,h,Except.toOption]
  · simp [row,h]

theorem row_remove (db : Db) (idx : Multimap Int64 Bytes) (key k : Bytes) :
    row c ⟨db.peers.remove key,idx⟩ k = if key = k then none else row c db k := by
  by_cases h : key = k <;> simp [row,h]

theorem row_put (db : Db) (key k : Bytes) (rec : PeerRecord) :
    row c (put c key rec db) k = if key = k then some rec else row c db k :=
  row_insert db _ key k rec

theorem row_drop (db : Db) (key k : Bytes) :
    row c (drop c key db) k = if key = k then none else row c db k :=
  row_remove db _ key k

theorem mem_unindex (idx : Multimap Int64 Bytes) (key : Bytes) (old : Option PeerRecord)
    (p : Int64 × Bytes) :
    p ∈ unindex idx key old ↔ p ∈ idx ∧ ∀ rec, old = some rec → p ≠ (rec.lastAttemptMs,key) := by
  cases old with
  | none => simp [unindex]
  | some rec => simp [unindex,and_comm]

theorem exact_of_rows {db : Db} {peers : Table Bytes Bytes} {idx : Multimap Int64 Bytes}
    (key : Bytes) (new : Option PeerRecord) (hx : Exact c db)
    (hget : ∀ k, k ≠ key → peers.get k = db.peers.get k)
    (hdec : ∀ v, peers.get key = some v → ∃ rec, c.decodeRecord v = .ok rec)
    (hrow : row c ⟨peers,idx⟩ key = new)
    (hidx : ∀ t k, (t,k) ∈ idx ↔ (k ≠ key ∧ (t,k) ∈ db.attemptIdx) ∨
      (k = key ∧ ∃ rec, new = some rec ∧ rec.lastAttemptMs = t)) :
    Exact c ⟨peers,idx⟩ := by
  constructor
  · intro k v hv
    by_cases hk : k = key
    · subst hk
      exact hdec v hv
    · exact hx.decodes k v ((hget k hk).symm.trans hv)
  · intro t k
    rw [hidx]
    by_cases hk : k = key
    · subst hk
      simp [hrow]
    · have hr : row c ⟨peers,idx⟩ k = row c db k := row_congr (hget k hk)
      simp [hk,hr,hx.index]

theorem exact_unindexed {db : Db} (hx : Exact c db) (key : Bytes) (t : Int64) (k : Bytes) :
    (t,k) ∈ unindex db.attemptIdx key (row c db key) ↔ k ≠ key ∧ (t,k) ∈ db.attemptIdx := by
  rw [mem_unindex]
  constructor
  · rintro ⟨hm,hne⟩
    refine ⟨?_,hm⟩
    rintro rfl
    obtain ⟨rec,hr,ht⟩ := (hx.index t k).mp hm
    exact hne rec hr (by rw [ht])
  · rintro ⟨hk,hm⟩
    refine ⟨hm,?_⟩
    intro rec _ he
    exact hk (congrArg Prod.snd he)

theorem exact_put {db : Db} (hx : Exact c db) (key : Bytes) (rec : PeerRecord) :
    Exact c (put c key rec db) := by
  refine exact_of_rows key (some rec) hx ?_ ?_ ?_ ?_
  · intro k hk
    simp [Ne.symm hk]
  · intro v hv
    simp only [Table.get_insert,if_true,Option.some.injEq] at hv
    exact ⟨rec,by rw [← hv,c.decode_encode]⟩
  · rw [row_insert,if_pos rfl]
  · intro t k
    rw [Multimap.mem_insert,exact_unindexed hx]
    simp only [Prod.mk.injEq,Option.some.injEq,exists_eq_left']
    rw [or_comm,and_comm (a := t = _),eq_comm (a := t)]

theorem exact_drop {db : Db} (hx : Exact c db) (key : Bytes) : Exact c (drop c key db) := by
  refine exact_of_rows key none hx ?_ ?_ ?_ ?_
  · intro k hk
    simp [Ne.symm hk]
  · intro v hv
    simp at hv
  · rw [row_remove,if_pos rfl]
  · intro t k
    rw [exact_unindexed hx]
    simp

theorem upsert_eq_put (rec : PeerRecord) (db : Db) :
    upsert c rec db = put c (c.encodeKey rec.address) rec db := by
  apply Db.ext
  · intro k; rfl
  · intro p
    simp only [upsert,put,Multimap.mem_insert]
    cases hv : db.peers.get (c.encodeKey rec.address) with
    | none => simp [row,hv,unindex]
    | some v =>
      cases hd : c.decodeRecord v with
      | error e => simp [row,hv,hd,unindex,Except.toOption]
      | ok old =>
        simp only [row,hv,hd,unindex,Except.toOption,Option.map_some,Option.bind_some]
        by_cases he : old.lastAttemptMs = rec.lastAttemptMs
        · simp only [he,ne_eq,not_true_eq_false,if_false,Multimap.mem_remove]
          tauto
        · simp [he]

theorem delete_eq_drop (addr : NetAddress) (db : Db) :
    (delete c addr db).2 = drop c (c.encodeKey addr) db := by
  apply Db.ext
  · intro k
    cases hv : db.peers.get (c.encodeKey addr) with
    | some v => simp [delete,drop,hv]
    | none =>
      simp only [delete,drop,hv,Table.get_remove]
      split
      · next h => rw [← h,hv]
      · rfl
  · intro p
    cases hv : db.peers.get (c.encodeKey addr) with
    | none => simp [delete,drop,row,hv,unindex]
    | some v =>
      cases hd : c.decodeRecord v <;>
        simp [delete,drop,row,hv,hd,unindex,Except.toOption]

theorem recordAttempt_ok {addr : NetAddress} {now : Int64} {db db' : Db} {rec : PeerRecord}
    (h : recordAttempt c addr now db = .ok (rec,db')) :
    rec = { (row c db (c.encodeKey addr)).getD (attemptStub addr now) with lastAttemptMs := now } ∧
      db' = put c (c.encodeKey addr) rec db := by
  cases hv : db.peers.get (c.encodeKey addr) with
  | none =>
    simp only [recordAttempt,hv,pure,Except.pure] at h
    obtain ⟨rfl,rfl⟩ := h
    simp [put,row,hv,unindex]
  | some v =>
    cases hd : c.decodeRecord v with
    | error e => simp [recordAttempt,hv,hd,bind,Except.bind] at h
    | ok old =>
      simp only [recordAttempt,hv,hd,bind,Except.bind,pure,Except.pure,Except.ok.injEq,
        Prod.mk.injEq] at h
      obtain ⟨rfl,rfl⟩ := h
      refine ⟨by simp [row,hv,hd,Except.toOption],?_⟩
      apply Db.ext
      · intro k; rfl
      · intro p
        simp only [put,row,hv,hd,unindex,Except.toOption,Option.bind_some,Multimap.mem_insert]
        by_cases he : old.lastAttemptMs = now
        · simp only [he,ne_eq,not_true_eq_false,if_false,Multimap.mem_remove]
          tauto
        · simp [he]

def seenRecord (addr : NetAddress) (now : Int64) : Option PeerRecord → PeerRecord
  | some rec => { rec with lastSeenMs := now }
  | none => seenStub addr now

theorem refreshSeen_ok {now : Int64} {n n' : Nat} {db db' : Db} {addr : NetAddress}
    (hx : Exact c db) (h : refreshSeen c now (n,db) addr = .ok (n',db')) :
    db' = put c (c.encodeKey addr) (seenRecord addr now (row c db (c.encodeKey addr))) db := by
  cases hv : db.peers.get (c.encodeKey addr) with
  | none =>
    simp only [refreshSeen,hv,pure,Except.pure,Except.ok.injEq,Prod.mk.injEq] at h
    obtain ⟨_,rfl⟩ := h
    simp [put,row,hv,unindex,seenRecord,seenStub]
  | some v =>
    obtain ⟨old,hd⟩ := hx.decodes _ _ hv
    have hr := row_of_decode hv hd
    have hm := (hx.index old.lastAttemptMs (c.encodeKey addr)).mpr ⟨old,hr,rfl⟩
    simp only [refreshSeen,hv,hd,bind,Except.bind,pure,Except.pure,Except.ok.injEq,
      Prod.mk.injEq] at h
    obtain ⟨_,rfl⟩ := h
    rw [hr]
    apply Db.ext
    · intro k; rfl
    · intro p
      simp only [put,hr,unindex,seenRecord,Multimap.mem_insert,Multimap.mem_remove]
      by_cases hp : p = (old.lastAttemptMs,c.encodeKey addr)
      · simp [hp,hm]
      · simp [hp]

theorem exact_batch {now : Int64} {addrs : List NetAddress} {acc acc' : Nat × Db}
    (hx : Exact c acc.2) (h : addrs.foldlM (refreshSeen c now) acc = .ok acc') :
    Exact c acc'.2 := by
  refine except_foldlM_invariant (fun _ acc => Exact c acc.2) ?_ hx h
  intro _ addr acc acc₁ hx hs
  rw [refreshSeen_ok hx hs]
  exact exact_put hx _ _

theorem removeRow_eq_drop {db : Db} (key : Bytes) {rec : PeerRecord}
    (h : row c db key = some rec) : removeRow db (key,rec.lastAttemptMs) = drop c key db := by
  simp [removeRow,drop,h,unindex]

theorem mem_deadRows {cutoff : Int64} {db : Db} {key : Bytes} {t : Int64}
    (h : (key,t) ∈ db.peers.iter.filterMap (deadRow c cutoff)) :
    ∃ rec, row c db key = some rec ∧ rec.lastAttemptMs = t ∧ isDead rec cutoff = true := by
  obtain ⟨⟨k,v⟩,hm,hd⟩ := List.mem_filterMap.mp h
  rw [Table.mem_iter] at hm
  cases hr : c.decodeRecord v with
  | error e => simp [deadRow,hr] at hd
  | ok rec =>
    simp only [deadRow,hr] at hd
    split at hd
    · next hdead =>
      simp only [Option.some.injEq,Prod.mk.injEq] at hd
      obtain ⟨rfl,rfl⟩ := hd
      exact ⟨rec,row_of_decode hm hr,rfl,hdead⟩
    · simp at hd

theorem deadRows_nodup (cutoff : Int64) (db : Db) :
    ((db.peers.iter.filterMap (deadRow c cutoff)).map Prod.fst).Nodup := by
  have hsub : ((db.peers.iter.filterMap (deadRow c cutoff)).map Prod.fst).Sublist
      (db.peers.iter.map Prod.fst) := by
    generalize db.peers.iter = rows
    induction rows with
    | nil => simp
    | cons r rows ih =>
      rw [List.filterMap_cons,List.map_cons]
      split
      · exact ih.cons _
      · next e he =>
        have hk : e.1 = r.1 := by
          simp only [deadRow] at he
          split at he
          · split at he
            · rw [← Option.some.inj he]
            · simp at he
          · simp at he
        rw [List.map_cons,hk]
        exact ih.cons_cons _
  exact hsub.nodup db.peers.iter_nodup

theorem exact_removeRows {db : Db} (hx : Exact c db) (entries : List (Bytes × Int64))
    (hnd : (entries.map Prod.fst).Nodup)
    (hrow : ∀ e ∈ entries, ∃ rec, row c db e.1 = some rec ∧ rec.lastAttemptMs = e.2) :
    Exact c (entries.foldl removeRow db) := by
  induction entries generalizing db with
  | nil => exact hx
  | cons e entries ih =>
    rw [List.map_cons,List.nodup_cons] at hnd
    obtain ⟨rec,hr,ht⟩ := hrow e (by simp)
    have he : removeRow db e = drop c e.1 db := by
      rw [← removeRow_eq_drop e.1 hr,ht]
    rw [List.foldl_cons,he]
    refine ih (exact_drop hx e.1) hnd.2 ?_
    intro e' he'
    obtain ⟨rec',hr',ht'⟩ := hrow e' (by simp [he'])
    have hne : e.1 ≠ e'.1 := fun heq => hnd.1 (heq ▸ List.mem_map_of_mem he')
    exact ⟨rec',by rw [row_drop,if_neg hne,hr'],ht'⟩

theorem exact_pruneDead {db : Db} (hx : Exact c db) (cutoff : Int64) :
    Exact c (pruneDead c cutoff db).2 := by
  refine exact_removeRows hx _ (deadRows_nodup cutoff db) ?_
  rintro ⟨key,t⟩ he
  obtain ⟨rec,hr,ht,_⟩ := mem_deadRows he
  exact ⟨rec,hr,ht⟩

theorem purged_decodes (db : Db) (k v : Bytes)
    (h : (purgeUndecodable c db).2.peers.get k = some v) : ∃ rec, c.decodeRecord v = .ok rec := by
  simp only [purgeUndecodable,Table.get_removeAll] at h
  split at h
  · simp at h
  · next hk =>
    cases hd : c.decodeRecord v with
    | ok rec => exact ⟨rec,rfl⟩
    | error e =>
      exact absurd (List.mem_filterMap.mpr ⟨(k,v),by simpa using h,by simp [hd]⟩) hk

theorem mem_indexRows (rows : List (Bytes × Bytes)) (acc : Nat × Multimap Int64 Bytes)
    (t : Int64) (k : Bytes) :
    (t,k) ∈ (rows.foldl (indexRow c) acc).2 ↔ (t,k) ∈ acc.2 ∨
      ∃ v rec, (k,v) ∈ rows ∧ c.decodeRecord v = .ok rec ∧ rec.lastAttemptMs = t := by
  induction rows generalizing acc with
  | nil => simp
  | cons r rows ih =>
    rw [List.foldl_cons,ih]
    obtain ⟨k₀,v₀⟩ := r
    cases hd : c.decodeRecord v₀ with
    | error e =>
      simp only [indexRow,hd,List.mem_cons,Prod.mk.injEq]
      refine or_congr_right ⟨?_,?_⟩
      · rintro ⟨v,rec,hm,hr,ht⟩
        exact ⟨v,rec,Or.inr hm,hr,ht⟩
      · rintro ⟨v,rec,⟨_,rfl⟩ | hm,hr,ht⟩
        · simp [hd] at hr
        · exact ⟨v,rec,hm,hr,ht⟩
    | ok rec₀ =>
      simp only [indexRow,hd,Multimap.mem_insert,Prod.mk.injEq,List.mem_cons]
      constructor
      · rintro ((⟨rfl,rfl⟩ | hm) | ⟨v,rec,hm,hr,ht⟩)
        · exact Or.inr ⟨v₀,rec₀,Or.inl ⟨rfl,rfl⟩,hd,rfl⟩
        · exact Or.inl hm
        · exact Or.inr ⟨v,rec,Or.inr hm,hr,ht⟩
      · rintro (hm | ⟨v,rec,⟨rfl,rfl⟩ | hm,hr,ht⟩)
        · exact Or.inl (Or.inr hm)
        · rw [hd,Except.ok.injEq] at hr
          exact Or.inl (Or.inl ⟨by rw [← ht,hr],rfl⟩)
        · exact Or.inr ⟨v,rec,hm,hr,ht⟩

theorem exact_rebuild {db : Db} (hd : ∀ k v, db.peers.get k = some v → ∃ rec, c.decodeRecord v = .ok rec) :
    Exact c (rebuildAttemptIndex c db).2 := by
  refine ⟨hd,?_⟩
  intro t k
  simp only [rebuildAttemptIndex,mem_indexRows,Multimap.not_mem_empty,false_or,Table.mem_iter,
    row_eq_some]
  constructor
  · rintro ⟨v,rec,hv,hr,ht⟩
    exact ⟨rec,⟨v,hv,hr⟩,ht⟩
  · rintro ⟨rec,⟨v,hv,hr⟩,ht⟩
    exact ⟨v,rec,hv,hr,ht⟩

theorem exact_open (file : DatabaseFile) : Exact c (openStore c file) :=
  exact_rebuild (purged_decodes _)

inductive StoreOp where
  | upsert (rec : PeerRecord)
  | delete (addr : NetAddress)
  | recordAttempt (addr : NetAddress) (nowMs : Int64)
  | insertOrRefreshSeenBatch (addrs : List NetAddress) (nowMs : Int64)
  | pruneDead (cutoffMs : Int64)

def commit {α : Type} (db : Db) : Except Error (α × Db) → Db
  | .ok (_,db') => db'
  | .error _ => db

def exec (c : Codec) (db : Db) : StoreOp → Db
  | .upsert rec => PeerStore.upsert c rec db
  | .delete addr => (PeerStore.delete c addr db).2
  | .recordAttempt addr now => commit db (PeerStore.recordAttempt c addr now db)
  | .insertOrRefreshSeenBatch addrs now => commit db (PeerStore.insertOrRefreshSeenBatch c addrs now db)
  | .pruneDead cutoff => (PeerStore.pruneDead c cutoff db).2

theorem exact_exec {db : Db} (hx : Exact c db) (op : StoreOp) : Exact c (exec c db op) := by
  cases op with
  | upsert rec =>
    simp only [exec,upsert_eq_put]
    exact exact_put hx _ _
  | delete addr =>
    simp only [exec,delete_eq_drop]
    exact exact_drop hx _
  | recordAttempt addr now =>
    simp only [exec]
    cases h : PeerStore.recordAttempt c addr now db with
    | error e => exact hx
    | ok r =>
      simp only [commit]
      rw [(recordAttempt_ok h).2]
      exact exact_put hx _ _
  | insertOrRefreshSeenBatch addrs now =>
    simp only [exec]
    cases h : PeerStore.insertOrRefreshSeenBatch c addrs now db with
    | error e => exact hx
    | ok r => exact exact_batch hx h
  | pruneDead cutoff => exact exact_pruneDead hx cutoff

inductive OpenStage where
  | created
  | purged

def interruptedOpen (c : Codec) (db : Db) : OpenStage → Db
  | .created => db
  | .purged => (purgeUndecodable c db).2

inductive StoreStep where
  | op (op : StoreOp)
  | crash (interrupted : List OpenStage)

def step (c : Codec) (db : Db) : StoreStep → Db
  | .op op => exec c db op
  | .crash interrupted => openStore c (.compatible (interrupted.foldl (interruptedOpen c) db))

theorem exact_run (file : DatabaseFile) (steps : List StoreStep) :
    Exact c (steps.foldl (step c) (openStore c file)) := by
  induction steps using List.reverseRecOn with
  | nil => exact exact_open file
  | append_singleton steps s ih =>
    rw [List.foldl_append]
    cases s with
    | op op => exact exact_exec ih op
    | crash interrupted => exact exact_open _

theorem attempt_index_exact (c : Codec) (file : DatabaseFile) (steps : List StoreStep) :
    let db := steps.foldl (step c) (openStore c file)
    (∀ k v, db.peers.get k = some v → ∃ rec, c.decodeRecord v = .ok rec) ∧
    (∀ t k, (t,k) ∈ db.attemptIdx ↔
      ∃ v rec, db.peers.get k = some v ∧ c.decodeRecord v = .ok rec ∧ rec.lastAttemptMs = t) ∧
    (∀ t t' k, (t,k) ∈ db.attemptIdx → (t',k) ∈ db.attemptIdx → t = t') := by
  intro db
  have hx : Exact c db := exact_run file steps
  refine ⟨hx.decodes,?_,?_⟩
  · intro t k
    rw [hx.index]
    constructor
    · rintro ⟨rec,hr,ht⟩
      obtain ⟨v,hv,hd⟩ := row_eq_some.mp hr
      exact ⟨v,rec,hv,hd,ht⟩
    · rintro ⟨v,rec,hv,hd,ht⟩
      exact ⟨rec,row_of_decode hv hd,ht⟩
  · intro t t' k h h'
    obtain ⟨rec,hr,rfl⟩ := (hx.index t k).mp h
    obtain ⟨rec',hr',rfl⟩ := (hx.index t' k).mp h'
    rw [hr,Option.some.injEq] at hr'
    rw [hr']

end PeerStore

end DnsSeeder
