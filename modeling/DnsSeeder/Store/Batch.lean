import DnsSeeder.Store.FullScan

namespace DnsSeeder

open Lib

namespace PeerStore

structure Refreshed (c : Codec) (now : Int64) (db : Db) (addrs : List NetAddress) (inserted : Nat) (db' : Db) :
    Prop where
  inserted : inserted = (addrs.toFinset.filter (fun a => view c db a = none)).card
  listed : ∀ a ∈ addrs, db'.peers.get (c.encodeKey a) =
    some (c.encodeRecord (seenRecord a now (view c db a)))
  others : ∀ key, (∀ a ∈ addrs, key ≠ c.encodeKey a) → db'.peers.get key = db.peers.get key
  index : ∀ t key, (t,key) ∈ db'.attemptIdx ↔ (t,key) ∈ db.attemptIdx ∨
    (t = 0 ∧ ∃ a ∈ addrs, view c db a = none ∧ key = c.encodeKey a)

variable {c : Codec} {now : Int64} {n : Nat} {db db' : Db} {addr : NetAddress} {addrs : List NetAddress}

theorem refreshSeen_new (n : Nat) (h : db.peers.get (c.encodeKey addr) = none) :
    refreshSeen c now (n,db) addr = .ok (n + 1,
      ⟨db.peers.insert (c.encodeKey addr) (c.encodeRecord (seenStub addr now)),
        db.attemptIdx.insert 0 (c.encodeKey addr)⟩) := by
  simp only [refreshSeen,h]
  rfl

theorem refreshSeen_known {v : Bytes} {rec : PeerRecord} (n : Nat)
    (h : db.peers.get (c.encodeKey addr) = some v) (hd : c.decodeRecord v = .ok rec) :
    refreshSeen c now (n,db) addr = .ok (n,{ db with
      peers := db.peers.insert (c.encodeKey addr) (c.encodeRecord { rec with lastSeenMs := now }) }) := by
  simp only [refreshSeen,h,hd]
  rfl

theorem refreshSeen_undecodable {v : Bytes} {e : Error} (n : Nat)
    (h : db.peers.get (c.encodeKey addr) = some v) (hd : c.decodeRecord v = .error e) :
    refreshSeen c now (n,db) addr = .error e := by
  simp only [refreshSeen,h,hd]
  rfl

theorem refreshSeen_cases {n' : Nat} (h : refreshSeen c now (n,db) addr = .ok (n',db')) :
    (db.peers.get (c.encodeKey addr) = none ∧ n' = n + 1 ∧
      db' = ⟨db.peers.insert (c.encodeKey addr) (c.encodeRecord (seenStub addr now)),
        db.attemptIdx.insert 0 (c.encodeKey addr)⟩) ∨
    ∃ v rec, db.peers.get (c.encodeKey addr) = some v ∧ c.decodeRecord v = .ok rec ∧ n' = n ∧
      db' = { db with
        peers := db.peers.insert (c.encodeKey addr) (c.encodeRecord { rec with lastSeenMs := now }) } := by
  cases hget : db.peers.get (c.encodeKey addr) with
  | none =>
    rw [refreshSeen_new n hget] at h
    obtain ⟨rfl,rfl⟩ := Prod.mk.inj (Except.ok.inj h)
    exact Or.inl ⟨rfl,rfl,rfl⟩
  | some v =>
    cases hd : c.decodeRecord v with
    | error e =>
      rw [refreshSeen_undecodable n hget hd] at h
      cases h
    | ok rec =>
      rw [refreshSeen_known n hget hd] at h
      obtain ⟨rfl,rfl⟩ := Prod.mk.inj (Except.ok.inj h)
      exact Or.inr ⟨v,rec,rfl,hd,rfl,rfl⟩

theorem refreshed_nil (c : Codec) (now : Int64) (db : Db) : Refreshed c now db [] 0 db :=
  ⟨rfl,by simp,fun _ _ => rfl,by simp⟩

theorem Refreshed.get_fresh (h : Refreshed c now db addrs n db') (hnew : addr ∉ addrs) :
    db'.peers.get (c.encodeKey addr) = db.peers.get (c.encodeKey addr) := by
  refine h.others _ (fun a ha he => hnew ?_)
  rw [c.encodeKey_injective he]
  exact ha

theorem Refreshed.write (h : Refreshed c now db addrs n db') {old : Option PeerRecord}
    (hview : view c db addr = old) {n' : Nat} {idx : Multimap Int64 Bytes}
    (hcount : n' = n + if addr ∉ addrs ∧ old = none then 1 else 0)
    (hidx : ∀ p, p ∈ idx ↔ p ∈ db'.attemptIdx ∨ (old = none ∧ p = (0,c.encodeKey addr))) :
    Refreshed c now db (addrs ++ [addr]) n'
      ⟨db'.peers.insert (c.encodeKey addr) (c.encodeRecord (seenRecord addr now old)),idx⟩ := by
  subst hview
  refine ⟨?_,?_,?_,?_⟩
  · have hset : (addrs ++ [addr]).toFinset = insert addr addrs.toFinset := by
      ext a
      simp
    rw [hcount,h.inserted,hset,Finset.filter_insert]
    split
    · next hcreated =>
      rw [if_pos hcreated.2,Finset.card_insert_of_notMem (by simp [hcreated.1])]
    · next hkept =>
      split
      · next hnone =>
        have hlisted : addr ∈ addrs := by simpa [hnone] using hkept
        rw [Finset.insert_eq_of_mem (by simp [hlisted,hnone]),Nat.add_zero]
      · rw [Nat.add_zero]
  · intro a ha
    rw [Table.get_insert]
    split
    · next he => rw [c.encodeKey_injective he]
    · next hne =>
      rcases List.mem_append.mp ha with ha | ha
      · exact h.listed a ha
      · exact absurd (by rw [List.mem_singleton.mp ha]) hne
  · intro key hkey
    rw [Table.get_insert,if_neg (fun he => hkey addr (by simp) he.symm)]
    exact h.others key (fun a ha => hkey a (by simp [ha]))
  · intro t key
    rw [hidx,h.index]
    simp only [List.mem_append,List.mem_singleton,Prod.mk.injEq]
    constructor
    · rintro ((hold | ⟨rfl,a,ha,hnone,rfl⟩) | ⟨hnone,rfl,rfl⟩)
      · exact Or.inl hold
      · exact Or.inr ⟨rfl,a,Or.inl ha,hnone,rfl⟩
      · exact Or.inr ⟨rfl,addr,Or.inr rfl,hnone,rfl⟩
    · rintro (hold | ⟨rfl,a,ha | rfl,hnone,rfl⟩)
      · exact Or.inl (Or.inl hold)
      · exact Or.inl (Or.inr ⟨rfl,a,ha,hnone,rfl⟩)
      · exact Or.inr ⟨hnone,rfl,rfl⟩

theorem refreshed_snoc {n' : Nat} {db'' : Db} (h : Refreshed c now db addrs n db')
    (hs : refreshSeen c now (n,db') addr = .ok (n',db'')) :
    Refreshed c now db (addrs ++ [addr]) n' db'' := by
  by_cases hlisted : addr ∈ addrs
  · -- an earlier occurrence has already written this row, so it is written again as it stands
    have hrow := h.listed addr hlisted
    rw [refreshSeen_known n hrow (c.decode_encode _)] at hs
    obtain ⟨rfl,rfl⟩ := Prod.mk.inj (Except.ok.inj hs)
    have hsame : { seenRecord addr now (view c db addr) with lastSeenMs := now } =
        seenRecord addr now (view c db addr) := seenRecord_seenRecord addr now _
    rw [hsame]
    refine h.write rfl (by simp [hlisted]) (fun p => ⟨Or.inl,?_⟩)
    rintro (hp | ⟨hnone,rfl⟩)
    · exact hp
    · exact (h.index _ _).mpr (Or.inr ⟨rfl,addr,hlisted,hnone,rfl⟩)
  · have hget := h.get_fresh hlisted
    rcases refreshSeen_cases hs with ⟨hnone,rfl,rfl⟩ | ⟨v,rec,hv,hd,rfl,rfl⟩
    · have hview : view c db addr = none := row_of_get_none (hget ▸ hnone)
      exact h.write hview (by simp [hlisted]) (by simp [or_comm])
    · have hview : view c db addr = some rec := row_of_decode (hget ▸ hv) hd
      exact h.write hview (by simp) (by simp)

theorem refreshed_batch (h : insertOrRefreshSeenBatch c addrs now db = .ok (n,db')) :
    Refreshed c now db addrs n db' := by
  refine except_foldlM_invariant (fun xs (acc : Nat × Db) => Refreshed c now db xs acc.1 acc.2) ?_
    (refreshed_nil c now db) h
  rintro xs x ⟨n,db₁⟩ ⟨n',db₂⟩ hxs hs
  exact refreshed_snoc hxs hs

theorem Refreshed.unique {addrs' : List NetAddress} {n' : Nat} {db'' : Db}
    (h : Refreshed c now db addrs n db') (h' : Refreshed c now db addrs' n' db'')
    (hsame : ∀ a, a ∈ addrs' ↔ a ∈ addrs) : n' = n ∧ db'' = db' := by
  have hset : addrs'.toFinset = addrs.toFinset := by
    ext a
    simp [hsame]
  refine ⟨by rw [h.inserted,h'.inserted,hset],Db.ext ?_ ?_⟩
  · intro key
    by_cases hkey : ∃ a ∈ addrs, key = c.encodeKey a
    · obtain ⟨a,ha,rfl⟩ := hkey
      rw [h.listed a ha,h'.listed a ((hsame a).mpr ha)]
    · have hother : ∀ a ∈ addrs, key ≠ c.encodeKey a := fun a ha he => hkey ⟨a,ha,he⟩
      rw [h.others key hother,h'.others key (fun a ha => hother a ((hsame a).mp ha))]
  · rintro ⟨t,key⟩
    rw [h.index,h'.index]
    simp only [hsame]

def seenPeer (n : Nat) : NetAddress := ⟨.v4 (BitVec.ofNat 32 n),16111⟩

end PeerStore

end DnsSeeder
