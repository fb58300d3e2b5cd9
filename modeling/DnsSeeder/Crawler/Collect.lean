import DnsSeeder.Crawler.Probe

namespace DnsSeeder

abbrev PeerAddress := IpAddr × UInt16

def maxAddressesReceive : Nat := 2500

inductive Round where
  | enqueueFailed (err : ProtocolError)
  | receiveFailed (err : ProtocolError)
  | malformed (err : ProtocolError)
  | received (batch : List PeerAddress)

def Round.transportError : Round → Option ProtocolError
  | .enqueueFailed err => some err
  | .receiveFailed err => some err
  | _ => none

def Round.batch : Round → List PeerAddress
  | .received batch => batch
  | _ => []

structure HashOrder where
  toVec : Finset PeerAddress → List PeerAddress
  nodup : ∀ set, (toVec set).Nodup
  mem : ∀ set addr, addr ∈ toVec set ↔ addr ∈ set

namespace ProbeInitializer

def tooMany (count : Nat) : ProtocolError :=
  .other ("address count " ++ toString count ++ " exceeded " ++ toString maxAddressesReceive)

def collectRounds (script : Nat → Round) :
    (remaining round : Nat) → Finset PeerAddress → Except ProtocolError (Finset PeerAddress)
  | 0,_,addressSet => .ok addressSet
  | remaining + 1,round,addressSet =>
      match script round with
      | .enqueueFailed err => if addressSet = ∅ then .error err else .ok addressSet
      | .receiveFailed err => if addressSet = ∅ then .error err else .ok addressSet
      | .malformed err => .error err
      | .received batch =>
          let addressSet := addressSet ∪ batch.toFinset
          if maxAddressesReceive < addressSet.card then .error (tooMany addressSet.card)
          else collectRounds script remaining (round + 1) addressSet

def rounds (probesPerPeer : UInt8) : Nat := max probesPerPeer.toNat 1

def collectAddresses (order : HashOrder) (probesPerPeer : UInt8) (script : Nat → Round) :
    Except ProtocolError (List PeerAddress) :=
  (collectRounds script (rounds probesPerPeer) 0 ∅).map order.toVec

def merged (batches : Nat → List PeerAddress) (k : Nat) : Finset PeerAddress :=
  (Finset.range k).biUnion (fun i => (batches i).toFinset)

variable {script : Nat → Round} {batches : Nat → List PeerAddress}

theorem merged_succ (batches : Nat → List PeerAddress) (k : Nat) :
    merged batches (k + 1) = merged batches k ∪ (batches k).toFinset := by
  rw [merged,Finset.range_add_one,Finset.biUnion_insert,Finset.union_comm]
  rfl

theorem merged_mono {j k : Nat} (h : j ≤ k) : merged batches j ⊆ merged batches k :=
  Finset.biUnion_subset_biUnion_of_subset_left _ (Finset.range_mono h)

theorem collectRounds_received {remaining round : Nat} (h : script round = .received (batches round)) :
    collectRounds script (remaining + 1) round (merged batches round) =
      if maxAddressesReceive < (merged batches (round + 1)).card
      then .error (tooMany (merged batches (round + 1)).card)
      else collectRounds script remaining (round + 1) (merged batches (round + 1)) := by
  rw [collectRounds,h,merged_succ]

theorem collectRounds_fits {remaining round j : Nat}
    (hscript : ∀ i < j, script (round + i) = .received (batches (round + i)))
    (hcard : (merged batches (round + j)).card ≤ maxAddressesReceive) :
    collectRounds script (remaining + j) round (merged batches round) =
      collectRounds script remaining (round + j) (merged batches (round + j)) := by
  induction j generalizing round with
  | zero => rfl
  | succ j ih =>
    have hle : (merged batches (round + 1)).card ≤ maxAddressesReceive :=
      (Finset.card_le_card (merged_mono (by omega))).trans hcard
    have hshift : round + 1 + j = round + (j + 1) := by omega
    have hfirst : script round = .received (batches round) := hscript 0 (Nat.succ_pos _)
    rw [← Nat.add_assoc,collectRounds_received hfirst,if_neg (Nat.not_lt.mpr hle)]
    rw [ih ?_ (hshift ▸ hcard),hshift]
    intro i hi
    have hi := hscript (i + 1) (by omega)
    rwa [← Nat.add_assoc,Nat.add_right_comm] at hi

theorem collectRounds_exceeds {remaining round : Nat}
    (hscript : ∀ i, script i = .received (batches i))
    (hround : (merged batches round).card ≤ maxAddressesReceive)
    (hcard : maxAddressesReceive < (merged batches (round + remaining)).card) :
    ∃ count, collectRounds script remaining round (merged batches round) = .error (tooMany count) := by
  induction remaining generalizing round with
  | zero => exact absurd hcard (Nat.not_lt.mpr hround)
  | succ remaining ih =>
    rw [collectRounds_received (hscript round)]
    split
    · exact ⟨_,rfl⟩
    · next hle => exact ih (Nat.le_of_not_lt hle) (by rwa [Nat.add_right_comm])

theorem collectRounds_failed {remaining round : Nat} {err : ProtocolError} {addressSet : Finset PeerAddress}
    (h : (script round).transportError = some err) :
    collectRounds script (remaining + 1) round addressSet =
      if addressSet = ∅ then .error err else .ok addressSet := by
  rw [collectRounds]
  cases hround : script round with
  | enqueueFailed e =>
    rw [hround] at h
    obtain rfl := Option.some.inj h
    rfl
  | receiveFailed e =>
    rw [hround] at h
    obtain rfl := Option.some.inj h
    rfl
  | malformed e =>
    rw [hround] at h
    cases h
  | received batch =>
    rw [hround] at h
    cases h

theorem merged_nonempty_iff {k : Nat} : merged batches k ≠ ∅ ↔ ∃ i < k, batches i ≠ [] := by
  rw [← Finset.nonempty_iff_ne_empty,merged,Finset.biUnion_nonempty]
  simp [List.toFinset_nonempty_iff]

theorem later_failure_survives_iff (order : HashOrder) (probesPerPeer : UInt8) (script : Nat → Round)
    (batches : Nat → List PeerAddress) (k : Nat) (err : ProtocolError)
    (hlt : k < rounds probesPerPeer) (hscript : ∀ i < k, script i = .received (batches i))
    (hfail : (script k).transportError = some err)
    (hcard : (merged batches k).card ≤ maxAddressesReceive) :
    (∃ out, collectAddresses order probesPerPeer script = .ok out ∧
      ∀ addr, addr ∈ out ↔ addr ∈ merged batches k) ↔ ∃ i < k, batches i ≠ [] := by
  obtain ⟨left,hleft⟩ : ∃ left, rounds probesPerPeer = left + 1 + k := ⟨rounds probesPerPeer - 1 - k,by omega⟩
  have hrun : collectRounds script (rounds probesPerPeer) 0 (merged batches 0) =
      if merged batches k = ∅ then .error err else .ok (merged batches k) := by
    rw [hleft,collectRounds_fits (by simpa using hscript) (by simpa using hcard),Nat.zero_add,
      collectRounds_failed hfail]
  rw [collectAddresses,← merged_nonempty_iff]
  change (∃ out,(collectRounds script _ 0 (merged batches 0)).map order.toVec = .ok out ∧ _) ↔ _
  rw [hrun]
  constructor
  · rintro ⟨out,hout,_⟩ hempty
    rw [if_pos hempty] at hout
    cases hout
  · intro hne
    rw [if_neg hne]
    exact ⟨_,rfl,order.mem _⟩

def replies (batches : Nat → List PeerAddress) (round : Nat) : Round := .received (batches round)

theorem rounds_of_pos {probesPerPeer : UInt8} (h : 1 ≤ probesPerPeer) :
    rounds probesPerPeer = probesPerPeer.toNat :=
  Nat.max_eq_left (UInt8.le_iff_toNat_le.mp h)

theorem collect_replies (order : HashOrder) {n : UInt8}
    (h : (merged batches (rounds n)).card ≤ maxAddressesReceive) :
    collectAddresses order n (replies batches) = .ok (order.toVec (merged batches (rounds n))) := by
  have hrun : collectRounds (replies batches) (0 + rounds n) 0 (merged batches 0) =
      collectRounds (replies batches) 0 (0 + rounds n) (merged batches (0 + rounds n)) :=
    collectRounds_fits (fun _ _ => rfl) (by rwa [Nat.zero_add])
  rw [Nat.zero_add] at hrun
  exact congrArg (Except.map order.toVec) hrun

theorem collect_exceeds (order : HashOrder) {n : UInt8}
    (h : maxAddressesReceive < (merged batches (rounds n)).card) :
    ∃ count, collectAddresses order n (replies batches) = .error (tooMany count) := by
  have hrun : ∃ count, collectRounds (replies batches) (rounds n) 0 (merged batches 0) =
      .error (tooMany count) :=
    collectRounds_exceeds (fun _ => rfl) (Nat.zero_le _) (by rwa [Nat.zero_add])
  obtain ⟨count,hrun⟩ := hrun
  exact ⟨count,congrArg (Except.map order.toVec) hrun⟩

theorem more_rounds_keep_iff (order : HashOrder) (batches : Nat → List PeerAddress) {n m : UInt8}
    (hn : 1 ≤ n) (hnm : n ≤ m) {out : List PeerAddress}
    (hout : collectAddresses order n (replies batches) = .ok out) :
    (∃ out', collectAddresses order m (replies batches) = .ok out' ∧ ∀ addr ∈ out, addr ∈ out') ↔
      (merged batches m.toNat).card ≤ maxAddressesReceive := by
  rw [← rounds_of_pos (UInt8.le_trans hn hnm)]
  have hle : rounds n ≤ rounds m := by
    rw [rounds_of_pos hn,rounds_of_pos (UInt8.le_trans hn hnm)]
    exact UInt8.le_iff_toNat_le.mp hnm
  constructor
  · rintro ⟨out',hout',_⟩
    by_contra hcard
    obtain ⟨count,herr⟩ := collect_exceeds order (Nat.lt_of_not_le hcard)
    cases herr.symm.trans hout'
  · intro hcard
    have hfits := (Finset.card_le_card (merged_mono hle)).trans hcard
    obtain rfl := Except.ok.inj ((collect_replies order hfits).symm.trans hout)
    refine ⟨_,collect_replies order hcard,fun addr haddr => ?_⟩
    rw [order.mem] at haddr ⊢
    exact merged_mono hle haddr

structure Collected (script : Nat → Round) (total k : Nat) (addressSet : Finset PeerAddress) : Prop where
  received : ∀ i < k, ∃ batch, script i = .received batch
  union : addressSet = merged (fun i => (script i).batch) k
  fits : addressSet.card ≤ maxAddressesReceive
  ending : k = total ∨ (k < total ∧ (∃ err, (script k).transportError = some err) ∧ addressSet ≠ ∅)

theorem collected_failed {total round : Nat} {err : ProtocolError} {addressSet out : Finset PeerAddress}
    (hreceived : ∀ i < round, ∃ batch, script i = .received batch)
    (hunion : addressSet = merged (fun i => (script i).batch) round)
    (hfits : addressSet.card ≤ maxAddressesReceive) (hround : round < total)
    (hfail : (script round).transportError = some err)
    (h : (if addressSet = ∅ then .error err else .ok addressSet) = (.ok out : Except ProtocolError _)) :
    Collected script total round out := by
  split at h
  · cases h
  · next hne =>
    obtain rfl := Except.ok.inj h
    exact ⟨hreceived,hunion,hfits,Or.inr ⟨hround,⟨err,hfail⟩,hne⟩⟩

theorem collected_of_ok {remaining round : Nat} {addressSet out : Finset PeerAddress}
    (hreceived : ∀ i < round, ∃ batch, script i = .received batch)
    (hunion : addressSet = merged (fun i => (script i).batch) round)
    (hfits : addressSet.card ≤ maxAddressesReceive)
    (h : collectRounds script remaining round addressSet = .ok out) :
    ∃ k, Collected script (round + remaining) k out := by
  induction remaining generalizing round addressSet with
  | zero =>
    obtain rfl := Except.ok.inj h
    exact ⟨round,hreceived,hunion,hfits,Or.inl rfl⟩
  | succ remaining ih =>
    have hround : round < round + (remaining + 1) := by omega
    rw [collectRounds] at h
    cases hscript : script round with
    | enqueueFailed err =>
      rw [hscript] at h
      have hfail : (script round).transportError = some err := by rw [hscript]; rfl
      exact ⟨round,collected_failed hreceived hunion hfits hround hfail h⟩
    | receiveFailed err =>
      rw [hscript] at h
      have hfail : (script round).transportError = some err := by rw [hscript]; rfl
      exact ⟨round,collected_failed hreceived hunion hfits hround hfail h⟩
    | malformed err =>
      rw [hscript] at h
      cases h
    | received batch =>
      rw [hscript] at h
      dsimp only at h
      split at h
      · cases h
      · next hle =>
        rw [Nat.add_comm remaining 1,← Nat.add_assoc]
        refine ih ?_ ?_ (Nat.le_of_not_lt hle) h
        · intro i hi
          rcases Nat.lt_succ_iff_lt_or_eq.mp hi with hlt | rfl
          · exact hreceived i hlt
          · exact ⟨batch,hscript⟩
        · rw [merged_succ,hunion,hscript]
          rfl

theorem length_toVec (order : HashOrder) (set : Finset PeerAddress) :
    (order.toVec set).length = set.card := by
  rw [← List.toFinset_card_of_nodup (order.nodup set)]
  congr 1
  ext addr
  rw [List.mem_toFinset,order.mem]

def addressKey : PeerAddress → Nat
  | (.v4 ip,port) => ip.toNat * 2^16 + port.toNat
  | (.v6 ip,port) => 2^48 + ip.toNat * 2^16 + port.toNat

theorem addressKey_injective : Function.Injective addressKey := by
  have hparts : ∀ {x y : Nat} {port port' : UInt16}, x * 2^16 + port.toNat = y * 2^16 + port'.toNat →
      x = y ∧ port = port' := by
    intro x y port port' h
    have := port.toNat_lt
    have := port'.toNat_lt
    exact ⟨by omega,UInt16.toNat_inj.mp (by omega)⟩
  rintro ⟨ip | ip,port⟩ ⟨ip' | ip',port'⟩ h
  · obtain ⟨hip,rfl⟩ := hparts h
    rw [BitVec.eq_of_toNat_eq hip]
  · have := ip.isLt
    have := port.toNat_lt
    simp only [addressKey] at h
    omega
  · have := ip'.isLt
    have := port'.toNat_lt
    simp only [addressKey] at h
    omega
  · simp only [addressKey,Nat.add_assoc,Nat.add_left_cancel_iff] at h
    obtain ⟨hip,rfl⟩ := hparts h
    rw [BitVec.eq_of_toNat_eq hip]

def sortedOrder : HashOrder :=
  letI : LinearOrder PeerAddress := LinearOrder.lift' addressKey addressKey_injective
  { toVec := fun set => set.sort (· ≤ ·)
    nodup := fun set => set.sort_nodup (· ≤ ·)
    mem := fun _ _ => Finset.mem_sort (· ≤ ·) }

def gossip (n : Nat) : PeerAddress := (.v4 (BitVec.ofNat 32 n),16111)

def answersThenTimesOut (first : List PeerAddress) : Nat → Round
  | 0 => .received first
  | _ => .receiveFailed (.timeout (.fromSecs 5))

theorem later_failure_survives_iff_one :
    ∃ out, collectAddresses sortedOrder 2 (answersThenTimesOut [gossip 1]) = .ok out ∧
      ∀ addr, addr ∈ out ↔ addr ∈ merged (fun _ => [gossip 1]) 1 := by
  refine (later_failure_survives_iff sortedOrder 2 (answersThenTimesOut [gossip 1]) (fun _ => [gossip 1]) 1
    (.timeout (.fromSecs 5)) (by decide) ?_ rfl (by decide)).mpr ⟨0,by decide,by decide⟩
  intro i hi
  obtain rfl : i = 0 := by omega
  rfl

theorem empty_batch_loses_peer :
    (∃ out, collectAddresses sortedOrder 1 (answersThenTimesOut []) = .ok out) ∧
    collectAddresses sortedOrder 2 (answersThenTimesOut []) = .error (.timeout (.fromSecs 5)) :=
  ⟨⟨_,rfl⟩,rfl⟩

theorem more_rounds_keep_iff_repeat :
    ∃ out', collectAddresses sortedOrder 3 (replies (fun _ => [gossip 1,gossip 2])) = .ok out' ∧
      ∀ addr ∈ sortedOrder.toVec (merged (fun _ => [gossip 1,gossip 2]) 1), addr ∈ out' :=
  (more_rounds_keep_iff sortedOrder (fun _ => [gossip 1,gossip 2]) (n := 1) (m := 3) (by decide) (by decide)
    rfl).mpr (by decide)

def pages (size i : Nat) : List PeerAddress := (List.range' (i * size) size).map gossip

theorem gossip_injOn (size : Nat) (h : size ≤ 2^32) : Set.InjOn gossip (Finset.range size) := by
  intro a ha b hb hab
  simp only [Finset.coe_range,Set.mem_Iio] at ha hb
  have htoNat := congrArg BitVec.toNat (IpAddr.v4.inj (Prod.mk.inj hab).1)
  rw [BitVec.toNat_ofNat,BitVec.toNat_ofNat,Nat.mod_eq_of_lt (by omega),Nat.mod_eq_of_lt (by omega)] at htoNat
  exact htoNat

theorem mem_pages {size i : Nat} {addr : PeerAddress} :
    addr ∈ pages size i ↔ ∃ n, i * size ≤ n ∧ n < (i + 1) * size ∧ gossip n = addr := by
  simp only [pages,List.mem_map,List.mem_range'_1,Nat.succ_mul,and_assoc]

theorem merged_pages (size k : Nat) : merged (pages size) k = (Finset.range (k * size)).image gossip := by
  induction k with
  | zero => rw [Nat.zero_mul]; rfl
  | succ k ih =>
    ext addr
    rw [merged_succ,ih,Finset.mem_union,List.mem_toFinset,mem_pages]
    simp only [Finset.mem_image,Finset.mem_range]
    have hstep : k * size ≤ (k + 1) * size := Nat.mul_le_mul_right _ (Nat.le_succ _)
    constructor
    · rintro (⟨n,hn,rfl⟩ | ⟨n,_,hn,rfl⟩)
      · exact ⟨n,hn.trans_le hstep,rfl⟩
      · exact ⟨n,hn,rfl⟩
    · rintro ⟨n,hn,rfl⟩
      rcases Nat.lt_or_ge n (k * size) with hlt | hge
      · exact Or.inl ⟨n,hlt,rfl⟩
      · exact Or.inr ⟨n,hge,hn,rfl⟩

theorem card_merged_pages {size k : Nat} (h : k * size ≤ 2^32) : (merged (pages size) k).card = k * size := by
  rw [merged_pages,Finset.card_image_of_injOn (gossip_injOn _ h),Finset.card_range]

theorem second_page_loses_peer :
    (∀ i, (pages 2000 i).length ≤ maxAddressesReceive) ∧
    (∃ out, collectAddresses sortedOrder 1 (replies (pages 2000)) = .ok out) ∧
    ∃ count, collectAddresses sortedOrder 2 (replies (pages 2000)) = .error (tooMany count) := by
  refine ⟨?_,?_,?_⟩
  · intro i
    rw [pages,List.length_map,List.length_range']
    decide
  · exact ⟨_,collect_replies sortedOrder (by
      change (merged (pages 2000) 1).card ≤ 2500
      rw [card_merged_pages (by norm_num)]
      norm_num)⟩
  · exact collect_exceeds sortedOrder (by
      change 2500 < (merged (pages 2000) 2).card
      rw [card_merged_pages (by norm_num)]
      norm_num)

end ProbeInitializer

end DnsSeeder
