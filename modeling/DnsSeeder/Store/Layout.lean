import DnsSeeder.Crawler.History
import DnsSeeder.Lib.SelfDelimiting

namespace DnsSeeder

open Lib PeerStore

structure Codec.Delimited (c : Codec) : Prop where
  trailing : ∀ rec extra, c.decodeRecord (c.encodeRecord rec ++ extra) = .ok rec
  short : ∀ rec bytes, bytes <+: c.encodeRecord rec → bytes ≠ c.encodeRecord rec →
    ∃ err, c.decodeRecord bytes = .error err

inductive Laid (c : Codec) : Bytes → Option PeerRecord → Prop
  | whole (rec : PeerRecord) (extra : Bytes) : Laid c (c.encodeRecord rec ++ extra) (some rec)
  | torn {short : Bytes} (rec : PeerRecord) (h : short <+: c.encodeRecord rec)
      (hne : short ≠ c.encodeRecord rec) : Laid c short none

namespace PeerStore

variable {c : Codec}

theorem decode_laid (hc : c.Delimited) {v : Bytes} {was : Option PeerRecord} (h : Laid c v was) :
    (c.decodeRecord v).toOption = was := by
  cases h with
  | whole rec extra =>
    rw [hc.trailing]
    rfl
  | torn rec h hne =>
    obtain ⟨err,herr⟩ := hc.short rec v h hne
    rw [herr]
    rfl

theorem rows_whole_or_purged (c : Codec) (hc : c.Delimited) (db : Db) (was : Bytes → Option PeerRecord)
    (hrows : ∀ key v, db.peers.get key = some v → Laid c v (was key))
    (hnone : ∀ key, db.peers.get key = none → was key = none) (key : Bytes) :
    row c (openStore c (.compatible db)) key = was key ∧
    ((openStore c (.compatible db)).peers.get key = none ↔ was key = none) ∧
    ∀ attempt, (attempt,key) ∈ (openStore c (.compatible db)).attemptIdx ↔
      ∃ rec, was key = some rec ∧ rec.lastAttemptMs = attempt := by
  have hexact : Exact c (openStore c (.compatible db)) := exact_open _
  have hrow : row c (openStore c (.compatible db)) key = was key := by
    refine (System.row_purge c db key).trans ?_
    unfold row
    cases hv : db.peers.get key with
    | none => exact (hnone key hv).symm
    | some v => exact decode_laid hc (hrows key v hv)
  refine ⟨hrow,?_,fun attempt => by rw [← hrow]; exact hexact.index attempt key⟩
  rw [← hrow]
  constructor
  · intro hget
    rw [row,hget]
    rfl
  · intro hgone
    cases hget : (openStore c (.compatible db)).peers.get key with
    | none => rfl
    | some v =>
      obtain ⟨rec,hrec⟩ := hexact.decodes key v hget
      rw [row_eq_some.mpr ⟨v,hget,hrec⟩] at hgone
      cases hgone

end PeerStore

namespace Bincode

open Format

theorem delimits_ipAddr : SelfDelimiting ipAddr := by
  intro bytes a rest h more
  obtain ⟨⟨tag,mid⟩,htag,h⟩ := Option.bind_eq_some_iff.mp h
  refine Option.bind_eq_some_iff.mpr ⟨(tag,mid ++ more),extends_decodeVarint 4 _ _ _ htag more,?_⟩
  match tag with
  | 0 =>
    obtain ⟨⟨ip,left⟩,hip,heq⟩ := Option.map_eq_some_iff.mp h
    obtain ⟨rfl,rfl⟩ := Prod.mk.inj heq
    exact Option.map_eq_some_iff.mpr ⟨(ip,left ++ more),SelfDelimiting.bits 4 _ _ _ hip more,rfl⟩
  | 1 =>
    obtain ⟨⟨ip,left⟩,hip,heq⟩ := Option.map_eq_some_iff.mp h
    obtain ⟨rfl,rfl⟩ := Prod.mk.inj heq
    exact Option.map_eq_some_iff.mpr ⟨(ip,left ++ more),SelfDelimiting.bits 16 _ _ _ hip more,rfl⟩
  | _ + 2 => cases h

theorem delimits_netAddress : SelfDelimiting netAddress :=
  (delimits_ipAddr.pair SelfDelimiting.natBelow.via).via

theorem delimits_int64 : SelfDelimiting Format.int64 := SelfDelimiting.natBelow.via.via

theorem delimits_handshake : SelfDelimiting handshake :=
  SelfDelimiting.pair SelfDelimiting.natBelow.via
    (SelfDelimiting.text.pair ((SelfDelimiting.array 20).option.pair delimits_int64))

theorem delimits_lifecycle : SelfDelimiting lifecycle :=
  delimits_int64.pair (delimits_int64.pair (delimits_int64.pair delimits_int64))

theorem delimits_peerRecord : SelfDelimiting peerRecord :=
  (delimits_netAddress.pair
    ((SelfDelimiting.array 16).pair (delimits_handshake.pair delimits_lifecycle))).via

theorem standard_delimited : standard.Delimited where
  trailing rec extra := by
    change decodeRecord (peerRecord.encode rec ++ extra) = .ok rec
    rw [decodeRecord,peerRecord.decode_encode]
  short rec bytes h hne := by
    refine ⟨.decode,?_⟩
    change decodeRecord bytes = .error .decode
    rw [decodeRecord,delimits_peerRecord.undecodable h hne]

def keptPeer : PeerRecord := seenStub ⟨.v4 1,16111⟩ 5

def tornPeer : PeerRecord := seenStub ⟨.v4 2,16111⟩ 6

def mixedRows : Db :=
  { Db.empty with
    peers := (Db.empty.peers.insert [1] (standard.encodeRecord keptPeer ++ [7])).insert [2]
      ((standard.encodeRecord tornPeer).take 30) }

theorem rows_whole_or_purged_mixed :
    row standard (openStore standard (.compatible mixedRows)) [1] = some keptPeer ∧
    (openStore standard (.compatible mixedRows)).peers.get [2] = none := by
  have hrows : ∀ key v, mixedRows.peers.get key = some v →
      Laid standard v (if key = [1] then some keptPeer else none) := by
    intro key v hv
    simp only [mixedRows,Table.get_insert] at hv
    split at hv
    · next hkey =>
      obtain rfl := Option.some.inj hv
      subst hkey
      exact .torn tornPeer ( List.take_prefix _ _) (by decide)
    · split at hv
      · next hkey =>
        obtain rfl := Option.some.inj hv
        subst hkey
        exact .whole keptPeer [7]
      · cases hv
  have hnone : ∀ key, mixedRows.peers.get key = none → (if key = [1] then some keptPeer else none) = none := by
    intro key hv
    simp only [mixedRows,Table.get_insert] at hv
    split at hv
    · cases hv
    · split at hv
      · cases hv
      · next hkey => exact if_neg (Ne.symm hkey)
  have h := rows_whole_or_purged standard standard_delimited mixedRows
    (fun key => if key = [1] then some keptPeer else none) hrows hnone
  exact ⟨(h [1]).1,(h [2]).2.1.mpr rfl⟩

end Bincode

end DnsSeeder
