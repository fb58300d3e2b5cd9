import DnsSeeder.Store.View
import DnsSeeder.Lib.TopK

namespace DnsSeeder

open Lib

structure Version where
  major : UInt64
  minor : UInt64
  patch : UInt64
  pre : String
  build : String
deriving DecidableEq

def Version.coreGe (v min : Version) : Bool :=
  decide (min.major < v.major) || (v.major == min.major &&
    (decide (min.minor < v.minor) || (v.minor == min.minor && decide (min.patch ≤ v.patch))))

structure Semver where
  parse : String → Option Version

def isWhitespace (ch : Char) : Bool :=
  let n := ch.toNat
  (0x9 ≤ n && n ≤ 0xd) || n == 0x20 || n == 0x85 || n == 0xa0 || n == 0x1680 ||
    (0x2000 ≤ n && n ≤ 0x200a) || n == 0x2028 || n == 0x2029 || n == 0x202f || n == 0x205f || n == 0x3000

def trim (chars : List Char) : List Char :=
  ((chars.dropWhile isWhitespace).reverse.dropWhile isWhitespace).reverse

def trimmed (s : String) : String := String.ofList (trim s.toList)

def kaspadAgent : List Char := "/kaspad:".toList

def stripAgent (chars : List Char) : Option (List Char) :=
  if kaspadAgent.isPrefixOf chars then some (chars.drop kaspadAgent.length) else none

def PeerRecord.parseKaspadVersion (semver : Semver) (userAgent : String) : Option Version :=
  (stripAgent userAgent.toList).bind (fun rest =>
    let segment := rest.takeWhile (· ≠ '/')
    let v := trim (segment.takeWhile (· ≠ '('))
    semver.parse (String.ofList v))

inductive Family where
  | v4
  | v6
deriving DecidableEq

def Family.contains : Family → IpAddr → Bool
  | .v4,.v4 _ => true
  | .v6,.v6 _ => true
  | _,_ => false

structure Filter where
  nowMs : Int64
  deadAfterMs : Int64
  staleGoodMs : Option Int64
  family : Option Family
  minProtocolVersion : Option UInt32
  minUserAgent : Option Version
  defaultPort : Option UInt16

namespace Filter

def serving (nowMs staleGoodMs : Int64) (minProtocolVersion : Option UInt32)
    (minUserAgent : Option Version) (family : Option Family) (defaultPort : Option UInt16) : Filter where
  nowMs := nowMs
  deadAfterMs := Int64.maxValue
  staleGoodMs := some staleGoodMs
  family := family
  minProtocolVersion := minProtocolVersion
  minUserAgent := minUserAgent
  defaultPort := defaultPort

def passesValidity (semver : Semver) (f : Filter) (rec : PeerRecord) : Bool :=
  (match f.minProtocolVersion with
    | some min => !decide (rec.protocolVersion < min)
    | none => true) &&
  (match f.minUserAgent with
    | some min =>
        match PeerRecord.parseKaspadVersion semver rec.userAgent.val with
        | some v => v.coreGe min
        | none => false
    | none => true) &&
  (match f.defaultPort with
    | some port => !decide (rec.address.port ≠ port)
    | none => true)

def exceeds (nowMs stampMs windowMs : Int64) : Option Bool :=
  (checkedSub nowMs stampMs).map (fun age => decide (age > windowMs))

def stale (f : Filter) (rec : PeerRecord) : Option Bool :=
  match f.staleGoodMs with
  | some staleGood => exceeds f.nowMs rec.lastSuccessMs staleGood
  | none => some false

def familyOk (f : Filter) (rec : PeerRecord) : Bool :=
  match f.family with
  | some family => family.contains rec.address.ip
  | none => true

def matchesRecord (semver : Semver) (f : Filter) (rec : PeerRecord) : Option Bool :=
  match exceeds f.nowMs rec.lastSeenMs f.deadAfterMs with
  | none => none
  | some true => some false
  | some false =>
      match f.stale rec with
      | none => none
      | some true => some false
      | some false =>
          some (f.familyOk rec && f.passesValidity semver rec)

theorem exceeds_eq {now stamp window : Int64} {b : Bool} (h : exceeds now stamp window = some b) :
    b = decide (window.toInt < now.toInt - stamp.toInt) := by
  obtain ⟨age,ha,rfl⟩ := Option.map_eq_some_iff.mp h
  rw [← checked_eq_some ha]
  simp only [gt_iff_lt,int64_lt_iff]

theorem exceeds_isSome {now stamp : Int64} (window : Int64) (hnow : 0 ≤ now) (hstamp : 0 ≤ stamp) :
    (exceeds now stamp window).isSome := by
  have hn := now.toInt_lt
  have hs := stamp.toInt_lt
  have h0 : (0 : Int64).toInt = 0 := rfl
  rw [int64_le_iff,h0] at hnow hstamp
  rw [exceeds,checkedSub,checked_of_range (by omega) (by omega)]
  rfl

theorem matchesRecord_true {semver : Semver} {f : Filter} {rec : PeerRecord} :
    f.matchesRecord semver rec = some true ↔
      exceeds f.nowMs rec.lastSeenMs f.deadAfterMs = some false ∧ f.stale rec = some false ∧
      f.familyOk rec = true ∧ f.passesValidity semver rec = true := by
  unfold matchesRecord
  split
  · next h => simp [h]
  · next h => simp [h]
  · next h =>
    split
    · next hs => simp [h,hs]
    · next hs => simp [h,hs]
    · next hs => simp [h,hs]

theorem matchesRecord_isSome (semver : Semver) {f : Filter} {rec : PeerRecord} (hnow : 0 ≤ f.nowMs)
    (hseen : 0 ≤ rec.lastSeenMs) (hsuccess : 0 ≤ rec.lastSuccessMs) :
    (f.matchesRecord semver rec).isSome := by
  have hstale : (f.stale rec).isSome := by
    rw [stale]
    split
    · exact exceeds_isSome _ hnow hsuccess
    · rfl
  obtain ⟨seen,hb⟩ := Option.isSome_iff_exists.mp (exceeds_isSome f.deadAfterMs hnow hseen)
  obtain ⟨stale,hb'⟩ := Option.isSome_iff_exists.mp hstale
  cases seen <;> cases stale <;> simp [matchesRecord,hb,hb']

end Filter

def PeerStore.collectMatching (c : Codec) (semver : Semver) (filter : Filter) (db : Db) :
    Option (List PeerRecord) :=
  filterChecked (filter.matchesRecord semver) (records c db)

end DnsSeeder
