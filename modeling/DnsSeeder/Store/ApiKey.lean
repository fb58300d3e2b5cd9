import DnsSeeder.Lib.Run
import DnsSeeder.Store.Bincode
import DnsSeeder.Store.Index

namespace DnsSeeder

open Lib PeerStore

def keyBytes : Nat := 32

def generateApiKey (hexEncode : Bytes → String) (random : Vector UInt8 keyBytes) : String :=
  hexEncode random.toList

def fromUtf8 (bytes : Bytes) : Option String := (Format.decodeChars bytes.length bytes).map String.ofList

structure StoreFile where
  db : Db
  kv : Table Bytes Bytes

namespace StoreFile

def empty : StoreFile := ⟨.empty,.empty⟩

def getBlob (key : String) (s : StoreFile) : Option Bytes := s.kv.get (Format.utf8 key)

def putBlob (key : String) (value : Bytes) (s : StoreFile) : StoreFile :=
  { s with kv := s.kv.insert (Format.utf8 key) value }

end StoreFile

structure Launch where
  apiKey : Option String
  incompatible : Bool
  readFails : Bool
  writeFails : Bool
  random : Vector UInt8 keyBytes

def apiKeyKv : String := "api_key"

namespace Launch

variable (hexEncode : Bytes → String) (c : Codec) (l : Launch)

def openFile (s : StoreFile) : StoreFile :=
  if l.incompatible then { StoreFile.empty with db := openStore c .incompatible }
  else { s with db := openStore c (.compatible s.db) }

def loaded (s : StoreFile) : Option String :=
  if l.readFails then none else (s.getBlob apiKeyKv).bind fromUtf8

def resolveKey (s : StoreFile) : String × StoreFile :=
  match l.apiKey with
  | some key => (key,s)
  | none =>
      match l.loaded s with
      | some key => (key,s)
      | none =>
          let key := generateApiKey hexEncode l.random
          (key,if l.writeFails then s else s.putBlob apiKeyKv (Format.utf8 key))

def run (s : StoreFile) : String × StoreFile := l.resolveKey hexEncode (l.openFile c s)

def keeps : Bool := !l.incompatible && (l.apiKey.isSome || !l.readFails)

end Launch

inductive Life where
  | launch (l : Launch)
  | transaction (op : StoreOp)

namespace Life

def keeps : Life → Bool
  | .launch l => l.keeps
  | .transaction _ => true

def machine (hexEncode : Bytes → String) (c : Codec) : Machine StoreFile Life (Option String) where
  step s
    | .launch l => (some (l.run hexEncode c s).1,(l.run hexEncode c s).2)
    | .transaction op => (none,{ s with db := exec c s.db op })

end Life

theorem fromUtf8_utf8 (s : String) : fromUtf8 (Format.utf8 s) = some s := by
  rw [fromUtf8,Format.utf8,Format.decodeChars_encode (Format.length_le_encode _),Option.map_some,
    String.ofList_toList]

theorem generateApiKey_injective {hexEncode : Bytes → String} (hhex : Function.Injective hexEncode) :
    Function.Injective (generateApiKey hexEncode) :=
  fun _ _ h => Vector.toList_inj.mp (hhex h)

def Keyring (key : String) (s : StoreFile) : Prop := (s.getBlob apiKeyKv).bind fromUtf8 = some key

variable {hexEncode : Bytes → String} {c : Codec} {l : Launch} {s : StoreFile} {key : String}

theorem keyring_put (s : StoreFile) (key : String) : Keyring key (s.putBlob apiKeyKv (Format.utf8 key)) := by
  simp [Keyring,StoreFile.getBlob,StoreFile.putBlob,fromUtf8_utf8]

theorem keyring_open (hc : l.incompatible = false) (h : Keyring key s) : Keyring key (l.openFile c s) := by
  rw [Launch.openFile,hc]
  exact h

theorem run_loads (hflag : l.apiKey = none) (hkeep : l.keeps = true) (h : Keyring key s) :
    l.run hexEncode c s = (key,l.openFile c s) := by
  obtain ⟨hc,hr⟩ : l.incompatible = false ∧ l.readFails = false := by
    simpa [Launch.keeps,hflag] using hkeep
  have hload : l.loaded (l.openFile c s) = some key := by
    rw [Launch.loaded,hr]
    exact keyring_open hc h
  simp only [Launch.run,Launch.resolveKey,hflag,hload]

theorem keyring_run (hflag : l.apiKey = none) (hw : l.writeFails = false) :
    Keyring (l.run hexEncode c s).1 (l.run hexEncode c s).2 := by
  simp only [Launch.run,Launch.resolveKey,hflag]
  cases hload : l.loaded (l.openFile c s) with
  | some key =>
    unfold Launch.loaded at hload
    split at hload
    · cases hload
    · exact hload
  | none =>
    simp only [hw,Bool.false_eq_true,if_false]
    exact keyring_put _ _

theorem keyring_step {e : Life} (hkeep : e.keeps = true) (h : Keyring key s) :
    Keyring key ((Life.machine hexEncode c).step s e).2 := by
  cases e with
  | transaction op => exact h
  | launch l =>
    change Keyring key (l.run hexEncode c s).2
    have hc : l.incompatible = false := by
      simp only [Life.keeps,Launch.keeps,Bool.and_eq_true,Bool.not_eq_true'] at hkeep
      exact hkeep.1
    cases hflag : l.apiKey with
    | none =>
      rw [run_loads hflag hkeep h]
      exact keyring_open hc h
    | some flag =>
      simp only [Launch.run,Launch.resolveKey,hflag]
      exact keyring_open hc h

theorem keyring_trace {es : List Life} (hkeep : ∀ e ∈ es, e.keeps = true) (h : Keyring key s) :
    Keyring key ((Life.machine hexEncode c).trace s es).2 := by
  induction es generalizing s with
  | nil => exact h
  | cons e es ih =>
    exact ih (fun e he => hkeep e (List.mem_cons_of_mem _ he)) (keyring_step (hkeep e List.mem_cons_self) h)

theorem run_generates (hflag : l.apiKey = none) (hload : l.loaded (l.openFile c s) = none) :
    (l.run hexEncode c s).1 = generateApiKey hexEncode l.random := by
  simp only [Launch.run,Launch.resolveKey,hflag,hload]

theorem api_key_survives (hexEncode : Bytes → String) (c : Codec) (s : StoreFile) (first : Launch)
    (between : List Life) (later : Launch) (hfirst : first.apiKey = none) (hwrite : first.writeFails = false)
    (hkeep : ∀ e ∈ between, e.keeps = true) (hlater : later.apiKey = none) (hlast : later.keeps = true) :
    (later.run hexEncode c ((Life.machine hexEncode c).trace (first.run hexEncode c s).2 between).2).1 =
      (first.run hexEncode c s).1 ∧
    (Function.Injective hexEncode → first.loaded (first.openFile c s) = none →
      ∀ random, generateApiKey hexEncode random = (first.run hexEncode c s).1 ↔ random = first.random) := by
  constructor
  · rw [run_loads hlater hlast (keyring_trace hkeep (keyring_run hfirst hwrite))]
  · intro hhex hload random
    rw [run_generates hfirst hload]
    exact (generateApiKey_injective hhex).eq_iff

def firstLaunch : Launch := ⟨none,false,false,false,Vector.replicate keyBytes 171⟩

def flaggedLaunch : Launch := { firstLaunch with apiKey := some "operator" }

def laterLaunch : Launch := { firstLaunch with random := Vector.replicate keyBytes 7 }

def byteChars (bytes : Bytes) : String := String.ofList (bytes.map Char.ofUInt8)

theorem byteChars_injective : Function.Injective byteChars := by
  have hchar : Function.Injective Char.ofUInt8 := by
    intro a b h
    have hval : a.toUInt32 = b.toUInt32 := congrArg Char.val h
    have hnat := congrArg UInt32.toNat hval
    rw [UInt8.toNat_toUInt32,UInt8.toNat_toUInt32] at hnat
    exact UInt8.toNat_inj.mp hnat
  exact fun _ _ h => List.map_injective_iff.mpr hchar (String.ofList_injective h)

theorem api_key_survives_flagged :
    let between : List Life :=
      [.transaction (.pruneDead 0),.launch flaggedLaunch,.transaction (.delete ⟨.v4 1,16111⟩)]
    let key := (firstLaunch.run byteChars Bincode.standard .empty).1
    (laterLaunch.run byteChars Bincode.standard ((Life.machine byteChars Bincode.standard).trace
        (firstLaunch.run byteChars Bincode.standard .empty).2 between).2).1 = key ∧
    ∀ random, generateApiKey byteChars random = key ↔ random = Vector.replicate keyBytes 171 := by
  intro between key
  obtain ⟨hsame,hown⟩ := api_key_survives byteChars Bincode.standard .empty firstLaunch between laterLaunch
    rfl rfl (by decide) rfl rfl
  exact ⟨hsame,hown byteChars_injective (by decide)⟩

end DnsSeeder
