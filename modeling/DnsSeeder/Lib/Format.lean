import Mathlib.Tactic

namespace DnsSeeder.Lib

structure Format (α : Type) where
  encode : α → List UInt8
  decode : List UInt8 → Option (α × List UInt8)
  decode_encode : ∀ a rest, decode (encode a ++ rest) = some (a,rest)

attribute [simp] Format.decode_encode

namespace Format

variable {α β : Type}

theorem encode_injective (f : Format α) : Function.Injective f.encode := by
  intro a b h
  have ha := f.decode_encode a []
  rw [h,f.decode_encode b []] at ha
  exact (Prod.mk.inj (Option.some.inj ha)).1.symm

def pair (f : Format α) (g : Format β) : Format (α × β) where
  encode p := f.encode p.1 ++ g.encode p.2
  decode bytes := do
    let (a,bytes) ← f.decode bytes
    let (b,bytes) ← g.decode bytes
    return ((a,b),bytes)
  decode_encode p rest := by simp [List.append_assoc]

def via (f : Format α) (unpack : β → α) (pack : α → Option β) (h : ∀ b, pack (unpack b) = some b) :
    Format β where
  encode b := f.encode (unpack b)
  decode bytes := do
    let (a,bytes) ← f.decode bytes
    let b ← pack a
    return (b,bytes)
  decode_encode b rest := by simp [h]

def takeBytes (n : Nat) (bytes : List UInt8) : Option (List UInt8 × List UInt8) :=
  if n ≤ bytes.length then some (bytes.take n,bytes.drop n) else none

theorem takeBytes_append (xs rest : List UInt8) : takeBytes xs.length (xs ++ rest) = some (xs,rest) := by
  simp [takeBytes]

def array (n : Nat) : Format (Vector UInt8 n) where
  encode v := v.toList
  decode bytes := do
    let (xs,bytes) ← takeBytes n bytes
    if h : xs.length = n then return (⟨xs.toArray,by simpa using h⟩,bytes) else none
  decode_encode v rest := by
    have hlen : v.toList.length = n := by simp
    have htake := takeBytes_append v.toList rest
    have hv : v.toList.toArray = v.toArray := Array.toArray_toList
    rw [hlen] at htake
    simp [htake,hv]

def leBytes : Nat → Nat → List UInt8
  | 0,_ => []
  | k+1,n => UInt8.ofNat n :: leBytes k (n / 256)

def leValue : List UInt8 → Nat
  | [] => 0
  | b :: bytes => b.toNat + 256 * leValue bytes

theorem leBytes_length (k n : Nat) : (leBytes k n).length = k := by
  induction k generalizing n with
  | zero => rfl
  | succ k ih => rw [leBytes,List.length_cons,ih]

theorem leValue_leBytes {k n : Nat} (h : n < 256^k) : leValue (leBytes k n) = n := by
  induction k generalizing n with
  | zero =>
    rw [pow_zero] at h
    rw [leBytes,leValue]
    omega
  | succ k ih =>
    have hdiv : n / 256 < 256^k := by
      rw [pow_succ] at h
      exact Nat.div_lt_of_lt_mul (by rwa [mul_comm])
    rw [leBytes,leValue,ih hdiv,UInt8.toNat_ofNat']
    omega

def bits (k : Nat) : Format (BitVec (8*k)) where
  encode b := (leBytes k b.toNat).reverse
  decode bytes := do
    let (xs,bytes) ← takeBytes k bytes
    return (BitVec.ofNat (8*k) (leValue xs.reverse),bytes)
  decode_encode b rest := by
    have hlt : b.toNat < 256^k := by
      have h := b.isLt
      rwa [pow_mul] at h
    have htake := takeBytes_append (leBytes k b.toNat).reverse rest
    rw [List.length_reverse,leBytes_length] at htake
    simp [htake,leValue_leBytes hlt]

def encodeVarint (n : Nat) : List UInt8 :=
  if n < 251 then [UInt8.ofNat n]
  else if n < 2^16 then 251 :: leBytes 2 n
  else if n < 2^32 then 252 :: leBytes 4 n
  else 253 :: leBytes 8 n

def decodeFixed (k : Nat) (bytes : List UInt8) : Option (Nat × List UInt8) :=
  (takeBytes k bytes).map (fun p => (leValue p.1,p.2))

def decodeVarint (width : Nat) : List UInt8 → Option (Nat × List UInt8)
  | [] => none
  | tag :: bytes =>
      if tag < 251 then some (tag.toNat,bytes)
      else if tag = 251 then decodeFixed 2 bytes
      else if tag = 252 ∧ 4 ≤ width then decodeFixed 4 bytes
      else if tag = 253 ∧ 8 ≤ width then decodeFixed 8 bytes
      else none

theorem decodeFixed_leBytes {k n : Nat} (h : n < 256^k) (rest : List UInt8) :
    decodeFixed k (leBytes k n ++ rest) = some (n,rest) := by
  have htake := takeBytes_append (leBytes k n) rest
  rw [leBytes_length] at htake
  rw [decodeFixed,htake,Option.map_some,leValue_leBytes h]

theorem decodeVarint_encodeVarint {width n : Nat} (hn : n < 2^64) (h4 : 2^16 ≤ n → 4 ≤ width)
    (h8 : 2^32 ≤ n → 8 ≤ width) (rest : List UInt8) :
    decodeVarint width (encodeVarint n ++ rest) = some (n,rest) := by
  unfold encodeVarint
  split
  · next h =>
    have htag : UInt8.ofNat n < 251 := by
      rw [UInt8.lt_iff_toNat_lt,UInt8.toNat_ofNat']
      simp only [UInt8.reduceToNat]
      omega
    have hval : (UInt8.ofNat n).toNat = n := by
      rw [UInt8.toNat_ofNat']
      omega
    simp [decodeVarint,htag,hval]
  · split
    · next h =>
      simpa [decodeVarint] using decodeFixed_leBytes (k := 2) (by omega) rest
    · split
      · next h =>
        have hw4 := h4 (by omega)
        simpa [decodeVarint,hw4] using decodeFixed_leBytes (k := 4) (by omega) rest
      · have hw8 := h8 (by omega)
        simpa [decodeVarint,hw8] using decodeFixed_leBytes (k := 8) (by omega) rest

def natBelow (width bound : Nat) (hb : bound ≤ 2^64) (h4 : 2^16 < bound → 4 ≤ width)
    (h8 : 2^32 < bound → 8 ≤ width) : Format (Fin bound) where
  encode n := encodeVarint n.val
  decode bytes := do
    let (n,bytes) ← decodeVarint width bytes
    if h : n < bound then return (⟨n,h⟩,bytes) else none
  decode_encode n rest := by
    have hlt := n.isLt
    rw [decodeVarint_encodeVarint (by omega) (fun h => h4 (by omega)) (fun h => h8 (by omega))]
    simp

def uint16 : Format UInt16 :=
  (natBelow 2 (2^16) (by omega) (by omega) (by omega)).via
    UInt16.toFin (fun n => some (UInt16.ofFin n)) (by simp)

def uint32 : Format UInt32 :=
  (natBelow 4 (2^32) (by omega) (by omega) (by omega)).via
    UInt32.toFin (fun n => some (UInt32.ofFin n)) (by simp)

def uint64 : Format UInt64 :=
  (natBelow 8 (2^64) (by omega) (by omega) (by omega)).via
    UInt64.toFin (fun n => some (UInt64.ofFin n)) (by simp)

def zigzag (x : Int64) : UInt64 :=
  if 0 ≤ x.toInt then UInt64.ofNat (2 * x.toInt.toNat) else UInt64.ofNat (2 * (-x.toInt - 1).toNat + 1)

def unzigzag (n : UInt64) : Int64 :=
  if n.toNat % 2 = 0 then Int64.ofInt (n.toNat / 2) else Int64.ofInt (-(n.toNat / 2 : Nat) - 1)

theorem unzigzag_zigzag (x : Int64) : unzigzag (zigzag x) = x := by
  have hlt := x.toInt_lt
  have hle := x.le_toInt
  unfold zigzag
  split
  · next h =>
    have hn : (UInt64.ofNat (2 * x.toInt.toNat)).toNat = 2 * x.toInt.toNat :=
      UInt64.toNat_ofNat_of_lt (by change _ < 2^64; omega)
    have hx : ((2 * x.toInt.toNat : Nat) : Int) / 2 = x.toInt := by omega
    rw [unzigzag,hn,if_pos (by omega),hx,Int64.ofInt_toInt]
  · next h =>
    have hn : (UInt64.ofNat (2 * (-x.toInt - 1).toNat + 1)).toNat = 2 * (-x.toInt - 1).toNat + 1 :=
      UInt64.toNat_ofNat_of_lt (by change _ < 2^64; omega)
    have hx : (-((2 * (-x.toInt - 1).toNat + 1) / 2 : Nat) - 1 : Int) = x.toInt := by omega
    rw [unzigzag,hn,if_neg (by omega),hx,Int64.ofInt_toInt]

def int64 : Format Int64 := uint64.via zigzag (fun n => some (unzigzag n)) (by simp [unzigzag_zigzag])

def option (f : Format α) : Format (Option α) where
  encode
    | none => [0]
    | some a => 1 :: f.encode a
  decode
    | 0 :: bytes => some (none,bytes)
    | 1 :: bytes => (f.decode bytes).map (fun p => (some p.1,p.2))
    | _ => none
  decode_encode a rest := by
    cases a with
    | none => rfl
    | some a => simp

def utf8 (s : String) : List UInt8 := s.toList.flatMap String.utf8EncodeChar

def decodeChars : Nat → List UInt8 → Option (List Char)
  | _,[] => some []
  | 0,_ :: _ => none
  | fuel+1,b :: bytes => do
      let ch ← (b :: bytes).toByteArray.utf8DecodeChar? 0
      let rest ← decodeChars fuel ((b :: bytes).drop ch.utf8Size)
      return ch :: rest

theorem decodeChars_encode {cs : List Char} {fuel : Nat} (h : cs.length ≤ fuel) :
    decodeChars fuel (cs.flatMap String.utf8EncodeChar) = some cs := by
  induction cs generalizing fuel with
  | nil =>
    rw [List.flatMap_nil]
    cases fuel <;> rfl
  | cons c cs ih =>
    obtain ⟨fuel,rfl⟩ : ∃ k, fuel = k + 1 := ⟨fuel - 1,by rw [List.length_cons] at h; omega⟩
    have hfirst : ((c :: cs).flatMap String.utf8EncodeChar).toByteArray.utf8DecodeChar? 0 = some c :=
      List.utf8DecodeChar?_utf8Encode_cons
    have hdrop : ((c :: cs).flatMap String.utf8EncodeChar).drop c.utf8Size =
        cs.flatMap String.utf8EncodeChar := by
      rw [List.flatMap_cons,← String.length_utf8EncodeChar,List.drop_left]
    have hih : decodeChars fuel (cs.flatMap String.utf8EncodeChar) = some cs :=
      ih (by rw [List.length_cons] at h; omega)
    cases hb : (c :: cs).flatMap String.utf8EncodeChar with
    | nil =>
      have hnone : ([] : List UInt8).toByteArray.utf8DecodeChar? 0 = none := rfl
      rw [hb,hnone] at hfirst
      simp at hfirst
    | cons b bytes =>
      rw [hb] at hfirst hdrop
      simp only [decodeChars,hfirst,Option.bind_eq_bind,Option.bind_some,hdrop,hih,Option.pure_def]

theorem length_le_encode (cs : List Char) : cs.length ≤ (cs.flatMap String.utf8EncodeChar).length := by
  induction cs with
  | nil => simp
  | cons c cs ih =>
    have hpos := c.utf8Size_pos
    rw [List.flatMap_cons,List.length_append,String.length_utf8EncodeChar,List.length_cons]
    omega

abbrev Text := { s : String // (utf8 s).length < 2^64 }

def Text.empty : Text := ⟨"",by decide⟩

def text : Format Text where
  encode s := encodeVarint (utf8 s.val).length ++ utf8 s.val
  decode bytes := do
    let (n,bytes) ← decodeVarint 8 bytes
    let (xs,bytes) ← takeBytes n bytes
    let cs ← decodeChars xs.length xs
    if h : (utf8 (String.ofList cs)).length < 2^64 then return (⟨String.ofList cs,h⟩,bytes) else none
  decode_encode s rest := by
    have hcs : decodeChars (utf8 s.val).length (utf8 s.val) = some s.val.toList :=
      decodeChars_encode (length_le_encode _)
    have hof : String.ofList s.val.toList = s.val := String.ofList_toList
    rw [List.append_assoc,decodeVarint_encodeVarint s.property (by omega) (by omega)]
    simpa [takeBytes_append,hcs,hof] using s.property

end Format

end DnsSeeder.Lib
