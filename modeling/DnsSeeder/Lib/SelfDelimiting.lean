import DnsSeeder.Lib.Format

namespace DnsSeeder.Lib.Format

variable {α β : Type}

def Extends (read : List UInt8 → Option (α × List UInt8)) : Prop :=
  ∀ bytes a rest, read bytes = some (a,rest) → ∀ more, read (bytes ++ more) = some (a,rest ++ more)

def SelfDelimiting (f : Format α) : Prop := Extends f.decode

theorem Extends.bind {read : List UInt8 → Option (α × List UInt8)}
    (next : α → List UInt8 → Option (β × List UInt8)) (h : Extends read) (hnext : ∀ a, Extends (next a)) :
    Extends (fun bytes => (read bytes).bind (fun p => next p.1 p.2)) := by
  intro bytes b rest hb more
  obtain ⟨⟨a,mid⟩,ha,hb⟩ := Option.bind_eq_some_iff.mp hb
  simp only [h bytes a mid ha more,Option.bind_some]
  exact hnext a mid b rest hb more

theorem extends_give (given : Option α) : Extends (fun bytes => given.bind (fun a => some (a,bytes))) := by
  intro bytes a rest h more
  cases given with
  | none => cases h
  | some b =>
    obtain ⟨rfl,rfl⟩ := Prod.mk.inj (Option.some.inj h)
    rfl

theorem Extends.give {read : List UInt8 → Option (α × List UInt8)} (h : Extends read) (f : α → Option β) :
    Extends (fun bytes => (read bytes).bind (fun p => (f p.1).bind (fun b => some (b,p.2)))) :=
  h.bind (fun a bytes => (f a).bind (fun b => some (b,bytes))) (fun a => extends_give (f a))

theorem extends_dite {p : Prop} [Decidable p] (make : p → α) :
    Extends (fun bytes => if h : p then some (make h,bytes) else none) := by
  intro bytes a rest h more
  dsimp only at h ⊢
  split at h
  · next hp =>
    obtain ⟨rfl,rfl⟩ := Prod.mk.inj (Option.some.inj h)
    exact dif_pos hp
  · cases h

theorem extends_takeBytes (n : Nat) : Extends (takeBytes n) := by
  intro bytes xs rest h more
  unfold takeBytes at h ⊢
  split at h
  · next hn =>
    obtain ⟨rfl,rfl⟩ := Prod.mk.inj (Option.some.inj h)
    rw [if_pos (by rw [List.length_append]; omega),List.take_append_of_le_length hn,
      List.drop_append_of_le_length hn]
  · cases h

theorem extends_decodeFixed (k : Nat) : Extends (decodeFixed k) := by
  intro bytes n rest h more
  obtain ⟨⟨xs,ys⟩,hxs,heq⟩ := Option.map_eq_some_iff.mp h
  obtain ⟨rfl,rfl⟩ := Prod.mk.inj heq
  rw [decodeFixed,extends_takeBytes k bytes xs ys hxs more,Option.map_some]

theorem extends_decodeVarint (width : Nat) : Extends (decodeVarint width) := by
  intro bytes n rest h more
  cases bytes with
  | nil => cases h
  | cons tag bytes =>
    rw [List.cons_append]
    simp only [decodeVarint] at h ⊢
    split at h
    · next htag =>
      obtain ⟨rfl,rfl⟩ := Prod.mk.inj (Option.some.inj h)
      exact if_pos htag
    · next htag =>
      rw [if_neg htag]
      split at h
      · next htag =>
        rw [if_pos htag]
        exact extends_decodeFixed 2 bytes n rest h more
      · next htag =>
        rw [if_neg htag]
        split at h
        · next htag =>
          rw [if_pos htag]
          exact extends_decodeFixed 4 bytes n rest h more
        · next htag =>
          rw [if_neg htag]
          split at h
          · next htag =>
            rw [if_pos htag]
            exact extends_decodeFixed 8 bytes n rest h more
          · cases h

namespace SelfDelimiting

variable {f : Format α} {g : Format β}

theorem pair (hf : SelfDelimiting f) (hg : SelfDelimiting g) : SelfDelimiting (f.pair g) :=
  Extends.bind (fun a bytes => (g.decode bytes).bind (fun q => some ((a,q.1),q.2))) hf
    (fun a => hg.give (fun b => some (a,b)))

theorem via {unpack : β → α} {pack : α → Option β} {h : ∀ b, pack (unpack b) = some b}
    (hf : SelfDelimiting f) : SelfDelimiting (f.via unpack pack h) := Extends.give hf pack

theorem option (hf : SelfDelimiting f) : SelfDelimiting f.option := by
  intro bytes a rest h more
  unfold Format.option at h ⊢
  dsimp only at h ⊢
  split at h
  · obtain ⟨rfl,rfl⟩ := Prod.mk.inj (Option.some.inj h)
    rfl
  · next bytes =>
    obtain ⟨⟨b,mid⟩,hb,heq⟩ := Option.map_eq_some_iff.mp h
    obtain ⟨rfl,rfl⟩ := Prod.mk.inj heq
    rw [List.cons_append]
    simp only [hf bytes b mid hb more,Option.map_some]
  · cases h

theorem array (n : Nat) : SelfDelimiting (Format.array n) := by
  intro bytes a rest h more
  obtain ⟨⟨xs,mid⟩,hxs,h⟩ := Option.bind_eq_some_iff.mp h
  refine Option.bind_eq_some_iff.mpr ⟨(xs,mid ++ more),extends_takeBytes n _ _ _ hxs more,?_⟩
  exact extends_dite (p := xs.length = n) (fun hlen => (⟨xs.toArray,by simpa using hlen⟩ : Vector UInt8 n))
    mid a rest h more

theorem bits (k : Nat) : SelfDelimiting (Format.bits k) :=
  Extends.give (extends_takeBytes k) (fun xs => some (BitVec.ofNat (8*k) (leValue xs.reverse)))

theorem natBelow {width bound : Nat} {hb : bound ≤ 2^64} {h4 : 2^16 < bound → 4 ≤ width}
    {h8 : 2^32 < bound → 8 ≤ width} : SelfDelimiting (Format.natBelow width bound hb h4 h8) := by
  intro bytes a rest h more
  obtain ⟨⟨n,mid⟩,hn,h⟩ := Option.bind_eq_some_iff.mp h
  refine Option.bind_eq_some_iff.mpr ⟨(n,mid ++ more),extends_decodeVarint width _ _ _ hn more,?_⟩
  exact extends_dite (p := n < bound) (fun hlt => (⟨n,hlt⟩ : Fin bound)) mid a rest h more

theorem text : SelfDelimiting Format.text := by
  intro bytes a rest h more
  obtain ⟨⟨n,mid⟩,hn,h⟩ := Option.bind_eq_some_iff.mp h
  obtain ⟨⟨xs,mid'⟩,hxs,h⟩ := Option.bind_eq_some_iff.mp h
  obtain ⟨cs,hcs,h⟩ := Option.bind_eq_some_iff.mp h
  refine Option.bind_eq_some_iff.mpr ⟨(n,mid ++ more),extends_decodeVarint 8 _ _ _ hn more,?_⟩
  refine Option.bind_eq_some_iff.mpr ⟨(xs,mid' ++ more),extends_takeBytes n _ _ _ hxs more,?_⟩
  refine Option.bind_eq_some_iff.mpr ⟨cs,hcs,?_⟩
  exact extends_dite (p := (utf8 (String.ofList cs)).length < 2^64) (fun hlt => (⟨String.ofList cs,hlt⟩ : Text))
    mid' a rest h more

theorem undecodable {a : α} {short : List UInt8} (hf : SelfDelimiting f) (h : short <+: f.encode a)
    (hne : short ≠ f.encode a) : f.decode short = none := by
  obtain ⟨more,hmore⟩ := h
  cases hd : f.decode short with
  | none => rfl
  | some p =>
    obtain ⟨b,rest⟩ := p
    have hlong := hf short b rest hd more
    have hwhole := f.decode_encode a []
    rw [List.append_nil,← hmore,hlong] at hwhole
    have hnil := List.append_eq_nil_iff.mp (Prod.mk.inj (Option.some.inj hwhole)).2
    rw [hnil.2,List.append_nil] at hmore
    exact absurd hmore hne

end SelfDelimiting

end DnsSeeder.Lib.Format
