import Mathlib.Data.List.TakeWhile
import DnsSeeder.Store.Filter

namespace DnsSeeder.Lib

variable {α : Type} {p : α → Bool}

structure Delimited (p : α → Bool) (core rest : List α) : Prop where
  inside : ∀ a ∈ core, p a = true
  stop : ∀ a ∈ rest.head?, p a = false

theorem delimited_span (l : List α) : Delimited p (l.takeWhile p) (l.dropWhile p) := by
  induction l with
  | nil => exact ⟨by simp,by simp⟩
  | cons a l ih =>
    cases ha : p a with
    | false => exact ⟨by simp [ha],by simp [ha]⟩
    | true =>
      rw [List.takeWhile_cons_of_pos ha,List.dropWhile_cons_of_pos ha]
      refine ⟨?_,ih.stop⟩
      intro b hb
      rcases List.mem_cons.mp hb with rfl | hb
      · exact ha
      · exact ih.inside b hb

theorem Delimited.takeWhile {core rest : List α} (h : Delimited p core rest) :
    (core ++ rest).takeWhile p = core := by
  induction core with
  | nil =>
    cases rest with
    | nil => rfl
    | cons a rest => simp [h.stop a rfl]
  | cons a core ih =>
    have hcore : Delimited p core rest := ⟨fun b hb => h.inside b (by simp [hb]),h.stop⟩
    rw [List.cons_append,List.takeWhile_cons_of_pos (h.inside a (by simp)),ih hcore]

theorem takeWhile_eq_iff {l core : List α} :
    l.takeWhile p = core ↔ ∃ rest, l = core ++ rest ∧ Delimited p core rest := by
  constructor
  · rintro rfl
    exact ⟨l.dropWhile p,List.takeWhile_append_dropWhile.symm,delimited_span l⟩
  · rintro ⟨rest,rfl,h⟩
    exact h.takeWhile

theorem dropWhile_eq_self {l : List α} (h : ∀ a ∈ l, p a = false) : l.dropWhile p = l := by
  cases l with
  | nil => rfl
  | cons a l => rw [List.dropWhile_cons_of_neg (by simp [h a (by simp)])]

end DnsSeeder.Lib

namespace DnsSeeder

open Lib

namespace PeerRecord

variable {semver : Semver} {core rest : String}

def plain (ch : Char) : Bool := ch ≠ '/' && ch ≠ '('

def Segment (core : String) : Prop := ∀ ch ∈ core.toList, ch ≠ '/' ∧ ch ≠ '('

def Follows (rest : String) : Prop := ∀ ch ∈ rest.toList.head?, ch = '/' ∨ ch = '('

theorem delimited_iff : Delimited plain core.toList rest.toList ↔ Segment core ∧ Follows rest := by
  constructor
  · rintro ⟨hin,hstop⟩
    refine ⟨fun ch hch => by simpa [plain] using hin ch hch,fun ch hch => ?_⟩
    have hnot := hstop ch hch
    simp only [plain,Bool.and_eq_false_iff,decide_eq_false_iff_not,not_not] at hnot
    exact hnot
  · rintro ⟨hin,hstop⟩
    refine ⟨fun ch hch => by simpa [plain] using hin ch hch,fun ch hch => ?_⟩
    rcases hstop ch hch with rfl | rfl <;> rfl

theorem takeWhile_segment (chars : List Char) :
    (chars.takeWhile (· ≠ '/')).takeWhile (· ≠ '(') = chars.takeWhile plain := by
  rw [List.takeWhile_takeWhile]
  congr 1
  funext ch
  simp [plain,Bool.and_comm]

theorem stripAgent_append (chars : List Char) : stripAgent (kaspadAgent ++ chars) = some chars := by
  have hpre : kaspadAgent.isPrefixOf (kaspadAgent ++ chars) = true :=
    List.isPrefixOf_iff_prefix.mpr (List.prefix_append _ _)
  rw [stripAgent,if_pos hpre,List.drop_left]

theorem stripAgent_eq_some {chars after : List Char} :
    stripAgent chars = some after ↔ chars = kaspadAgent ++ after := by
  constructor
  · intro h
    simp only [stripAgent,Option.ite_none_right_eq_some,Option.some.injEq] at h
    obtain ⟨hpre,rfl⟩ := h
    exact List.prefix_append_drop (List.isPrefixOf_iff_prefix.mp hpre)
  · rintro rfl
    exact stripAgent_append after

theorem parse_segment (semver : Semver) (hcore : Segment core) (hrest : Follows rest) :
    parseKaspadVersion semver ("/kaspad:" ++ core ++ rest) = semver.parse (trimmed core) := by
  have hlist : ("/kaspad:" ++ core ++ rest).toList = kaspadAgent ++ (core.toList ++ rest.toList) := by
    rw [String.toList_append,String.toList_append,List.append_assoc]
    rfl
  rw [parseKaspadVersion,hlist,stripAgent_append]
  simp only [Option.bind_some,takeWhile_segment]
  rw [(delimited_iff.mpr ⟨hcore,hrest⟩).takeWhile]
  rfl

theorem parse_eq_some {ua : String} {v : Version} :
    parseKaspadVersion semver ua = some v ↔
      ∃ core rest, ua = "/kaspad:" ++ core ++ rest ∧ Segment core ∧ Follows rest ∧
        semver.parse (trimmed core) = some v := by
  constructor
  · intro h
    obtain ⟨after,hstrip,hparse⟩ := Option.bind_eq_some_iff.mp h
    simp only [takeWhile_segment] at hparse
    obtain ⟨rest,hafter,hdel⟩ := takeWhile_eq_iff.mp (rfl : after.takeWhile plain = _)
    refine ⟨String.ofList (after.takeWhile plain),String.ofList rest,?_,?_⟩
    · rw [← String.toList_inj,stripAgent_eq_some.mp hstrip]
      simp only [String.toList_append,String.toList_ofList,List.append_assoc,← hafter]
      rfl
    · rw [← String.toList_ofList (l := after.takeWhile plain),← String.toList_ofList (l := rest),
        delimited_iff] at hdel
      exact ⟨hdel.1,hdel.2,by rw [trimmed,String.toList_ofList]; exact hparse⟩
  · rintro ⟨core,rest,rfl,hcore,hrest,hparse⟩
    rw [parse_segment semver hcore hrest,hparse]

theorem trimmed_eq_self (h : ∀ ch ∈ core.toList, isWhitespace ch = false) : trimmed core = core := by
  have hrev : ∀ ch ∈ core.toList.reverse, isWhitespace ch = false :=
    fun ch hch => h ch (List.mem_reverse.mp hch)
  rw [trimmed,trim,dropWhile_eq_self h,dropWhile_eq_self hrev,List.reverse_reverse,String.ofList_toList]

theorem kaspad_version_grammar (semver : Semver) :
    (∀ ua v, parseKaspadVersion semver ua = some v ↔
      ∃ core rest, ua = "/kaspad:" ++ core ++ rest ∧ Segment core ∧ Follows rest ∧
        semver.parse (trimmed core) = some v) ∧
    (∀ core rest rest', Segment core → Follows rest → Follows rest' →
      parseKaspadVersion semver ("/kaspad:" ++ core ++ rest) =
        parseKaspadVersion semver ("/kaspad:" ++ core ++ rest')) ∧
    ∀ (display : Version → String) v rest, semver.parse (display v) = some v →
      (∀ ch ∈ (display v).toList, ch ≠ '/' ∧ ch ≠ '(' ∧ isWhitespace ch = false) → Follows rest →
      parseKaspadVersion semver ("/kaspad:" ++ display v ++ rest) = some v := by
  refine ⟨fun ua v => parse_eq_some,?_,?_⟩
  · intro core rest rest' hcore hrest hrest'
    rw [parse_segment semver hcore hrest,parse_segment semver hcore hrest']
  · intro display v rest hparse hplain hrest
    have hcore : Segment (display v) := fun ch hch => ⟨(hplain ch hch).1,(hplain ch hch).2.1⟩
    rw [parse_segment semver hcore hrest,trimmed_eq_self (fun ch hch => (hplain ch hch).2.2),hparse]

def release : Semver := ⟨fun v => if v = "1.2.3" then some ⟨1,2,3,"",""⟩ else none⟩

theorem kaspad_version_grammar_comment :
    parseKaspadVersion release ("/kaspad:" ++ "1.2.3" ++ "(build/7)/kaspad:9.9.9/") =
      some ⟨1,2,3,"",""⟩ :=
  (kaspad_version_grammar release).2.2 (fun _ => "1.2.3") ⟨1,2,3,"",""⟩ "(build/7)/kaspad:9.9.9/" rfl
    (by simp [isWhitespace]) (by simp [Follows])

end PeerRecord

end DnsSeeder
