import DnsSeeder.Crawler.Custody

namespace DnsSeeder

open Lib PeerStore

namespace System

variable {d : Node} {s t : System} {t₀ u u' : Int64}

def Within (t₀ u now : Int64) : Prop := t₀ ≤ now ∧ now ≤ u

theorem Within.mono {now : Int64} (h : Within t₀ u now) (hu : u ≤ u') : Within t₀ u' now :=
  ⟨h.1,Int64.le_trans h.2 hu⟩

structure Dated (t₀ u : Int64) (rec : PeerRecord) : Prop where
  attempt : Within 0 u rec.lastAttemptMs
  seen : Within 0 u rec.lastSeenMs
  success : Within 0 u rec.lastSuccessMs
  answered : t₀ ≤ rec.lastSuccessMs ∨
    (rec.lastSuccessMs = 0 ∧ rec.protocolVersion = 0 ∧ rec.userAgent = Format.Text.empty)

theorem Dated.mono {rec : PeerRecord} (h : Dated t₀ u rec) (hu : u ≤ u') : Dated t₀ u' rec :=
  ⟨h.attempt.mono hu,h.seen.mono hu,h.success.mono hu,h.answered⟩

def OpDated (t₀ u : Int64) : StoreOp → Prop
  | .upsert rec => Dated t₀ u rec
  | .recordAttempt _ now => Within t₀ u now
  | .insertOrRefreshSeenBatch _ now => Within t₀ u now
  | .delete _ => True
  | .pruneDead _ => True

def HeldDated (t₀ u : Int64) : Held → Prop
  | .target _ => True
  | .tick now => Within t₀ u now
  | .existing _ _ => True
  | .op op => OpDated t₀ u op

theorem HeldDated.mono {x : Held} (h : HeldDated t₀ u x) (hu : u ≤ u') : HeldDated t₀ u' x := by
  cases x with
  | target addr => trivial
  | tick now => exact Within.mono h hu
  | existing addr existing => trivial
  | op op =>
    cases op with
    | upsert rec => exact Dated.mono h hu
    | recordAttempt addr now => exact Within.mono h hu
    | insertOrRefreshSeenBatch addrs now => exact Within.mono h hu
    | delete addr => trivial
    | pruneDead cutoff => trivial

theorem Within.of_nonneg {now : Int64} (h₀ : 0 ≤ t₀) (h : Within t₀ u now) : Within 0 u now :=
  ⟨Int64.le_trans h₀ h.1,h.2⟩

theorem dated_attempted {addr : NetAddress} {now : Int64} {old : Option PeerRecord} (h₀ : 0 ≤ t₀)
    (hold : ∀ rec, old = some rec → Dated t₀ u rec) (hnow : Within t₀ u now) :
    Dated t₀ u (attempted addr now old) := by
  have hu : 0 ≤ u := Int64.le_trans h₀ (Int64.le_trans hnow.1 hnow.2)
  cases old with
  | none =>
    exact ⟨hnow.of_nonneg h₀,⟨Int64.le_refl _,hu⟩,⟨Int64.le_refl _,hu⟩,Or.inr ⟨rfl,rfl,rfl⟩⟩
  | some rec =>
    have h := hold rec rfl
    exact ⟨hnow.of_nonneg h₀,h.seen,h.success,h.answered⟩

theorem dated_seenRecord {addr : NetAddress} {now : Int64} {old : Option PeerRecord} (h₀ : 0 ≤ t₀)
    (hold : ∀ rec, old = some rec → Dated t₀ u rec) (hnow : Within t₀ u now) :
    Dated t₀ u (seenRecord addr now old) := by
  have hu : 0 ≤ u := Int64.le_trans h₀ (Int64.le_trans hnow.1 hnow.2)
  cases old with
  | none =>
    exact ⟨⟨Int64.le_refl _,hu⟩,hnow.of_nonneg h₀,⟨Int64.le_refl _,hu⟩,Or.inr ⟨rfl,rfl,rfl⟩⟩
  | some rec =>
    have h := hold rec rfl
    exact ⟨h.attempt,hnow.of_nonneg h₀,h.success,h.answered⟩

theorem apply_dated (h₀ : 0 ≤ t₀) {op : StoreOp} {m : PeerMap}
    (hm : ∀ addr rec, m addr = some rec → Dated t₀ u rec) (hop : OpDated t₀ u op)
    (addr : NetAddress) (rec : PeerRecord) (h : apply op m addr = some rec) : Dated t₀ u rec := by
  cases leaves_of_apply h with
  | upserted _ => exact hop
  | attempted now => exact dated_attempted h₀ (hm addr) hop
  | seen now _ => exact dated_seenRecord h₀ (hm addr) hop
  | kept hkept _ => exact hm addr rec hkept

theorem custody_dated (h₀ : 0 ≤ t₀) :
    Custody d t₀ (fun u _ rec => Dated t₀ u rec) (fun u x => HeldDated t₀ u x) where
  record_mono _ _ _ _ hu h := h.mono hu
  held_mono _ _ _ hu h := h.mono hu
  fresh s x h hx := by
    have hnow : Within t₀ s.clock s.clock := ⟨h.clock,Int64.le_refl _⟩
    cases hx with
    | @run caller addr inherited _ _ haddr hin hrun =>
      cases hrun with
      | read _ => trivial
      | stamp version _ =>
        exact ⟨hnow.of_nonneg h₀,hnow.of_nonneg h₀,hnow.of_nonneg h₀,Or.inl h.clock⟩
      | discovered addresses => exact hnow
      | failed _ => exact hnow
    | bootstrap addrs => exact hnow
    | prune => trivial
    | tick => exact hnow
    | @due now rec htick _ =>
      have hw : Within t₀ s.clock now := h.held _ htick
      exact hw
    | submit _ => trivial
    | offer _ => trivial
  apply _ _ _ hm hop := apply_dated h₀ hm hop

inductive Produced (c : Codec) (routable : IpAddr → Bool) (t₀ : Int64) : Db → Int64 → Prop
  | empty : Produced c routable t₀ .empty t₀
  | run {db : Db} {u u' : Int64} {s : System} (config : SchedulerConfig) (es : List Event)
      (h : Produced c routable t₀ db u) (hu : u ≤ u')
      (hr : Lib.run (step ⟨c,routable,config⟩)
        (start ⟨c,routable,config⟩ (openStore c (.compatible db)) u') es = some s) :
      Produced c routable t₀ s.db s.clock

structure WellKept (c : Codec) (t₀ : Int64) (db : Db) (u : Int64) : Prop where
  clock : t₀ ≤ u
  exact : Exact c db
  keyed : Keyed c db
  canonical : ∀ addr rec, view c db addr = some rec → addr.Canonical
  dated : ∀ addr rec, view c db addr = some rec → Dated t₀ u rec

theorem row_purge (c : Codec) (db : Db) (key : Bytes) :
    row c (purgeUndecodable c db).2 key = row c db key := by
  simp only [row,purgeUndecodable,Table.get_removeAll]
  split
  · next hk =>
    obtain ⟨⟨k,v⟩,hm,hd⟩ := List.mem_filterMap.mp hk
    rw [Table.mem_iter] at hm
    cases hdec : c.decodeRecord v with
    | ok rec => simp [hdec] at hd
    | error err =>
      simp only [hdec,Option.some.injEq] at hd
      rw [← hd,hm]
      simp [hdec,Except.toOption]
  · rfl

theorem view_open (c : Codec) (db : Db) : view c (openStore c (.compatible db)) = view c db := by
  funext addr
  exact row_purge c db (c.encodeKey addr)

theorem keyed_open {c : Codec} {db : Db} (h : Keyed c db) : Keyed c (openStore c (.compatible db)) := by
  intro key rec hr
  have hrow : row c (openStore c (.compatible db)) key = row c db key := row_purge c db key
  exact h key rec (hrow ▸ hr)

theorem wellKept_run {c : Codec} {routable : IpAddr → Bool} {config : SchedulerConfig} {db : Db}
    {es : List Event} (h₀ : 0 ≤ t₀) (h : WellKept c t₀ db u) (hu : u ≤ u')
    (hr : run (step ⟨c,routable,config⟩)
      (start ⟨c,routable,config⟩ (openStore c (.compatible db)) u') es = some s) :
    WellKept c t₀ s.db s.clock := by
  have hx : Exact c (openStore c (.compatible db)) := exact_open _
  have hk : Keyed c (openStore c (.compatible db)) := keyed_open h.keyed
  have hclock : t₀ ≤ u' := Int64.le_trans h.clock hu
  have hcan := kept_run (custody_admits admits_canonical) hx hk hclock
    (fun addr rec hv => h.canonical addr rec (by rwa [view_open] at hv)) hr
  have hdated := kept_run (custody_dated h₀) hx hk hclock
    (fun addr rec hv => (h.dated addr rec (by rwa [view_open] at hv)).mono hu) hr
  exact ⟨hcan.clock,hcan.exact,hcan.keyed,hcan.records,hdated.records⟩

theorem produced_wellKept {c : Codec} {routable : IpAddr → Bool} {db : Db} (h₀ : 0 ≤ t₀)
    (h : Produced c routable t₀ db u) : WellKept c t₀ db u := by
  induction h with
  | empty =>
    exact ⟨Int64.le_refl _,exact_empty,keyed_empty,fun addr rec hv => by simp [view_empty] at hv,
      fun addr rec hv => by simp [view_empty] at hv⟩
  | run config es _ hu hr ih => exact wellKept_run h₀ ih hu hr

end System

end DnsSeeder
