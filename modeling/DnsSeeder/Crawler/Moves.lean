import DnsSeeder.Crawler.System

namespace DnsSeeder

open Lib PeerStore

namespace System

variable (d : Node)

inductive SchedMoves (s : System) : System → Option StoreOp → Prop
  | seed {accepted : List NetAddress} {now : Int64} (hs : s.sched = .seeding accepted now) :
      SchedMoves s { s with sched := .idle } (some (.insertOrRefreshSeenBatch accepted now))
  | prune {cutoff : Int64} (hs : s.sched = .pruning cutoff) :
      SchedMoves s { s with sched := .idle } (some (.pruneDead cutoff))
  | query {now : Int64} {candidates : List PeerRecord} (hs : s.sched = .ticking now)
      (hdue : dueForProbe d.codec (dueQuery d now) (fetchTarget d) s.db = some candidates) :
      SchedMoves s { s with sched := .scanning now candidates } none
  | panic : SchedMoves s { s with sched := .panicked } none
  | finish {now : Int64} (hs : s.sched = .scanning now []) : SchedMoves s { s with sched := .idle } none
  | skip {now : Int64} {rec : PeerRecord} {rest : List PeerRecord}
      (hs : s.sched = .scanning now (rec :: rest)) :
      SchedMoves s { s with sched := .scanning now rest } none
  | insert {now : Int64} {rec : PeerRecord} {rest : List PeerRecord} {p : WorkerPool Runner}
      {net : NetAddress} (hs : s.sched = .scanning now (rec :: rest))
      (hp : s.pool.step (.insert rec.address) = some p) (he : p.enqueue = .inserted net) :
      SchedMoves s { s with pool := p, sched := .offering now net rest } none
  | duplicate {now : Int64} {rec : PeerRecord} {rest : List PeerRecord} {p : WorkerPool Runner}
      (hs : s.sched = .scanning now (rec :: rest)) (hp : s.pool.step (.insert rec.address) = some p) :
      SchedMoves s { s with pool := p, sched := .scanning now rest } none
  | accept {now : Int64} {net net' : NetAddress} {rest : List PeerRecord} {p : WorkerPool Runner}
      (hs : s.sched = .offering now net rest) (he : s.pool.enqueue = .inserted net')
      (hp : s.pool.step .send = some p) :
      SchedMoves s { s with pool := p, sched := .recording now net rest } none
  | reject {now : Int64} {net net' : NetAddress} {rest : List PeerRecord} {p : WorkerPool Runner}
      (hs : s.sched = .offering now net rest) (he : s.pool.enqueue = .inserted net')
      (hp : s.pool.step .send = some p) (hi : p.enqueue ≠ .idle) : SchedMoves s { s with pool := p } none
  | rollback {p : WorkerPool Runner} (hp : s.pool.step .rollback = some p) :
      SchedMoves s { s with pool := p, sched := .idle } none
  | record {now : Int64} {net : NetAddress} {rest : List PeerRecord}
      (hs : s.sched = .recording now net rest) :
      SchedMoves s { s with sched := .scanning now rest } (some (.recordAttempt net now))

inductive Moves (s : System) : Event → System → Option StoreOp → Prop
  | advance {t : Int64} (h : s.clock ≤ t) : Moves s (.advance t) { s with clock := t } none
  | seed (addrs : List SocketAddr) (hs : s.sched = .idle) :
      Moves s (.seed addrs) { s with sched := .seeding (d.acceptBootstrap addrs) s.clock } none
  | prune (hs : s.sched = .idle) : Moves s .prune
      { s with sched := .pruning (saturatingSub s.clock (durationToMs d.config.deadAfter)) } none
  | tick (hs : s.sched = .idle) : Moves s .tick { s with sched := .ticking s.clock } none
  | sched {t : System} {op : Option StoreOp} (h : SchedMoves d s t op) : Moves s .sched t op
  | pool {m : PoolMove} {e : PoolEvent Runner} {p : WorkerPool Runner} (he : poolEvent s.pool m = some e)
      (hp : s.pool.step e = some p) : Moves s (.pool m) { s with pool := p } none
  | work {i : Nat} {e : RunnerEvent} {addr : SocketAddr} {r r' : Runner} {p : WorkerPool Runner}
      {op : Option StoreOp} (hi : s.pool.workers[i]? = some ⟨addr,.running r⟩)
      (hr : r.step d .worker addr s.db s.clock e = some (r',op)) (hp : s.pool.step (.work i r') = some p) :
      Moves s (.work i e) { s with pool := p } op
  | submit {addr addr' : SocketAddr} (h : d.acceptSubmission addr = some addr') :
      Moves s (.submit addr) { s with posts := s.posts ++ [⟨addr',.probing⟩] } none
  | post {j : Nat} {e : RunnerEvent} {post : Post} {r : Runner} {op : Option StoreOp}
      (hj : s.posts[j]? = some post)
      (hr : post.runner.step d .submission post.addr s.db s.clock e = some (r,op)) :
      Moves s (.post j e) { s with posts := s.posts.set j ⟨post.addr,r⟩ } op
  | disconnect {j : Nat} : Moves s (.disconnect j) { s with posts := s.posts.eraseIdx j } none
  | delete (addr : SocketAddr) : Moves s (.delete addr) s (some (.delete (netFrom addr)))

variable {d} {s t : System}

theorem schedMoves_of_schedMove {op : Option StoreOp} (hm : schedMove d s = some (t,op)) :
    SchedMoves d s t op := by
  unfold schedMove at hm
  split at hm
  · cases hm
  · cases hm
  · next hs =>
    obtain ⟨rfl,rfl⟩ := Prod.mk.inj (Option.some.inj hm)
    exact .seed hs
  · next hs =>
    obtain ⟨rfl,rfl⟩ := Prod.mk.inj (Option.some.inj hm)
    exact .prune hs
  · next hs =>
    split at hm
    · next hdue =>
      obtain ⟨rfl,rfl⟩ := Prod.mk.inj (Option.some.inj hm)
      exact .query hs hdue
    · obtain ⟨rfl,rfl⟩ := Prod.mk.inj (Option.some.inj hm)
      exact .panic
  · next hs =>
    obtain ⟨rfl,rfl⟩ := Prod.mk.inj (Option.some.inj hm)
    exact .finish hs
  · next hs =>
    split at hm
    · obtain ⟨p,hp,hm⟩ := Option.map_eq_some_iff.mp hm
      split at hm
      · next he =>
        obtain ⟨rfl,rfl⟩ := Prod.mk.inj hm
        exact .insert hs hp he
      · obtain ⟨rfl,rfl⟩ := Prod.mk.inj hm
        exact .duplicate hs hp
    · obtain ⟨rfl,rfl⟩ := Prod.mk.inj (Option.some.inj hm)
      exact .skip hs
  · next hs =>
    split at hm
    · next he =>
      obtain ⟨p,hp,hm⟩ := Option.map_eq_some_iff.mp hm
      split at hm
      · obtain ⟨rfl,rfl⟩ := Prod.mk.inj hm
        exact .accept hs he hp
      · next hi =>
        obtain ⟨rfl,rfl⟩ := Prod.mk.inj hm
        exact .reject hs he hp hi
    · obtain ⟨p,hp,hm⟩ := Option.map_eq_some_iff.mp hm
      obtain ⟨rfl,rfl⟩ := Prod.mk.inj hm
      exact .rollback hp
    · cases hm
  · next hs =>
    obtain ⟨rfl,rfl⟩ := Prod.mk.inj (Option.some.inj hm)
    exact .record hs

theorem moves_of_move {e : Event} {op : Option StoreOp} (hm : move d s e = some (t,op)) :
    Moves d s e t op := by
  cases e with
  | advance u =>
    simp only [move] at hm
    split at hm
    · next h =>
      obtain ⟨rfl,rfl⟩ := Prod.mk.inj (Option.some.inj hm)
      exact .advance h
    · cases hm
  | seed addrs =>
    simp only [move] at hm
    split at hm
    · next hs =>
      obtain ⟨rfl,rfl⟩ := Prod.mk.inj (Option.some.inj hm)
      exact .seed addrs hs
    · cases hm
  | prune =>
    simp only [move] at hm
    split at hm
    · next hs =>
      obtain ⟨rfl,rfl⟩ := Prod.mk.inj (Option.some.inj hm)
      exact .prune hs
    · cases hm
  | tick =>
    simp only [move] at hm
    split at hm
    · next hs =>
      obtain ⟨rfl,rfl⟩ := Prod.mk.inj (Option.some.inj hm)
      exact .tick hs
    · cases hm
  | sched => exact .sched (schedMoves_of_schedMove hm)
  | pool m =>
    obtain ⟨e,he,hm⟩ := Option.bind_eq_some_iff.mp hm
    obtain ⟨p,hp,hm⟩ := Option.bind_eq_some_iff.mp hm
    obtain ⟨rfl,rfl⟩ := Prod.mk.inj (Option.some.inj hm)
    exact .pool he hp
  | work i e =>
    simp only [move,workMove] at hm
    split at hm
    · next hi =>
      obtain ⟨⟨r',op'⟩,hr,hm⟩ := Option.bind_eq_some_iff.mp hm
      obtain ⟨p,hp,hm⟩ := Option.bind_eq_some_iff.mp hm
      obtain ⟨rfl,rfl⟩ := Prod.mk.inj (Option.some.inj hm)
      exact .work hi hr hp
    · cases hm
  | submit addr =>
    obtain ⟨addr',h,hm⟩ := Option.map_eq_some_iff.mp hm
    obtain ⟨rfl,rfl⟩ := Prod.mk.inj hm
    exact .submit h
  | post j e =>
    simp only [move,postMove] at hm
    split at hm
    · next hj =>
      obtain ⟨⟨r,op'⟩,hr,hm⟩ := Option.bind_eq_some_iff.mp hm
      obtain ⟨rfl,rfl⟩ := Prod.mk.inj (Option.some.inj hm)
      exact .post hj hr
    · cases hm
  | disconnect j =>
    simp only [move] at hm
    split at hm
    · obtain ⟨rfl,rfl⟩ := Prod.mk.inj (Option.some.inj hm)
      exact .disconnect
    · cases hm
  | delete addr =>
    obtain ⟨rfl,rfl⟩ := Prod.mk.inj (Option.some.inj hm)
    exact .delete addr

end System

end DnsSeeder
