import DnsSeeder.Crawler.Runner
import DnsSeeder.Crawler.WorkerPool

namespace DnsSeeder

open Lib PeerStore

inductive Sched where
  | idle
  | seeding (accepted : List NetAddress) (now : Int64)
  | pruning (cutoff : Int64)
  | ticking (now : Int64)
  | scanning (now : Int64) (candidates : List PeerRecord)
  | offering (now : Int64) (net : NetAddress) (candidates : List PeerRecord)
  | recording (now : Int64) (net : NetAddress) (candidates : List PeerRecord)
  -- a panic ends the process; what other tasks still do after it in a run is only more than can happen
  | panicked

structure Post where
  addr : SocketAddr
  runner : Runner

structure System where
  clock : Int64
  db : Db
  sched : Sched
  pool : WorkerPool Runner
  posts : List Post

inductive PoolMove where
  | receive
  | spawn
  | start (i : Nat)
  | finish (i : Nat)
  | panic (i : Nat)
  | release (i : Nat)
  | join (i : Nat)

inductive Event where
  | advance (t : Int64)
  | seed (addrs : List SocketAddr)
  | prune
  | tick
  | sched
  | pool (m : PoolMove)
  | work (i : Nat) (e : RunnerEvent)
  | submit (addr : SocketAddr)
  | post (j : Nat) (e : RunnerEvent)
  | disconnect (j : Nat)
  | delete (addr : SocketAddr)

namespace System

variable (d : Node)

def start (db : Db) (clock : Int64) : System where
  clock := clock
  db := db
  sched := .idle
  pool := .spawn d.config.threads
  posts := []

def dueQuery (now : Int64) : DueQuery where
  nowMs := now
  staleGoodMs := durationToMs d.config.staleGood
  staleBadMs := durationToMs d.config.staleBad
  deadCutoffMs := saturatingSub now (durationToMs d.config.deadAfter)

def fetchTarget : Nat := min (max d.config.threads.toNat 1 * 8) (2^64 - 1)

def schedMove (s : System) : Option (System × Option StoreOp) :=
  match s.sched with
  | .idle => none
  | .panicked => none
  | .seeding accepted now => some ({ s with sched := .idle },some (.insertOrRefreshSeenBatch accepted now))
  | .pruning cutoff => some ({ s with sched := .idle },some (.pruneDead cutoff))
  | .ticking now =>
      match dueForProbe d.codec (dueQuery d now) (fetchTarget d) s.db with
      | some candidates => some ({ s with sched := .scanning now candidates },none)
      | none => some ({ s with sched := .panicked },none)
  | .scanning _ [] => some ({ s with sched := .idle },none)
  | .scanning now (rec :: rest) =>
      if d.acceptable rec.address then
        (s.pool.step (.insert rec.address)).map (fun p =>
          match p.enqueue with
          | .inserted net => ({ s with pool := p, sched := .offering now net rest },none)
          | _ => ({ s with pool := p, sched := .scanning now rest },none))
      else some ({ s with sched := .scanning now rest },none)
  | .offering now net rest =>
      match s.pool.enqueue with
      | .inserted _ => (s.pool.step .send).map (fun p =>
          match p.enqueue with
          | .idle => ({ s with pool := p, sched := .recording now net rest },none)
          | _ => ({ s with pool := p },none))
      | .rejected _ _ => (s.pool.step .rollback).map (fun p => ({ s with pool := p, sched := .idle },none))
      | .idle => none
  | .recording now net rest => some ({ s with sched := .scanning now rest },some (.recordAttempt net now))

def poolEvent (p : WorkerPool Runner) : PoolMove → Option (PoolEvent Runner)
  | .receive => some .receive
  | .spawn => some .spawn
  | .start i => some (.start i .probing)
  | .finish i =>
      match p.workers[i]? with
      | some ⟨_,.running .done⟩ => some (.finish i false)
      | _ => none
  | .panic i => some (.finish i true)
  | .release i => some (.release i)
  | .join i => some (.join i)

def workMove (s : System) (i : Nat) (e : RunnerEvent) : Option (System × Option StoreOp) :=
  match s.pool.workers[i]? with
  | some ⟨addr,.running r⟩ => do
      let (r',op) ← r.step d .worker addr s.db s.clock e
      let p ← s.pool.step (.work i r')
      return ({ s with pool := p },op)
  | _ => none

def postMove (s : System) (j : Nat) (e : RunnerEvent) : Option (System × Option StoreOp) :=
  match s.posts[j]? with
  | some post => do
      let (r,op) ← post.runner.step d .submission post.addr s.db s.clock e
      return ({ s with posts := s.posts.set j ⟨post.addr,r⟩ },op)
  | none => none

def move (s : System) : Event → Option (System × Option StoreOp)
  | .advance t => if s.clock ≤ t then some ({ s with clock := t },none) else none
  | .seed addrs =>
      match s.sched with
      | .idle => some ({ s with sched := .seeding (d.acceptBootstrap addrs) s.clock },none)
      | _ => none
  | .prune =>
      match s.sched with
      | .idle =>
          some ({ s with sched := .pruning (saturatingSub s.clock (durationToMs d.config.deadAfter)) },none)
      | _ => none
  | .tick =>
      match s.sched with
      | .idle => some ({ s with sched := .ticking s.clock },none)
      | _ => none
  | .sched => schedMove d s
  | .pool m => do
      let e ← poolEvent s.pool m
      let p ← s.pool.step e
      return ({ s with pool := p },none)
  | .work i e => workMove d s i e
  | .submit addr =>
      (d.acceptSubmission addr).map (fun addr => ({ s with posts := s.posts ++ [⟨addr,.probing⟩] },none))
  | .post j e => postMove d s j e
  | .disconnect j =>
      match s.posts[j]? with
      | some ⟨_,.probing⟩ => some ({ s with posts := s.posts.eraseIdx j },none)
      | _ => none
  | .delete addr => some (s,some (.delete (netFrom addr)))

def transact (c : Codec) (db : Db) : Option StoreOp → Db
  | some op => exec c db op
  | none => db

def step (s : System) (e : Event) : Option System :=
  (move d s e).map (fun r => { r.1 with db := transact d.codec s.db r.2 })

end System

end DnsSeeder
