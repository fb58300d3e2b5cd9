import DnsSeeder.Net
import DnsSeeder.Store.Filter

namespace DnsSeeder

structure Networks (N : Type) where
  iter : List N
  dnsSeeders : N → List String
  defaultP2pPort : N → UInt16
  display : N → String

namespace NetworkGate

variable {N : Type} [DecidableEq N] (nets : Networks N) (fromStr : String → Option SocketAddr)

def supportedNetworks : List N := nets.iter.filter (fun n => !(nets.dnsSeeders n).isEmpty)

def isSupported (network : N) : Bool := (supportedNetworks nets).any (fun n => n = network)

def validateSeederFormat (seeder : Option String) : Except String SocketAddr :=
  match seeder with
  | none => .error "--seeder is required"
  | some raw =>
      match fromStr (trimmed raw) with
      | some addr => .ok addr
      | none => .error
          ("--seeder must be a literal IP:port (IPv4 or `[IPv6]:port`); got `" ++ raw ++ "`")

def requireSeederForUnknownNetwork (network : N) (seeder : Option String) : Except String Unit :=
  if isSupported nets network then
    if seeder.isSome then (validateSeederFormat fromStr seeder).map (fun _ => ()) else .ok ()
  else if seeder.isNone then
    let builtins := ", ".intercalate ((supportedNetworks nets).map nets.display)
    .error ("network `" ++ nets.display network ++
      "` has no built-in DNS seeders; pass --seeder IP:port to bootstrap. Built-in networks: " ++ builtins)
  else (validateSeederFormat fromStr seeder).map (fun _ => ())

def effectiveDefaultPort (network : N) (seeder : Option String) : UInt16 :=
  if isSupported nets network then nets.defaultP2pPort network
  else
    match validateSeederFormat fromStr seeder with
    | .ok addr => addr.port
    | .error _ => nets.defaultP2pPort network

variable {nets fromStr} {network : N} {raw : String} {addr : SocketAddr}

theorem validate_ok_iff {seeder : Option String} : validateSeederFormat fromStr seeder = .ok addr ↔
    ∃ raw, seeder = some raw ∧ fromStr (trimmed raw) = some addr := by
  cases seeder with
  | none => simp [validateSeederFormat]
  | some raw =>
    rw [validateSeederFormat]
    split
    · next found hfound => simp [hfound]
    · next hnone => simp [hnone]

theorem require_ok_iff {seeder : Option String} (h : isSupported nets network = false) :
    requireSeederForUnknownNetwork nets fromStr network seeder = .ok () ↔
      ∃ addr, validateSeederFormat fromStr seeder = .ok addr := by
  rw [requireSeederForUnknownNetwork,h,if_neg Bool.false_ne_true]
  cases seeder with
  | none => simp [validateSeederFormat]
  | some raw =>
    rw [if_neg (by simp)]
    cases validateSeederFormat fromStr (some raw) with
    | error e => simp [Except.map]
    | ok addr => simp [Except.map]

theorem effectiveDefaultPort_unknown {seeder : Option String} (h : isSupported nets network = false)
    (hvalid : validateSeederFormat fromStr seeder = .ok addr) :
    effectiveDefaultPort nets fromStr network seeder = addr.port := by
  rw [effectiveDefaultPort,h,if_neg Bool.false_ne_true,hvalid]

end NetworkGate

end DnsSeeder
