import Gfiber.CacheWarming.HitLog

/-! The lookups of one pass, with the list that the loop walks and changes. -/

set_option autoImplicit false

namespace Gfiber.CacheWarming.Fetch

open Lib

/-- The hosts that have been queried, what is left of the log, and of the list unless an exception
has ended the loop. -/
structure Looped where
  queried : List Host
  log : HitLog
  hosts : Option (List Host)

def Looped.after (host : Host) (looped : Looped) : Looped :=
  { looped with queried := host :: looped.queried }

/-- The loop from an index on. A host that is removed moves the ones behind it forward, and `del`
raises for a host that is not in the log. -/
def loop (answer : Host → Answer) (hosts : List Host) (index : Nat) (log : HitLog) : Looped :=
  if inside : index < hosts.length then
    let host := hosts[index]
    match answer host with
    | .found => (loop answer hosts (index + 1) log).after host
    | .dnsException =>
        if host ∈ log then
          have shorter : (hosts.erase host).length = hosts.length - 1 :=
            List.length_erase_of_mem (List.getElem_mem inside)
          (loop answer (hosts.erase host) (index + 1) (log.erase host)).after host
        else ⟨[host], log, none⟩
    | .raises => ⟨[host], log, none⟩
  else ⟨[], log, some hosts⟩
termination_by hosts.length - index

/-- `hit_log[k]` raises for a host that is not in the log. -/
def hitLogSubset (log : HitLog) : List Host → Option (List (Host × Entry))
  | [] => some []
  | host :: hosts => do
      let entry ← log.lookup host
      let entries ← hitLogSubset log hosts
      return (host, entry) :: entries

/-- What a pass leaves, with the entries that `save_hosts` is given. -/
structure Fetched where
  queried : List Host
  log : HitLog
  saved : Option (List (Host × Entry))

def fetch (answer : Host → Answer) (hosts : List Host) (log : HitLog) : Fetched :=
  let hosts := if topN < hosts.length then hosts.take topN else hosts
  let looped := loop answer hosts 0 log
  ⟨looped.queried, looped.log, looped.hosts.bind (hitLogSubset looped.log)⟩

end Gfiber.CacheWarming.Fetch
