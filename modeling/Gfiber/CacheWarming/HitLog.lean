import Mathlib.Data.List.AList
import Mathlib.Data.List.Sort
import Mathlib.Data.Prod.Lex
import Mathlib.Data.List.Lex
import Gfiber.Lib.Iteration
import Gfiber.Lib.Utf8

/-! The log of DNS queries by which hosts are ranked, and the file that it is kept in. -/

set_option autoImplicit false

namespace Gfiber.CacheWarming

open Lib

section Entries

def topN : Nat :=
  50

/-- A key of the dictionary. A text of ASCII is the same key as `str` and as `unicode`, and is
kept as bytes. -/
inductive Host where
  | bytes (text : List Byte)
  | unicode (points : List Nat)
deriving DecidableEq, Repr

def Host.ofUnicode (points : List Nat) : Host :=
  if points.all (· < 128) then .bytes (points.map (BitVec.ofNat 8)) else .unicode points

/-- The hits and the time of a host, in a tuple if it has been queried, and in a list if it has
been loaded. -/
inductive Entry where
  | tuple (hits : Nat) (time : List Byte)
  | list (hits : Nat) (time : List Nat)
deriving DecidableEq, Repr

namespace Entry

def hits : Entry → Nat
  | tuple hits _ => hits
  | list hits _ => hits

/-- What two entries are compared by: any list is less than any tuple. -/
def rank : Entry → Bool ×ₗ ℕ ×ₗ List ℕ
  | tuple hits time => toLex (true, toLex (hits, time.map BitVec.toNat))
  | list hits time => toLex (false, toLex (hits, time))

end Entry

abbrev HitLog := AList fun _ : Host => Entry

end Entries

section Files

/-- A member of the object in the file: the host, the hits and the time. -/
abbrev Record := List Nat × Nat × List Nat

/-- What the encoder makes of a text, which has to be UTF-8 if it is not `unicode`. -/
def Host.encode : Host → Option (List Nat)
  | bytes text => readUtf8 text
  | unicode points => some points

def encodeEntry : Host × Entry → Option Record
  | (host, .tuple hits time) => do return (← host.encode, hits, ← readUtf8 time)
  | (host, .list hits time) => do return (← host.encode, hits, time)

/-- `json.dump`. Without a file there is none, or one that cannot be read because the encoder has
failed in the middle of it. -/
def saveHosts (entries : List (Host × Entry)) : Option (List Record) :=
  entries.mapM encodeEntry

/-- Two surrogates in a row are read as one character. -/
def joinSurrogates : List Nat → List Nat
  | high :: low :: rest =>
      if 0xd800 ≤ high ∧ high < 0xdc00 ∧ 0xdc00 ≤ low ∧ low < 0xe000 then
        (0x10000 + (high - 0xd800) * 1024 + (low - 0xdc00)) :: joinSurrogates rest
      else high :: joinSurrogates (low :: rest)
  | points => points

/-- A host that is there again replaces the earlier one. -/
def loadRecord (log : HitLog) (record : Record) : HitLog :=
  log.insert (Host.ofUnicode (joinSurrogates record.1))
    (.list record.2.1 (joinSurrogates record.2.2))

def loadHosts (file : Option (List Record)) : HitLog :=
  match file with
  | some records => records.foldl loadRecord ∅
  | none => ∅

end Files

section Queries

/-- `qry.partition(' ')`, of which the separator is not used. -/
def partitionQuery (qry : List Byte) : List Byte × Host :=
  (qry.takeWhile (· ≠ 32), .bytes ((qry.dropWhile (· ≠ 32)).drop 1))

def processQuery (qry : List Byte) (log : HitLog) : HitLog :=
  let (time, host) := partitionQuery qry
  match log.lookup host with
  | some entry => log.insert host (.tuple (entry.hits + 1) time)
  | none => log.insert host (.tuple 1 time)

end Queries

section Warming

/-- What comes of a lookup: an answer, a `DNSException` or any other exception. -/
inductive Answer where
  | found
  | dnsException
  | raises
deriving DecidableEq, Repr

/-- `hit_log.get`, of a host that is in the log. -/
def rankOf (log : HitLog) (host : Host) : Bool ×ₗ ℕ ×ₗ List ℕ :=
  ((log.lookup host).map Entry.rank).getD (toLex (false, toLex (0, [])))

/-- `sorted(hit_log, key=hit_log.get, reverse=True)`. -/
def sortHitLog (order : IterationOrder Host) (log : HitLog) : List Host :=
  (order.arrange log.keys).insertionSort fun left right => rankOf log right ≤ rankOf log left

/-- The loop over the hosts, of which one that fails is removed while the loop goes on, so that the
one after it is not fetched. What is left of the log and of the hosts, unless it is cut short. -/
def fetchHosts (answer : Host → Answer) : List Host → HitLog → HitLog × Option (List Host)
  | [], log => (log, some [])
  | host :: rest, log =>
      match answer host with
      | .found =>
          let (log, hosts) := fetchHosts answer rest log
          (log, hosts.map fun hosts => host :: hosts)
      | .dnsException =>
          match rest with
          | [] => (log.erase host, some [])
          | next :: rest =>
              let (log, hosts) := fetchHosts answer rest (log.erase host)
              (log, hosts.map fun hosts => next :: hosts)
      | .raises => (log, none)

def hitLogSubset (log : HitLog) (hosts : List Host) : List (Host × Entry) :=
  hosts.filterMap fun host => (log.lookup host).map fun entry => (host, entry)

/-- The log after a pass, and the file. The two dictionaries have each their own order. -/
def warmCache (order : IterationOrder Host) (saving : IterationOrder (Host × Entry))
    (answer : Host → Answer) (log : HitLog) (file : Option (List Record)) :
    HitLog × Option (List Record) :=
  let hosts := (sortHitLog order log).take topN
  match fetchHosts answer hosts log with
  | (log, some hosts) => (log, saveHosts (saving.arrange (hitLogSubset log hosts)))
  | (log, none) => (log, file)

end Warming

end Gfiber.CacheWarming
