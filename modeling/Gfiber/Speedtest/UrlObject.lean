import Gfiber.Lib.Run
import Gfiber.Speedtest.Url

/-! The objects that hold a URL. The parser writes each part into its object as
soon as it is read, and leaves the other fields as they were. -/

set_option autoImplicit false

namespace Gfiber.Speedtest

open Lib

section Objects

structure UrlObject where
  parsed : Bool
  absolute : Bool
  scheme : List Byte
  host : List Byte
  port : Int
  path : List Byte
  queryString : List Byte
  fragment : List Byte
deriving DecidableEq, Repr

namespace UrlObject

/-- `Url()`. -/
def new : UrlObject :=
  ⟨false, false, [], [], 0, [], [], []⟩

end UrlObject

/-- An object while it is parsed, and the text from its position on. -/
structure UrlParser where
  object : UrlObject
  current : List Byte

namespace UrlParser

variable (parser : UrlParser)

def scheme : Bool × UrlParser :=
  match Speedtest.scheme parser.current with
  | none => (false, parser)
  | some (text, rest) => (true, ⟨{ parser.object with scheme := text }, rest⟩)

/-- `IPv6() || Host()`. -/
def host : Bool × UrlParser :=
  match (ipv6 parser.current).or (Speedtest.host parser.current) with
  | none => (false, parser)
  | some (text, rest) => (true, ⟨{ parser.object with host := text }, rest⟩)

def port : Bool × UrlParser :=
  match Speedtest.port parser.current with
  | none => (false, parser)
  | some (portnum, rest) => (true, ⟨{ parser.object with port := portnum }, rest⟩)

def absolutePath : UrlParser :=
  match Speedtest.absolutePath parser.current with
  | none => parser
  | some (text, rest) => ⟨{ parser.object with path := text }, rest⟩

/-- The state in which the loop over a part with a mark ends. -/
def markedEnd (mark : Char) (inside : Byte → Bool) : MarkState → List Byte → MarkState
  | state, [] => state
  | .mark, ch :: rest =>
      if ch ≠ ascii mark then .mark else markedEnd mark inside .firstChar rest
  | .firstChar, ch :: rest => if !inside ch then .body else markedEnd mark inside .body rest
  | .body, ch :: rest => if !inside ch then .body else markedEnd mark inside .body rest

/-- The text of a part, which is assigned only in the last state. -/
def markedPart (mark : Char) (inside : Byte → Bool) (current : List Byte) : Option (List Byte) :=
  if markedEnd mark inside .mark current = .body then
    (markedFrom mark inside .mark [] current).map Prod.fst
  else none

def queryString : UrlParser where
  object :=
    { parser.object with
      queryString := (markedPart '?' isQuery parser.current).getD parser.object.queryString }
  current := ((Speedtest.queryString parser.current).map Prod.snd).getD parser.current

def fragment : UrlParser where
  object :=
    { parser.object with
      fragment := (markedPart '#' isFragment parser.current).getD parser.object.fragment }
  current := ((Speedtest.fragment parser.current).map Prod.snd).getD parser.current

end UrlParser

namespace UrlObject

/-- What `Parse` fills in at the end of the text. -/
def complete (hasPort : Bool) (object : UrlObject) : UrlObject :=
  let object :=
    if object.absolute then
      let object :=
        if hasPort then object
        else if object.scheme = kSchemeHttp then { object with port := kDefaultHttpPort }
        else if object.scheme = kSchemeHttps then { object with port := kDefaultHttpsPort }
        else object
      if object.path = [] then { object with path := bytesOf "/" } else object
    else object
  { object with parsed := true }

end UrlObject

/-- `Url::Parse` after the authority. -/
def UrlParser.finish (parser : UrlParser) (hasPort : Bool) : Bool × UrlObject :=
  let parser := parser.absolutePath.queryString.fragment
  if parser.current ≠ [] then (false, parser.object)
  else (true, parser.object.complete hasPort)

/-- `Url::Parse` after the scheme. -/
def UrlParser.authority (parser : UrlParser) (hasScheme : Bool) : Bool × UrlObject :=
  let (absolute, parser) := parser.host
  let object := { parser.object with absolute := absolute }
  if hasScheme && !absolute then (false, object)
  else
    let object :=
      if !hasScheme && absolute then { object with scheme := kDefaultScheme } else object
    let parser : UrlParser := ⟨object, parser.current⟩
    let (hasPort, parser) := if absolute then parser.port else (false, parser)
    parser.finish hasPort

namespace UrlObject

/-- `Url::Parse`: what it returns, and the object after it. -/
def parse (object : UrlObject) (url : List Byte) : Bool × UrlObject :=
  let (hasScheme, parser) := UrlParser.scheme ⟨object, url⟩
  parser.authority hasScheme

/-- `Url(const Url &)`, with what happens to be in the fields that it leaves
uninitialized. -/
def copy (other : UrlObject) (absolute : Bool) (port : Int) : UrlObject :=
  if !other.parsed then { new with absolute := absolute, port := port } else other

/-- `operator=`, which goes on after its check. -/
def assign (object other : UrlObject) : UrlObject :=
  let object := if !other.parsed then { object with parsed := false } else object
  { object with
    parsed := true
    absolute := other.absolute
    scheme := other.scheme
    host := other.host
    port := other.port
    path := other.path
    queryString := other.queryString
    fragment := other.fragment }

/-- What can be seen of an object: all of its parts when it is ok. -/
def observe (object : UrlObject) : Option Url :=
  if object.parsed then
    some ⟨object.absolute, object.scheme, object.host, object.port, object.path,
      object.queryString, object.fragment⟩
  else none

end UrlObject

end Objects

section Stores

/-- The objects of a program by their names. -/
abbrev UrlStore := Nat → Option UrlObject

inductive UrlCall where
  | create (name : Nat)
  | construct (name : Nat) (url : List Byte)
  | parse (name : Nat) (url : List Byte)
  | copy (name source : Nat) (absolute : Bool) (port : Int)
  | assign (name source : Nat)
deriving Repr

def UrlStore.set (store : UrlStore) (name : Nat) (object : UrlObject) : UrlStore :=
  Function.update store name (some object)

/-- A call on objects that are there. -/
def UrlStore.call (store : UrlStore) : UrlCall → Option UrlStore
  | .create name => some (store.set name .new)
  | .construct name url => some (store.set name (UrlObject.new.parse url).2)
  | .parse name url => do
      let object ← store name
      some (store.set name (object.parse url).2)
  | .copy name source absolute port => do
      let other ← store source
      some (store.set name (other.copy absolute port))
  | .assign name source => do
      let object ← store name
      let other ← store source
      some (store.set name (object.assign other))

end Stores

section Values

/-- What the objects are meant to show: a URL, or none when they are not ok. -/
abbrev UrlValues := Nat → Option Url

/-- The same calls on values, where only the text or the source counts. -/
def UrlValues.call (values : UrlValues) : UrlCall → UrlValues
  | .create name => Function.update values name none
  | .construct name url => Function.update values name (UrlObject.new.parse url).2.observe
  | .parse name url => Function.update values name (UrlObject.new.parse url).2.observe
  | .copy name source _ _ => Function.update values name (values source)
  | .assign name source => Function.update values name (values source)

/-- The objects beside what they are meant to show. -/
structure UrlHistory where
  store : UrlStore
  values : UrlValues

def UrlHistory.start : UrlHistory :=
  ⟨fun _ => none, fun _ => none⟩

def UrlHistory.Step (history : UrlHistory) (call : UrlCall) (next : UrlHistory) : Prop :=
  history.store.call call = some next.store ∧ next.values = history.values.call call

/-- The state after a call that is possible. -/
def UrlHistory.after (history : UrlHistory) (call : UrlCall) : UrlHistory :=
  ⟨(history.store.call call).getD history.store, history.values.call call⟩

def UrlHistory.Shown (history : UrlHistory) : Prop :=
  ∀ name object, history.store name = some object → object.observe = history.values name

end Values

end Gfiber.Speedtest
