import Gfiber.Lib.CString

/-! URLs as the speed test reads and writes them. A position in the text is the
text from there on, and a part that returns false leaves the position alone. -/

set_option autoImplicit false

namespace Gfiber.Speedtest

open Lib

section Characters

def isUnreserved (ch : Byte) : Bool :=
  isalnum ch || ch = ascii '-' || ch = ascii '.' || ch = ascii '-'

def isGenDelim (ch : Byte) : Bool :=
  (bytesOf ":/?#[]@").contains ch

def isSubDelim (ch : Byte) : Bool :=
  (bytesOf "!$&`()*+,;=").contains ch

def isReserved (ch : Byte) : Bool :=
  isGenDelim ch || isSubDelim ch

def isPchar (ch : Byte) : Bool :=
  isUnreserved ch || isSubDelim ch || ch = ascii ':' || ch = ascii '@'

def isQuery (ch : Byte) : Bool :=
  isPchar ch || ch = ascii '?' || ch = ascii '/'

def isFragment (ch : Byte) : Bool :=
  isQuery ch

end Characters

section Parts

inductive SchemeState where
  | alpha
  | alphaNum
  | colon
  | firstSlash
  | secondSlash
deriving DecidableEq, Repr

def schemeFrom : SchemeState → (scheme : List Byte) → List Byte → Option (List Byte × List Byte)
  | _, _, [] => none
  | .alpha, scheme, ch :: rest =>
      if !isalpha ch then none else schemeFrom .alphaNum (scheme ++ [ch]) rest
  | .alphaNum, scheme, ch :: rest =>
      if ch = ascii ':' then schemeFrom .colon scheme rest
      else if !isalnum ch && ch ≠ ascii '-' && ch ≠ ascii '-' && ch ≠ ascii '.' then none
      else schemeFrom .alphaNum (scheme ++ [ch]) rest
  | .colon, scheme, ch :: rest =>
      if ch ≠ ascii '/' then none else schemeFrom .firstSlash scheme rest
  | .firstSlash, scheme, ch :: rest =>
      if ch ≠ ascii '/' then none else schemeFrom .secondSlash scheme rest
  | .secondSlash, scheme, ch :: rest => some (scheme, ch :: rest)

def scheme (current : List Byte) : Option (List Byte × List Byte) :=
  schemeFrom .alpha [] current

inductive IPv6State where
  | openSquare
  | address
  | closeSquare
deriving DecidableEq, Repr

def ipv6From : IPv6State → (taken : List Byte) → List Byte → Option (List Byte × List Byte)
  | .closeSquare, taken, rest => some (taken, rest)
  | _, _, [] => none
  | .openSquare, taken, ch :: rest =>
      if ch ≠ ascii '[' then none else ipv6From .address (taken ++ [ch]) rest
  | .address, taken, ch :: rest =>
      if ch = ascii ']' then ipv6From .closeSquare (taken ++ [ch]) rest
      else if !isxdigit ch && ch ≠ ascii ':' then none
      else ipv6From .address (taken ++ [ch]) rest

def ipv6 (current : List Byte) : Option (List Byte × List Byte) :=
  ipv6From .openSquare [] current

def host (current : List Byte) : Option (List Byte × List Byte) :=
  let taken := current.takeWhile fun ch => !isReserved ch
  if taken = [] then none else some (taken, current.dropWhile fun ch => !isReserved ch)

/-- `stream >> int`: a number that does not fit fails. -/
def parseInt (text : List Byte) : Option Int :=
  let (negative, digits) := signedDigits text
  let value : Int := if negative then -decimal digits else decimal digits
  if digits = [] ∨ value < -2 ^ 31 ∨ 2 ^ 31 ≤ value then none else some value

inductive PortState where
  | colon
  | firstDigit
  | digit
deriving DecidableEq, Repr

/-- The digits of a port and what comes after them. -/
def portFrom : PortState → (digits : List Byte) → List Byte → Option (List Byte × List Byte)
  | .digit, digits, [] => some (digits, [])
  | _, _, [] => none
  | .colon, digits, ch :: rest =>
      if ch ≠ ascii ':' then none else portFrom .firstDigit digits rest
  | .firstDigit, digits, ch :: rest =>
      if !isdigit ch then none else portFrom .digit (digits ++ [ch]) rest
  | .digit, digits, ch :: rest =>
      if !isdigit ch then some (digits, ch :: rest) else portFrom .digit (digits ++ [ch]) rest

def port (current : List Byte) : Option (Int × List Byte) := do
  let (digits, rest) ← portFrom .colon [] current
  let portnum ← parseInt digits
  if portnum < 1 ∨ portnum > 65535 then none else some (portnum, rest)

inductive PathState where
  | leadingSlash
  | slash
  | pchar
deriving DecidableEq, Repr

def pathFrom : PathState → (taken : List Byte) → List Byte → Option (List Byte × List Byte)
  | _, taken, [] => some (taken, [])
  | .leadingSlash, taken, ch :: rest =>
      if ch ≠ ascii '/' then none else pathFrom .slash (taken ++ [ch]) rest
  | .slash, taken, ch :: rest =>
      if !isPchar ch then some (taken, ch :: rest) else pathFrom .pchar (taken ++ [ch]) rest
  | .pchar, taken, ch :: rest =>
      if ch = ascii '/' then pathFrom .slash (taken ++ [ch]) rest
      else if !isPchar ch then some (taken, ch :: rest)
      else pathFrom .pchar (taken ++ [ch]) rest

def absolutePath (current : List Byte) : Option (List Byte × List Byte) :=
  pathFrom .leadingSlash [] current

/-- The states of the two parts that begin with a mark of their own. -/
inductive MarkState where
  | mark
  | firstChar
  | body
deriving DecidableEq, Repr

def markedFrom (mark : Char) (inside : Byte → Bool) :
    MarkState → (taken : List Byte) → List Byte → Option (List Byte × List Byte)
  | _, taken, [] => some (taken, [])
  | .mark, taken, ch :: rest =>
      if ch ≠ ascii mark then none else markedFrom mark inside .firstChar taken rest
  | .firstChar, taken, ch :: rest =>
      if !inside ch then some (taken, ch :: rest)
      else markedFrom mark inside .body (taken ++ [ch]) rest
  | .body, taken, ch :: rest =>
      if !inside ch then some (taken, ch :: rest)
      else markedFrom mark inside .body (taken ++ [ch]) rest

def queryString (current : List Byte) : Option (List Byte × List Byte) :=
  markedFrom '?' isQuery .mark [] current

def fragment (current : List Byte) : Option (List Byte × List Byte) :=
  markedFrom '#' isFragment .mark [] current

end Parts

section Urls

def kSchemeHttp : List Byte := bytesOf "http"

def kSchemeHttps : List Byte := bytesOf "https"

def kDefaultScheme : List Byte := kSchemeHttp

def kDefaultHttpPort : Int := 80

def kDefaultHttpsPort : Int := 443

/-- A URL that has been parsed. -/
structure Url where
  absolute : Bool
  scheme : List Byte
  host : List Byte
  port : Int
  path : List Byte
  queryString : List Byte
  fragment : List Byte
deriving DecidableEq, Repr

/-- What a part leaves when it returns false. -/
def orElse {Value : Type} (part : Option (Value × List Byte)) (value : Value)
    (current : List Byte) : Value × List Byte :=
  part.getD (value, current)

/-- The parts after the authority, and the end of the text after them. -/
def parseRest (authority : Url) (current : List Byte) : Option Url :=
  let (pathPart, current) := orElse (absolutePath current) [] current
  let (queryPart, current) := orElse (queryString current) [] current
  let (fragmentPart, current) := orElse (fragment current) [] current
  if current ≠ [] then none
  else some
    { authority with
      path := if authority.absolute ∧ pathPart = [] then bytesOf "/" else pathPart
      queryString := queryPart
      fragment := fragmentPart }

def defaultPort (scheme : List Byte) : Int :=
  if scheme = kSchemeHttp then kDefaultHttpPort
  else if scheme = kSchemeHttps then kDefaultHttpsPort
  else 0

def parse (url : List Byte) : Option Url :=
  let schemePart := scheme url
  let current := (schemePart.map Prod.snd).getD url
  match (ipv6 current).or (host current) with
  | none =>
      if schemePart.isSome then none
      else parseRest ⟨false, [], [], 0, [], [], []⟩ current
  | some (hostPart, current) =>
      let schemeText := (schemePart.map Prod.fst).getD kDefaultScheme
      let (portnum, current) := orElse (port current) (defaultPort schemeText) current
      parseRest ⟨true, schemeText, hostPart, portnum, [], [], []⟩ current

def Url.isDefaultPort (url : Url) : Bool :=
  url.port = 0 || (url.scheme = kSchemeHttp && url.port = kDefaultHttpPort) ||
    (url.scheme = kSchemeHttps && url.port = kDefaultHttpsPort)

def Url.authority (url : Url) : List Byte :=
  url.scheme ++ bytesOf "://" ++ url.host ++
    if url.isDefaultPort then [] else bytesOf ":" ++ printInt url.port

def Url.url (url : Url) : List Byte :=
  (if url.absolute then url.authority else []) ++ url.path ++
    (if url.queryString = [] then [] else bytesOf "?" ++ url.queryString) ++
    if url.fragment = [] then [] else bytesOf "#" ++ url.fragment

end Urls

end Gfiber.Speedtest
