import Gfiber.Speedtest.UrlObject

/-! How the list of regions is downloaded and parsed. The HTTP client hands out the body in as many
pieces as it reads. -/

set_option autoImplicit false

namespace Gfiber.Speedtest

open Lib

section Results

inductive StatusCode where
  | ok
  | invalidArgument
  | aborted
  | internal
  | failedPrecondition
  | unavailable
  | unknown
deriving DecidableEq, Repr

structure Status where
  code : StatusCode
  message : List Byte
deriving DecidableEq, Repr

/-- `Status::OK`. -/
def Status.okay : Status :=
  ⟨.ok, []⟩

def Status.invalid (message : String) : Status :=
  ⟨.invalidArgument, bytesOf message⟩

structure Region where
  id : List Byte
  name : List Byte
  urls : List UrlObject
deriving DecidableEq, Repr

structure RegionResult where
  startTime : Int
  endTime : Int
  status : Status
  regions : List Region
deriving DecidableEq, Repr

def UrlObject.url (object : UrlObject) : List Byte :=
  match object.observe with
  | none => []
  | some url => url.url

def UrlObject.setPath (object : UrlObject) (path : List Byte) : UrlObject :=
  { object with path := path }

end Results

section Parsing

/-- What is used of the library for JSON. `isMember` may throw on a value that is no object. -/
structure JsonLibrary where
  Value : Type
  parse : List Byte → Option Value
  isMember : Value → List Byte → Option Bool
  member : Value → List Byte → Value
  isString : Value → Bool
  asString : Value → List Byte
  isArray : Value → Bool
  elements : Value → List Value

variable (json : JsonLibrary)

def addUrl (urlJson : json.Value) (urls : List UrlObject) : Bool × List UrlObject :=
  if !json.isString urlJson then (false, urls)
  else
    let url := (UrlObject.new.parse (json.asString urlJson)).2
    if !url.parsed then (false, urls) else (true, urls ++ [url])

/-- The loop over the URLs of a region. -/
def addUrls : List json.Value → List UrlObject → Bool × List UrlObject
  | [], urls => (true, urls)
  | urlIt :: rest, urls =>
      match addUrl json urlIt urls with
      | (false, urls) => (false, urls)
      | (true, urls) => addUrls rest urls

/-- The URLs of a region, or the status that is returned. -/
def parseUrls (it : json.Value) : Option (Except Status (List UrlObject)) := do
  if !(← json.isMember it (bytesOf "url")) then
    some (.error (.invalid "Region URL missing"))
  else
    let url := json.member it (bytesOf "url")
    if json.isString url then
      match addUrl json url [] with
      | (false, _) => some (.error (.invalid "Failed to parse region URL"))
      | (true, urls) => some (.ok urls)
    else if json.isArray url then
      match addUrls json (json.elements url) [] with
      | (false, _) => some (.error (.invalid "Failed to parse region URL"))
      | (true, urls) =>
          if urls = [] then some (.error (.invalid "Region missing URLs")) else some (.ok urls)
    else some (.error (.invalid "Region URL not string or array"))

def parseName (it : json.Value) : Option (Except Status (List Byte)) := do
  if ← json.isMember it (bytesOf "name") then
    let name := json.member it (bytesOf "name")
    if !json.isString name then some (.error (.invalid "Region name not a string"))
    else some (.ok (json.asString name))
  else some (.ok [])

/-- One round of the loop over the regions. -/
def parseRegion (it : json.Value) : Option (Except Status Region) := do
  if !(← json.isMember it (bytesOf "id")) then some (.error (.invalid "Region missing id"))
  else
    let id := json.member it (bytesOf "id")
    if !json.isString id then some (.error (.invalid "Region id not a string"))
    else
      match ← parseName json it with
      | .error status => some (.error status)
      | .ok name =>
          match ← parseUrls json it with
          | .error status => some (.error status)
          | .ok urls => some (.ok ⟨json.asString id, name, urls⟩)

/-- The loop over the regions, which keeps those before an error. -/
def parseRegionsFrom : List json.Value → List Region → Option (Status × List Region)
  | [], regions => some (.okay, regions)
  | it :: rest, regions => do
      match ← parseRegion json it with
      | .error status => some (status, regions)
      | .ok region => parseRegionsFrom rest (regions ++ [region])

/-- `ParseRegions`, when it does not throw, with the vector that is filled if there is one. -/
def parseRegions (text : List Byte) : Option (List Region) → Option (Status × Option (List Region))
  | none => some (⟨.failedPrecondition, bytesOf "Regions is null"⟩, none)
  | some regions =>
      match json.parse text with
      | none => some (.invalid "Failed to parse regions JSON", some regions)
      | some root => do
          if !(← json.isMember root (bytesOf "regions")) then
            some (.invalid "no regions element found", some regions)
          else
            let list := json.member root (bytesOf "regions")
            if !json.isArray list then some (.invalid "no regions element found", some regions)
            else
              let (status, regions) ← parseRegionsFrom json (json.elements list) regions
              some (status, some regions)

end Parsing

section Loading

/-- `CURLcode`. -/
abbrev CurlCode : Type := Nat

/-- `CURLE_OK`. -/
def curleOk : CurlCode := 0

/-- What comes of a request: the code that is returned, and the pieces of the body that the
callback was given. -/
structure Response where
  code : CurlCode
  chunks : List (List Byte)
deriving DecidableEq, Repr

structure RegionOptions where
  requestFactory : Option (UrlObject → Response)
  global : Bool
  globalUrl : UrlObject
  regionalUrls : List UrlObject

/-- What a call finds: the clock at the start and at the end, the names of the codes, and what is in
the fields that a copy of a URL leaves uninitialized. -/
structure Surroundings where
  startTime : Int
  endTime : Int
  errorString : CurlCode → List Byte
  absolute : Bool
  port : Int

variable (json : JsonLibrary) (around : Surroundings)

/-- The callback of the download. -/
def assign (_ data : List Byte) : List Byte :=
  data

def configUrl (options : RegionOptions) : UrlObject :=
  (options.globalUrl.copy around.absolute around.port).setPath (bytesOf "//config")

/-- A list that was given explicitly. -/
def explicitRegions (urls : List UrlObject) : List Region :=
  urls.map fun url => ⟨[], [], [(UrlObject.new.parse url.url).2]⟩

def RegionResult.of (status : Status) (regions : List Region) : RegionResult :=
  ⟨around.startTime, around.endTime, status, regions⟩

/-- `LoadRegions`, when nothing throws. -/
def loadRegions (options : RegionOptions) : Option RegionResult :=
  match options.requestFactory with
  | none => some (.of around (.invalid "request factory not set") [])
  | some factory =>
      if !options.global then some (.of around .okay (explicitRegions options.regionalUrls))
      else
        let response := factory (configUrl around options)
        let text := response.chunks.foldl assign []
        if response.code ≠ curleOk then
          some (.of around ⟨.internal, around.errorString response.code⟩ [])
        else do
          let (status, regions) ← parseRegions json text (some [])
          some (.of around status (regions.getD []))

end Loading

end Gfiber.Speedtest
