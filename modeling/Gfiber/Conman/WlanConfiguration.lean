import Gfiber.Lib.Text

/-! The WLAN configurations that cwmpd writes, and the names of their files. -/

set_option autoImplicit false

namespace Gfiber.Conman

open Lib

inductive Band where
  | ghz24
  | ghz5
deriving DecidableEq, Repr

def Band.text : Band → Text
  | ghz24 => "2.4".toList
  | ghz5 => "5".toList

section FileNames

def commandFile : Text := "command.".toList

def accessPointFile : Text := "access_point.".toList

/-- What follows the start of a regular expression in which a dot stands for
any character but a newline. -/
def afterPattern : Text → Text → Option Text
  | [], text => some text
  | expected :: pattern, found :: text =>
      if if expected = '.' then found ≠ '\n' else found = expected then afterPattern pattern text
      else none
  | _ :: _, [] => none

/-- The text is the band, or ends with a dot and the band, without a newline
before them. -/
def bandAtEnd (band : Band) (text : Text) : Bool :=
  match Text.afterLiteral band.text.reverse text.reverse with
  | some [] => true
  | some ('.' :: suffix) => '\n' ∉ suffix
  | _ => false

/-- The group `band` of `WLAN_FILE_REGEXP_FMT`, whose `$` also matches before a
newline at the end. -/
def matchWlanFile (start name : Text) : Option Band := do
  let rest ← afterPattern start name
  let body := if rest.getLast? = some '\n' then rest.dropLast else rest
  if bandAtEnd .ghz24 body then some .ghz24
  else if bandAtEnd .ghz5 body then some .ghz5
  else none

/-- The `access_point` file of a suffix, which may be missing or empty, and a band. -/
def apFile (interfaceSuffix : Option Text) (band : Band) : Text :=
  let suffix := interfaceSuffix.getD []
  accessPointFile ++ (if suffix = [] then [] else suffix ++ ['.']) ++ band.text

end FileNames

section Commands

/-- The lines of `splitlines`, behind what the current one already has. -/
def splitLines (line : Text) : Text → List Text
  | [] => if line = [] then [] else [line]
  | '\r' :: '\n' :: rest => line :: splitLines [] rest
  | char :: rest =>
      if char = '\n' ∨ char = '\r' then line :: splitLines [] rest
      else splitLines (line ++ [char]) rest

/-- The attributes that options of `wifi set` are read into. -/
inductive OptionAttr where
  | ssid
  | interfaceSuffix
deriving DecidableEq, Repr

def binwifiOptionAttr (line : Text) : Option OptionAttr :=
  if line = "-s".toList ∨ line = "--ssid".toList then some .ssid
  else if line = "-S".toList ∨ line = "--interface-suffix".toList then some .interfaceSuffix
  else none

structure CommandOptions where
  ssid : Option Text
  passphrase : Option Text
  interfaceSuffix : Option Text
deriving DecidableEq, Repr

/-- The loop over the lines; `attr` is the option whose value the next line is. -/
def readOptions (attr : Option OptionAttr) (options : CommandOptions) :
    List Text → CommandOptions
  | [] => options
  | line :: rest =>
      match attr with
      | some .ssid => readOptions none { options with ssid := some line } rest
      | some .interfaceSuffix => readOptions none { options with interfaceSuffix := some line } rest
      | none =>
          let options :=
            match Text.afterLiteral "WIFI_PSK=".toList line with
            | some passphrase => { options with passphrase := some passphrase }
            | none => options
          readOptions (binwifiOptionAttr line) options rest

end Commands

/-- A configuration with the index of its wifi interface. `accessPoint` is unset
until `_update_wlan_configuration` has set it. -/
structure WLANConfiguration where
  band : Band
  wifi : Nat
  command : List Text
  ssid : Text
  passphrase : Option Text
  interfaceSuffix : Option Text
  accessPoint : Bool
  accessPointUp : Bool
deriving DecidableEq, Repr

namespace WLANConfiguration

/-- From the contents of the command file; `none` is the error that they name no SSID. -/
def new (band : Band) (wifi : Nat) (contents : Text) : Option WLANConfiguration := do
  let command := splitLines [] contents
  let options := readOptions none ⟨none, none, none⟩ command
  let ssid ← options.ssid
  return ⟨band, wifi, command, ssid, options.passphrase, options.interfaceSuffix, false, false⟩

def apFile (config : WLANConfiguration) : Text :=
  Conman.apFile config.interfaceSuffix config.band

/-- The interface is on the configuration's network, by the SSID it is on. -/
def clientUp (config : WLANConfiguration) (currentSecureSsid : Option Text) : Bool :=
  config.ssid ≠ [] ∧ currentSecureSsid = some config.ssid

end WLANConfiguration

end Gfiber.Conman
