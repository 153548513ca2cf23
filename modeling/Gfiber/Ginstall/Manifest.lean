import Gfiber.Lib.Numeral

/-! The manifest of an image, and what it has to say for the image to be installed. -/

set_option autoImplicit false

namespace Gfiber.Ginstall

open Lib

/-- A value of the manifest, which a bracket makes a list. -/
inductive Value where
  | text (text : Text)
  | list (items : List Text)
deriving DecidableEq, Repr

/-- A value that counts as true. -/
def Value.truthy : Value → Bool
  | .text word => word ≠ []
  | .list items => items ≠ []

/-- The fields in the order in which they are set. -/
abbrev Manifest := List (Text × Value)

/-- The value that was set last. -/
def Manifest.get (manifest : Manifest) (key : Text) : Option Value :=
  manifest.reverse.lookup key

/-- What is raised: the errors of the installer, and those of Python. -/
inductive InstallError where
  | unknownFormat (name : Text)
  | unsupportedPlatform (platforms : Value) (platform : Text)
  | incompatibleManifest (version : Int)
  | unknownVersion
  | tooOld (version : Text)
  | unparsableMinimum (minimum : Text)
  | belowMinimum (minimum version : Text)
  | refusedVersion
  | partitionOption
  | noPartition (name : Text)
  | noLoaderPartition
  | loaderSignature
  | uloaderSignature
  | unsignedUloader
  | noSigningKey
  | writtenHash
  | readHash
  | eraseFailed
  | unlockFailed
  | emptySource
  | emptyDestination
  | ioError
  | keyError (key : Text)
  | valueError
  | indexError
  | unboundLocal
deriving DecidableEq, Repr

inductive Os where
  | fiberos
  | android
deriving DecidableEq, Repr

section Parsing

/-- The words of a list in brackets. -/
def listItems (text : Text) : List Text :=
  (text.splitOnP fun char => char = '[' || char = ']' || char = ',' || Text.isSpace char).filter
    (· ≠ [])

def parseValue (text : Text) : Value :=
  if "[".toList.isPrefixOf text then .list (listItems text) else .text text

/-- A line without a colon is passed over. -/
def parseField (line : Text) : Option (Text × Value) :=
  if ':' ∈ line then
    some (Text.strip (line.takeWhile (· ≠ ':')),
      parseValue (Text.strip ((line.dropWhile (· ≠ ':')).drop 1)))
  else none

def parseManifest (text : Text) : Manifest :=
  (text.splitOn '\n').filterMap parseField

def defaultManifestV2 : Manifest :=
  [("installer_version".toList, .text "2".toList),
    ("platforms".toList, .list ["GFHD100".toList, "GFMS100".toList]),
    ("image_type".toList, .text "unlocked".toList)]

end Parsing

section Versions

/-- `[^-]+-(\d+)(?:\.(\d+))?`, with the minor number 0 if there is none. -/
def parseVersionString (version : Text) : Option (Nat × Nat) :=
  match version.takeWhile (· ≠ '-'), version.dropWhile (· ≠ '-') with
  | _ :: _, _ :: rest =>
      let major := rest.takeWhile Text.isDigit
      let minor : Nat :=
        match rest.dropWhile Text.isDigit with
        | '.' :: rest => digitsValue (rest.takeWhile Text.isDigit)
        | _ => 0
      if major = [] then none else some (digitsValue major, minor)
  | _, _ => none

/-- The order of two versions. One that cannot be parsed is below all others. -/
def versionLess : Option (Nat × Nat) → Option (Nat × Nat) → Bool
  | _, none => false
  | none, some _ => true
  | some (major, minor), some (major', minor') => major < major' || major = major' && minor < minor'

end Versions

section Checks

/-- What the installer finds out about the device it runs on, and the library functions
that it uses. Nothing of it changes. -/
structure Host where
  platform : Text
  version : Text
  /-- The file that tells of a secure Broadcom device is there. -/
  secureBoot : Bool
  signingKey : Option Text
  /-- The names in `/proc/mtd`. -/
  mtd : List Text
  /-- Whether the partition of that name is on NAND. -/
  nand : Text → Bool
  /-- The names that `sgdisk` prints for the eMMC. -/
  mmcblk0 : List Text
  /-- Those on the internal disk, if there is one. -/
  harddisk : Option (List Text)
  /-- Whether each of the two boot partitions of the eMMC is there. -/
  emmcBoot : Bool → Bool
  sha1 : Text → Text
  crc32 : Text → BitVec 32
  /-- `PKCS1_v1_5` over the SHA-512 of a file, for a file, a signature and a key. -/
  verify : Text → Text → Text → Bool

variable (host : Host) (manifest : Manifest)

def lower (text : Text) : Text :=
  text.map Char.toLower

/-- The items of a value, which are the characters of a text. -/
def Value.items : Value → List Text
  | .text word => word.map fun char => [char]
  | .list items => items

def checkPlatform : Except InstallError Unit :=
  match manifest.get "platforms".toList with
  | none => .error (.keyError "platforms".toList)
  | some platforms =>
      if platforms.items.any fun platform => lower platform = lower host.platform then .ok ()
      else .error (.unsupportedPlatform platforms host.platform)

def checkManifestVersion : Except InstallError Unit :=
  match manifest.get "installer_version".toList with
  | none => .error (.keyError "installer_version".toList)
  | some (.list _) => .error .valueError
  | some (.text text) =>
      match parseInt text with
      | none => .error .valueError
      | some version =>
          if 2 ≤ version ∧ version ≤ 4 then .ok () else .error (.incompatibleManifest version)

def versionValue : Value :=
  (manifest.get "version".toList).getD (.text [])

def checkVeryOldVersion : Except InstallError Unit :=
  match versionValue manifest with
  | .text [] | .list [] => .error .unknownVersion
  | .list _ => .error .valueError
  | .text version =>
      if "bruno-".toList.isPrefixOf version ∨
          "gfibertv-".toList.isPrefixOf version ∧ version < "gfibertv-24".toList then
        .error (.tooOld version)
      else .ok ()

def checkMinimumVersion : Except InstallError Unit :=
  match manifest.get "minimum_version".toList with
  | none | some (.text []) | some (.list []) => .ok ()
  | some (.list _) => .error .valueError
  | some (.text minimum) =>
      match parseVersionString minimum with
      | none => .error (.unparsableMinimum minimum)
      | some parsed =>
          if versionLess (parseVersionString host.version) (some parsed) then
            .error (.belowMinimum minimum host.version)
          else .ok ()

def checkMisc : Except InstallError Unit :=
  if host.platform = "GFHD200".toList ∧ host.secureBoot then
    match versionValue manifest with
    | .list _ => .error .valueError
    | .text version =>
        if versionLess (parseVersionString version) (some (38, 11)) ∨
            "gftv200-39-pre0".toList.isPrefixOf version ∨
            "gftv200-39-pre1".toList.isPrefixOf version then
          .error .refusedVersion
        else .ok ()
  else .ok ()

def checkManifest : Except InstallError Unit := do
  checkPlatform host manifest
  checkManifestVersion manifest
  checkVeryOldVersion manifest
  checkMinimumVersion host manifest
  checkMisc host manifest

def checkMultiLoader : Bool :=
  ((manifest.get "multiloader".toList).map Value.truthy).getD false

def androidImages : List Text :=
  ["boot.img".toList, "system.img.raw".toList]

/-- The OS that the image is for: Android if it has the hash of an Android image. -/
def getOsFromManifest : Os :=
  if manifest.any fun (key, _) => androidImages.any fun image => key = image ++ "-sha1".toList then
    .android
  else .fiberos

end Checks

example : parseVersionString "gfrg200-39-pre1-60-g2841888-da".toList = some (39, 0) := by decide
example : parseVersionString "gfrg200-38.6a3-ap".toList = some (38, 6) := by decide

end Gfiber.Ginstall
