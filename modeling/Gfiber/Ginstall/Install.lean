import Gfiber.Ginstall.Device

/-! The installation of an image from the entries of a tar file. -/

set_option autoImplicit false

namespace Gfiber.Ginstall

open Lib

/-- A file that is open at a position, with the hash that it has to have. -/
structure FileWithSecureHash where
  data : Text
  position : Nat
  secureHash : Option Value
deriving DecidableEq, Repr

namespace FileWithSecureHash

/-- What is read from the position on. -/
def rest (file : FileWithSecureHash) : Text :=
  file.data.drop file.position

def seek (file : FileWithSecureHash) (position : Nat) : FileWithSecureHash :=
  { file with position }

/-- The file has a hash, which is another one. -/
def hashDiffers (file : FileWithSecureHash) (sha1 : Text) : Bool :=
  match file.secureHash with
  | none => false
  | some value => value.truthy && value ≠ .text sha1

end FileWithSecureHash

variable (host : Host)

section Stores

def copyAndVerify (file : FileWithSecureHash) (store : Store) : Installer Nat := do
  let (written, writtenSha) ← writeToFile host file.rest store
  if file.hashDiffers writtenSha then .raise .writtenHash
  else if ← matchesHash host store written writtenSha then return written
  else .raise .readHash

/-- The exit code of `nanddump` is looked at, that of `nandwrite` is not. -/
def copyAndVerifyNand (file : FileWithSecureHash) (store : Store) : Installer Nat := do
  let written ← copyAndVerify host file store
  attempt .ioError
  return written

def Host.is (start : String) : Bool :=
  start.toList.isPrefixOf host.platform

/-- The name by which a store is found in `/proc/mtd`. -/
def Store.mtdName : Store → Text
  | .mtd name => name
  | _ => "rootfs-prep".toList

/-- Only GFLT has to unlock its flash. -/
def unlockMtd : Installer Unit :=
  if host.is "GFLT" then attempt .unlockFailed else pure ()

def installToMtd (file : FileWithSecureHash) (store : Store) : Installer Nat := do
  unlockMtd host
  if ← eraseMtd store then
    if host.nand store.mtdName ∧ host.is "GFRG2" then copyAndVerifyNand host file store
    else copyAndVerify host file store
  else .raise .eraseFailed

def installToFile (file : FileWithSecureHash) (store : Store) : Installer Nat :=
  copyAndVerify host file store

/-- `ubiformat`, of which nothing is known when it fails. -/
def ubiformat (store : Store) : Installer Unit := do
  if ← eraseMtd store then return
  else .raise .ioError

/-- `ubirename`, which gives the prepared volume the name of the one that is used. -/
def ubirename (name : Text) : Installer Unit := do
  attempt .ioError
  .modify fun world => world.setContents (.mtd name) (world.device.contents (.volume name))

def installRawFileToUbi (file : FileWithSecureHash) (name : Text) : Installer Nat := do
  attempt .ioError
  ubiformat (.mtd name)
  attempt .ioError
  let prepare : Installer Nat := do
    attempt .ioError
    let size ← installToMtd host file (.volume name)
    ubirename name
    return size
  prepare.andFinally (pure ())

end Stores

section Images

def kernelName : Partition → Text
  | .zero => "kernel0".toList
  | .one => "kernel1".toList

def rootfsName : Partition → Text
  | .zero => "rootfs0".toList
  | .one => "rootfs1".toList

def androidBootName : Partition → Text
  | .zero => "boot_a".toList
  | .one => "boot_b".toList

def androidSystemName : Partition → Text
  | .zero => "system_a".toList
  | .one => "system_b".toList

def installKernel (kern : FileWithSecureHash) (partition : Partition) : Installer Unit := do
  let name := kernelName partition
  if name ∈ host.mtd then discard (installToMtd host kern (.mtd name))
  else if name ∈ host.mmcblk0 then discard (installToFile host kern (.gpt name))
  else .raise (.noPartition name)

def installRootfsToMtd (rootfs : FileWithSecureHash) (name : Text) : Installer Unit := do
  if host.is "GFMN" then discard (installToMtd host rootfs (.mtd name))
  else discard (installRawFileToUbi host rootfs name)

/-- On GFSC the internal disk goes before the flash, and where there is neither, the name
of the other partition is used before it is set. -/
def installRootfs (rootfs : FileWithSecureHash) (partition : Partition) : Installer Unit := do
  let name := rootfsName partition
  if host.is "GFSC" then
    match host.harddisk with
    | some names =>
        if name ∈ names then discard (installToFile host rootfs (.harddisk name))
        else if name ∈ host.mtd then installRootfsToMtd host rootfs name
        else .raise (.noPartition name)
    | none =>
        if name ∈ host.mtd then installRootfsToMtd host rootfs name else .raise .unboundLocal
  else if name ∈ host.mtd then installRootfsToMtd host rootfs name
  else if name ∈ host.mmcblk0 then discard (installToFile host rootfs (.gpt name))
  else .raise (.noPartition name)

def installToGpt (file : FileWithSecureHash) (name : Text) : Installer Unit := do
  if name ∈ host.mmcblk0 then discard (installToFile host file (.gpt name))
  else .raise (.noPartition name)

def installAndroidBoot (boot : FileWithSecureHash) (partition : Partition) : Installer Unit :=
  installToGpt host boot (androidBootName partition)

def installAndroidSystem (system : FileWithSecureHash) (partition : Partition) : Installer Unit :=
  installToGpt host system (androidSystemName partition)

def installAndroidBsu (bsu : FileWithSecureHash) : Installer Unit := do
  let name := "bsu".toList
  if name ∈ host.mmcblk0 then
    if ← isIdentical bsu.rest (.gpt name) then return
    else discard (installToFile host (bsu.seek 0) (.gpt name))
  else .raise (.noPartition name)

end Images

section Loaders

def writeLoaderToMtd (loader : FileWithSecureHash) (loaderStart : Nat) (store : Store) :
    Installer Unit := do
  if ← isIdentical (loader.seek loaderStart).rest store then return
  else discard (installToMtd host (loader.seek loaderStart) store)

def loaderNames : List Text :=
  ["cfe".toList, "loader".toList, "loader0".toList, "loader1".toList, "flash0.bolt".toList,
    "uboot".toList]

/-- One round of the loop over the flash partitions. -/
def installLoaderToMtd (loader : FileWithSecureHash) (installed : Bool) (name : Text) :
    Installer Bool := do
  if name ∈ host.mtd then
    writeLoaderToMtd host loader loader.position (.mtd name)
    return true
  else return installed

/-- One round of the loop over the boot partitions of the eMMC. -/
def installLoaderToEmmc (loader : FileWithSecureHash) (installed second : Bool) :
    Installer Bool := do
  if host.emmcBoot second then
    attempt .ioError
    discard (installToFile host (loader.seek 0) (.emmcBoot second))
    attempt .ioError
    return true
  else return installed

def installLoader (loader : FileWithSecureHash) : Installer Unit := do
  let installed ← Exec.loop (installLoaderToMtd host loader) false loaderNames
  let installed ← Exec.loop (installLoaderToEmmc host loader) installed [false, true]
  if installed then return else .raise .noLoaderPartition

/-- The key type is in byte 16 of the header. -/
def uloaderSigned (data : Text) : Except InstallError Bool :=
  match data.drop 16 with
  | [] => .error .indexError
  | keyType :: _ => .ok (keyType = '\x02')

/-- The bytes of a number in the order of `<I`. -/
def packWord (word : BitVec 32) : Text :=
  [0, 8, 16, 24].map fun shift => Char.ofNat ((word >>> shift).setWidth 8).toNat

/-- The uloader without its signature, under a new header with its checksum. -/
def stripUloader (data : Text) : Text :=
  let header := data.take 280
  let zeros (count : Nat) : Text := List.replicate count '\x00'
  let newHeader := header.take 8 ++ zeros 12 ++ (header.drop 20).take 4 ++ zeros 32
  newHeader.take 8 ++ packWord (host.crc32 newHeader) ++ newHeader.drop 12 ++ data.drop 280

def installUloader (uloader : FileWithSecureHash) : Installer Unit := do
  let store := Store.mtd "uloader".toList
  if "uloader".toList ∈ host.mtd then
    let signed ← Exec.ofExcept (uloaderSigned uloader.data)
    attempt .ioError
    let world ← Exec.get
    let deviceSecure ← Exec.ofExcept (uloaderSigned (world.device.contents store))
    if signed && !deviceSecure then
      writeLoaderToMtd host ⟨stripUloader host uloader.rest, 0, none⟩ 0 store
    else if !signed && deviceSecure then .raise .unsignedUloader
    else writeLoaderToMtd host uloader uloader.position store

end Loaders

section Image

/-- A regular file in the tar. -/
structure Entry where
  name : Text
  data : Text
deriving DecidableEq, Repr

structure Options where
  partition : Text
  skiploader : Bool
  skiploadersig : Bool
deriving DecidableEq, Repr

/-- The files that are kept for the end of the installation. -/
structure Collected where
  loader : Option FileWithSecureHash
  loadersig : Option FileWithSecureHash
  uloader : Option FileWithSecureHash
  uloadersig : Option FileWithSecureHash
  androidBsu : Option FileWithSecureHash
deriving DecidableEq, Repr

def manifestNames : List Text :=
  ["version".toList, "manifest".toList, "MANIFEST".toList]

def kernelNames : List Text :=
  ["kernel.img".toList, "vmlinuz".toList, "vmlinux".toList, "uImage".toList]

/-- The manifest from the first entry. -/
def readManifest (tar : List Entry) : Except InstallError Manifest :=
  match tar with
  | [] => .error .valueError
  | first :: _ =>
      if first.name = "version".toList then
        .ok (defaultManifestV2 ++
          [("version".toList, .text (Text.strip (first.data.take 4096)))])
      else if first.name = "manifest".toList ∨ first.name = "MANIFEST".toList then
        .ok (parseManifest first.data)
      else .error (.unknownFormat first.name)

variable (manifest : Manifest)

def loaderBinList : List Text :=
  if checkMultiLoader manifest then
    ["loader.".toList ++ lower host.platform ++ ".bin".toList]
  else ["loader.img".toList, "loader.bin".toList]

def loaderSigList : List Text :=
  if checkMultiLoader manifest then
    ["loader.".toList ++ lower host.platform ++ ".sig".toList]
  else ["loader.sig".toList]

/-- The entry as a file, with its hash in the manifest. -/
def Entry.file (entry : Entry) : FileWithSecureHash :=
  ⟨entry.data, 0, manifest.get (entry.name ++ "-sha1".toList)⟩

/-- A signature that is none. -/
def badsig : FileWithSecureHash :=
  ⟨[], 0, some (.text "badsig".toList)⟩

def collectedAtFirst : Collected :=
  { loader := none, uloader := none, androidBsu := none, uloadersig := some badsig
    loadersig := if host.is "GFLT" then none else some badsig }

/-- The image of another OS is passed over. -/
def onOs (targetOs os : Os) (install : Installer Unit) : Installer Unit := do
  if targetOs ≠ os then return else install

def installEntry (targetOs : Os) (partition : Partition) (collected : Collected) (entry : Entry) :
    Installer Collected := do
  let file := entry.file manifest
  if entry.name ∈ manifestNames then return collected
  else if entry.name ∈ kernelNames then
    onOs targetOs .fiberos (installKernel host file partition)
    return collected
  else if "rootfs.".toList.isPrefixOf entry.name then
    onOs targetOs .fiberos (installRootfs host file partition)
    return collected
  else if entry.name = "boot.img".toList then
    onOs targetOs .android (installAndroidBoot host file partition)
    return collected
  else if entry.name = "system.img.raw".toList then
    onOs targetOs .android (installAndroidSystem host file partition)
    return collected
  else if entry.name ∈ loaderBinList host manifest then
    return { collected with loader := some file }
  else if entry.name ∈ loaderSigList host manifest then
    return { collected with loadersig := some file }
  else if entry.name = "uloader.img".toList then
    return { collected with uloader := some file }
  else if entry.name = "uloader.sig".toList then
    return { collected with uloadersig := some file }
  else if entry.name = "android_bsu.elf".toList then
    return { collected with androidBsu := some file }
  else return collected

/-- The loop over the entries. -/
def installEntries (targetOs : Os) (partition : Partition) (entries : List Entry) :
    Installer Collected :=
  Exec.loop (installEntry host manifest targetOs partition) (collectedAtFirst host) entries

/-- The file from its start, once its signature has been accepted. -/
def checkSignature (key : Text) (skiploader : Bool) (error : InstallError)
    (file signature : Option FileWithSecureHash) : Installer (Option FileWithSecureHash) := do
  match file, signature with
  | some file, some signature =>
      if skiploader then return some file
      else if host.verify file.rest signature.rest key then return some (file.seek 0)
      else .raise error
  | file, _ => return file

/-- Nothing is installed without a file, or when the loaders are to be skipped. -/
def unlessSkipped (skiploader : Bool) (install : FileWithSecureHash → Installer Unit) :
    Option FileWithSecureHash → Installer Unit
  | none => return
  | some file => do
      if skiploader then return else install file

def flashLoaders (skiploader : Bool) (loader uloader androidBsu : Option FileWithSecureHash) :
    Installer Unit := do
  unlessSkipped skiploader (installLoader host) loader
  unlessSkipped skiploader (installUloader host) uloader
  unlessSkipped skiploader (installAndroidBsu host) androidBsu

/-- A signature that is not to be looked at is as good as none. -/
def Options.checked (opt : Options) (signature : Option FileWithSecureHash) :
    Option FileWithSecureHash :=
  if opt.skiploadersig then none else signature

def installLoaders (opt : Options) (collected : Collected) : Installer Unit := do
  match host.signingKey with
  | none => .raise .noSigningKey
  | some key =>
      let loader ← checkSignature host key opt.skiploader .loaderSignature collected.loader
        (opt.checked collected.loadersig)
      let uloader ← checkSignature host key opt.skiploader .uloaderSignature collected.uloader
        (opt.checked collected.uloadersig)
      flashLoaders host opt.skiploader loader uloader collected.androidBsu

def hnvramErr : Nat :=
  1

/-- The loaders, and then the partition is activated. -/
def installRest (opt : Options) (targetOs : Os) (partition : Partition) (collected : Collected) :
    Installer Nat := do
  installLoaders host opt collected
  if ← setBootPartition targetOs partition then return 0 else return hnvramErr

/-- What is done once the manifest has been accepted. -/
def installAccepted (opt : Options) (partition : Partition) (tar : List Entry) : Installer Nat := do
  let targetOs := getOsFromManifest manifest
  let collected ← installEntries host manifest targetOs partition tar
  installRest host opt targetOs partition collected

/-- The partition of the options, which is the other one when none is given. -/
def Options.partitionName (opt : Options) : Text :=
  if opt.partition = [] then "other".toList else opt.partition

def installImage (opt : Options) (tar : List Entry) : Installer Nat := do
  let manifest ← Exec.ofExcept (readManifest tar)
  Exec.ofExcept (checkManifest host manifest)
  let world ← Exec.get
  let partition ← Exec.ofExcept
    (getPartition world.device opt.partitionName (getOsFromManifest manifest))
  installAccepted host manifest opt partition tar

end Image

section Example

/-- The SHA-1 of two files. Any other file stands for its own. -/
def exampleSha1 (data : Text) : Text :=
  if data = "kernel".toList then "c65a0fb7e74ffd2c9fc3a0f9aacb0f6a24b0a68b".toList
  else if data = "rootfs".toList then "e7bc8f74af889f731bbc1a412011ca1e25964591".toList
  else 'x' :: data

theorem exampleSha1_injective : Function.Injective exampleSha1 := by
  intro data other same
  rw [exampleSha1, exampleSha1] at same
  split at same
  case isTrue kernel =>
    split at same
    case isTrue kernel' => rw [kernel, kernel']
    case isFalse =>
      split at same
      · exact absurd same (by decide)
      · exact absurd (List.cons.inj same).1 (by decide)
  case isFalse =>
    split at same
    case isTrue rootfs =>
      split at same
      · exact absurd same (by decide)
      · split at same
        case isTrue rootfs' => rw [rootfs, rootfs']
        case isFalse => exact absurd (List.cons.inj same).1 (by decide)
    case isFalse =>
      split at same
      · exact absurd (List.cons.inj same).1 (by decide)
      · split at same
        · exact absurd (List.cons.inj same).1 (by decide)
        · exact (List.cons.inj same).2

/-- A device with flash partitions, on which a signature names the file that it is of. -/
def gfhd100 : Host where
  platform := "GFHD100".toList
  version := "gfibertv-40".toList
  secureBoot := false
  signingKey := some "key".toList
  mtd := ["cfe".toList, "kernel0".toList, "kernel1".toList, "rootfs0".toList, "rootfs1".toList]
  nand _ := false
  mmcblk0 := []
  harddisk := none
  emmcBoot _ := false
  sha1 := exampleSha1
  crc32 _ := 0
  verify data signature _ := signature = "signature of ".toList ++ data

def exampleManifest (more : Text) : Entry :=
  ⟨"MANIFEST".toList, "installer_version: 4\nplatforms: [ GFHD100, GFMS100 ]\n".toList ++
    "version: gfibertv-41\n".toList ++ more⟩

/-- The device with FiberOS running from the first partition. -/
def runningFiberos : Device where
  os := .fiberos
  cmdline := "root=rootfs0".toList
  hnvram name := if name = .activatedKernelName then some "kernel0".toList else none
  contents _ := "old".toList

end Example

end Gfiber.Ginstall
