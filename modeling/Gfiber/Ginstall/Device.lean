import Gfiber.Ginstall.Manifest
import Gfiber.Lib.Exec

/-! The device that images are installed on, and the operations on it that may fail or
be cut by a power failure. -/

set_option autoImplicit false

namespace Gfiber.Ginstall

open Lib

section State

/-- One of the two partitions of an OS. -/
inductive Partition where
  | zero
  | one
deriving DecidableEq, Repr

/-- `boot ^ 1`. -/
def Partition.other : Partition → Partition
  | .zero => .one
  | .one => .zero

/-- What can be written to. A volume is the one that is prepared on a UBI partition. -/
inductive Store where
  | mtd (name : Text)
  | volume (name : Text)
  | gpt (name : Text)
  | harddisk (name : Text)
  | emmcBoot (second : Bool)
deriving DecidableEq, Repr

inductive HnvramVariable where
  | activatedKernelName
  | androidActivePartition
  | bootTarget
deriving DecidableEq, Repr

/-- The running system with its command line, the variables, and what the stores hold. Of
a UBI partition that is what is in its volume `rootfs`. -/
structure Device where
  os : Os
  cmdline : Text
  hnvram : HnvramVariable → Option Text
  contents : Store → Text

/-- How an operation ends: as it should, as if it did, with an error or with a power
failure. In all but the first case what is written to may hold anything. -/
inductive Fate where
  | done
  | garbled (left : Text)
  | fail (left : Text)
  | cut (left : Text)
deriving DecidableEq, Repr

/-- A file that is started to be written to a store, without the padding. -/
structure Write where
  store : Store
  data : Text
deriving DecidableEq, Repr

/-- The device, the fates of the operations to come, and the writes so far. -/
structure World where
  device : Device
  fates : List Fate
  writes : List Write

abbrev Installer := Exec World InstallError

def World.setContents (world : World) (store : Store) (data : Text) : World :=
  { world with device := { world.device with
      contents := fun other => if other = store then data else world.device.contents other } }

def World.setHnvram (world : World) (name : HnvramVariable) (value : Text) : World :=
  { world with device := { world.device with
      hnvram := fun other => if other = name then some value else world.device.hnvram other } }

end State

section Operations

def nextFate : Installer Fate := fun world =>
  match world.fates with
  | [] => (.returned .done, world)
  | fate :: fates => (.returned fate, { world with fates })

/-- An operation that leaves the stores as they are. -/
def attempt (error : InstallError) : Installer Unit := do
  match ← nextFate with
  | .done | .garbled _ => return
  | .fail _ => .raise error
  | .cut _ => .stop

def bufsize : Nat :=
  4 * 1024

/-- What `Pad` adds to the last of the buffers. -/
def padded (data : Text) : Text :=
  data ++ List.replicate ((bufsize - data.length % bufsize) % bufsize) (Char.ofNat 0xff)

/-- `EraseMtd`: whether `flash_erase` succeeds. -/
def eraseMtd (store : Store) : Installer Bool := do
  match ← nextFate with
  | .done =>
      .modify fun world => world.setContents store []
      return true
  | .garbled left =>
      .modify fun world => world.setContents store left
      return true
  | .fail left =>
      .modify fun world => world.setContents store left
      return false
  | .cut left =>
      .modify fun world => world.setContents store left
      .stop

variable (host : Host)

/-- The bytes are written from the start of the store, over what it holds. -/
def writeToFile (data : Text) (store : Store) : Installer (Nat × Text) := do
  .modify fun world => { world with writes := world.writes ++ [⟨store, data⟩] }
  match ← nextFate with
  | .done =>
      .modify fun world => world.setContents store
        (padded data ++ (world.device.contents store).drop (padded data).length)
      return (data.length, host.sha1 data)
  | .garbled left =>
      .modify fun world => world.setContents store left
      return (data.length, host.sha1 data)
  | .fail left =>
      .modify fun world => world.setContents store left
      .raise .ioError
  | .cut left =>
      .modify fun world => world.setContents store left
      .stop

/-- A store that is too short is read forever. -/
def matchesHash (store : Store) (size : Nat) (sha1 : Text) : Installer Bool := do
  attempt .ioError
  let world ← Exec.get
  if (world.device.contents store).length < size then .stop
  else return host.sha1 ((world.device.contents store).take size) = sha1

/-- Whether a store begins with a file. -/
def isIdentical (data : Text) (store : Store) : Installer Bool := do
  attempt .ioError
  let world ← Exec.get
  if data = [] then .raise .emptySource
  else if world.device.contents store = [] then .raise .emptyDestination
  else return data.isPrefixOf (world.device.contents store)

/-- `hnvram -w`: whether it succeeds. -/
def hnvramWrite (name : HnvramVariable) (value : Text) : Installer Bool := do
  match ← nextFate with
  | .done | .garbled _ =>
      .modify fun world => world.setHnvram name value
      return true
  | .fail _ => return false
  | .cut _ => .stop

end Operations

section Partitions

def Os.name : Os → Text
  | .fiberos => "fiberos".toList
  | .android => "android".toList

/-- The variable that names the active partition of an OS. -/
def Os.activeVariable : Os → HnvramVariable
  | .fiberos => .activatedKernelName
  | .android => .androidActivePartition

/-- The name that `SetBootPartition` gives a partition. -/
def bootName : Os → Partition → Text
  | .fiberos, .zero => "kernel0".toList
  | .fiberos, .one => "kernel1".toList
  | .android, .zero => "a".toList
  | .android, .one => "b".toList

/-- Whether the variables are set. -/
def setBootPartition (targetOs : Os) (partition : Partition) : Installer Bool := do
  if ← hnvramWrite targetOs.activeVariable (bootName targetOs partition) then
    let world ← Exec.get
    if targetOs ≠ world.device.os then hnvramWrite .bootTarget targetOs.name
    else return true
  else return false

/-- What an argument of the command line says about the partition. -/
def bootedArgument (arg : Text) : Option Partition :=
  let named (zero one : String) : Option Partition :=
    match arg.splitOn '=' with
    | _ :: partition :: _ =>
        if partition = zero.toList then some .zero
        else if partition = one.toList then some .one
        else none
    | _ => none
  if "root=".toList.isPrefixOf arg then named "rootfs0" "rootfs1"
  else if "gfactive=".toList.isPrefixOf arg then named "kernel0" "kernel1"
  else if "androidboot.gfiber_system_img=".toList.isPrefixOf arg then named "system_a" "system_b"
  else none

def getBootedPartition (device : Device) : Option Partition :=
  ((Text.strip device.cmdline).splitOn ' ').findSome? bootedArgument

def getActivePartitionFromHNVRAM (device : Device) (targetOs : Os) : Option Partition :=
  match device.hnvram targetOs.activeVariable with
  | none => none
  | some value =>
      if Text.strip value ∈ ["0".toList, "a".toList] then some .zero
      else if Text.strip value ∈ ["1".toList, "b".toList] then some .one
      else none

/-- Where nothing is known, the image goes to the secondary partition. -/
def getPartition (device : Device) (partitionName : Text) (targetOs : Os) :
    Except InstallError Partition :=
  if partitionName = "other".toList then
    let boot : Option Partition :=
      if targetOs = device.os then getBootedPartition device
      else getActivePartitionFromHNVRAM device targetOs
    .ok ((boot.map Partition.other).getD .one)
  else if partitionName = "primary".toList then .ok .zero
  else if partitionName = "secondary".toList then .ok .one
  else .error .partitionOption

end Partitions

end Gfiber.Ginstall
