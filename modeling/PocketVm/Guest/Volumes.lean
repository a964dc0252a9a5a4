import PocketVm.Protocol.Message
import PocketVm.Vfs

/-!
# Shared host directories

From `linux.rs` of pocket-init: how the mount points of a workload's volumes are made in the image,
and how the volumes are mounted on them. The kernel's lookup beneath a root is that of the `Vfs`
library; a mount that has been made stays, also where a later step fails.
-/

namespace PocketVm.Guest

open Wire Checked Mutating Vfs Protocol

abbrev Place := List Bytes

def ENOENT : Nat := 2
def ENOTDIR : Nat := 20
def ELOOP : Nat := 40

def errnoOf : Failure → Nat
  | .notFound => ENOENT
  | .notDirectory => ENOTDIR
  | .tooManyLinks => ELOOP

/-- `InitError`, as far as the steps here fail. -/
inductive VolumeError where
  | contract (stage diagnostic : String)
  | syscall (stage : String) (errno : Nat)
  deriving DecidableEq, Repr

def MAX_SYMLINKS : Nat := 40

def steps (path : Bytes) : List (Hop Bytes) :=
  (components path).map fun part =>
    if part = [] ∨ part = [46] then .stay else if part = [46, 46] then .up else .name part

/-- `openat2` of a directory, with `RESOLVE_IN_ROOT`. -/
def openBeneath (tree : FileTree Bytes) (hops : List (Hop Bytes)) : Except Nat Place :=
  (lookupDirectory tree MAX_SYMLINKS [] hops).mapError errnoOf

/-- `strip_prefix('/')`. -/
def stripSlash (path : String) : Option Bytes :=
  match utf8 path with
  | 47 :: rest => some rest
  | _ => none

/-- The loop of `ensure_directory_beneath`, with the path walked so far. -/
def ensureComponents (tree : FileTree Bytes) (walked : List Bytes) :
    List Bytes → Except VolumeError (FileTree Bytes)
  | [] => return tree
  | component :: rest => do
    stop (isIrregular component) (.contract "prepare-root" "directory path is not normalized")
    let parent ← (openBeneath tree (walked.map .name)).mapError (.syscall "prepare-root")
    let tree := tree.makeDirectory (parent ++ [component])
    let walked := walked ++ [component]
    let _ ← (openBeneath tree (walked.map .name)).mapError (.syscall "prepare-root")
    ensureComponents tree walked rest

def ensureDirectoryBeneath (tree : FileTree Bytes) (relative : Bytes) :
    Except VolumeError (FileTree Bytes) :=
  ensureComponents tree [] (components relative)

/-- The volumes' part of `prepare_image_directories`. -/
def prepareMountPoints : FileTree Bytes → List VolumeSpec → Except VolumeError (FileTree Bytes)
  | tree, [] => return tree
  | tree, volume :: volumes => do
    let relative ← require (stripSlash volume.destination)
      (.contract "prepare-root" "volume destination is not absolute")
    stop (relative = []) (.contract "prepare-root" "volume destination must not be the image root")
    let tree ← ensureDirectoryBeneath tree relative
    prepareMountPoints tree volumes

structure Mount where
  place : Place
  position : Nat
  source : String
  readOnly : Bool
  deriving DecidableEq

/-- What the workload sees, and the mounts made, the last one first. -/
structure MountTable where
  tree : FileTree Bytes
  mounts : List Mount := []

def MountTable.owner (table : MountTable) (path : Place) : Option Mount :=
  table.mounts.find? fun mount => mount.place.isPrefixOf path

/-- The host's directories, as hostfs mounts and remounts them. -/
structure Hostfs where
  share : String → Except Nat (FileTree Bytes)
  remount : String → Except Nat Unit

/-- The path that `/proc/self/fd` shows for a directory beneath the root. -/
def placeText (root : Bytes) (place : Place) : Bytes := root ++ place.flatMap (47 :: ·)

def resolveBeneath (root : Bytes) (tree : FileTree Bytes) (relative : Bytes) :
    Except VolumeError Place := do
  let place ← (openBeneath tree (steps relative)).mapError (.syscall "resolve-beneath")
  let path := placeText root place
  stop (String.fromUTF8? ⟨path.toArray⟩).isNone
    (.contract "resolve-beneath" "resolved path is not valid UTF-8")
  stop (path ≠ root ∧ ¬(root ++ [47]).isPrefixOf path)
    (.contract "resolve-beneath" "resolved path escaped the image root")
  return place

/-- A new mount of hostfs is writable; it becomes read-only when it is remounted. -/
def MountTable.attach (table : MountTable) (place : Place) (position : Nat) (source : String)
    (share : FileTree Bytes) :
    MountTable where
  tree := table.tree.graft place share
  mounts := { place, position, source, readOnly := false } :: table.mounts

def MountTable.remountReadOnly (table : MountTable) : MountTable where
  tree := table.tree
  mounts := table.mounts.modifyHead fun mount => { mount with readOnly := true }

variable (root : Bytes) (hostfs : Hostfs)

/-- One turn of the loop of `mount_host_volumes`. -/
def mountVolume (position : Nat) (volume : VolumeSpec) : Mutating VolumeError MountTable Unit := do
  let relative ← check (require (stripSlash volume.destination)
    (.contract "mount-volume" "volume destination is not absolute"))
  check (stop (relative = []) (.contract "mount-volume" "volume destination must not be the image root"))
  let table ← get
  let place ← check (resolveBeneath root table.tree relative)
  let share ← check ((hostfs.share volume.source).mapError (.syscall "mount-volume"))
  modify fun table => table.attach place position volume.source share
  if volume.readOnly then
    check ((hostfs.remount volume.source).mapError (.syscall "mount-volume"))
    modify MountTable.remountReadOnly

def mountHostVolumes : Nat → List VolumeSpec → Mutating VolumeError MountTable Unit
  | _, [] => return ()
  | position, volume :: volumes => do
    mountVolume root hostfs position volume
    mountHostVolumes (position + 1) volumes

end PocketVm.Guest
