import Tenodera.Agent.Router

/-!
# Block devices

`lsblk -J` prints the devices as a tree.  The storage handlers take it apart in two ways, as a tree
of devices with their usage and as a list of rows, and they have a fallback for versions of `lsblk`
that print one mount point where later ones print an array.  `getBlockDevices_fallback` says that
the fallback shows the same devices, and `flatten_enrich` that the tree and the rows do.
-/

namespace Tenodera.Agent.BlockDevices

open Protocol

/-! ## The fields of a device -/

def textField (key : String) (dev : Value) : String := ((dev.get key).bind Value.asStr).getD ""

def sizeField (dev : Value) : UInt64 := ((dev.get "size").bind Value.asU64).getD 0

/-- The texts among the elements of "mountpoints". -/
def mountpointsOf (dev : Value) : List String :=
  (((dev.get "mountpoints").bind Value.asArray).getD []).filterMap Value.asStr

def unsigned (n : UInt64) : Value := .number (.posInt n)

/-! ## The tree -/

/-- What `statvfs` says of a file system. -/
structure Usage where
  used : UInt64
  free : UInt64
  usePct : UInt64
  inodesTotal : UInt64
  inodesUsed : UInt64
  inodesPct : UInt64
  deriving DecidableEq

/-- The usage at the first mount point that is a path. -/
def usageAt (statvfs : String → Option Usage) (mountpoints : List String) : Usage :=
  ((mountpoints.find? fun m => m.toList.head? ≠ some '[').bind statvfs).getD ⟨0, 0, 0, 0, 0, 0⟩

/-- `enrich_device`, once its children are done. -/
def enriched (statvfs : String → Option Usage) (dev : Value) (children : Option (List Value)) :
    Value :=
  let mountpoints := mountpointsOf dev
  let usage := usageAt statvfs mountpoints
  .object ([("name", .string (textField "name" dev)), ("size", unsigned (sizeField dev)),
    ("type", .string (textField "type" dev)),
    ("mountpoints", .array (mountpoints.map .string)), ("used", unsigned usage.used),
    ("free", unsigned usage.free), ("use_pct", unsigned usage.usePct),
    ("inodes_total", unsigned usage.inodesTotal), ("inodes_used", unsigned usage.inodesUsed),
    ("inodes_pct", unsigned usage.inodesPct)] ++
      (children.map fun devs => ("children", .array devs)).toList)

mutual

def enrichDevice (statvfs : String → Option Usage) : Value → Value
  | .object entries => enriched statvfs (.object entries) (enrichChildren statvfs entries)
  | dev => enriched statvfs dev none

/-- The member "children". -/
def enrichChildren (statvfs : String → Option Usage) :
    List (String × Value) → Option (List Value)
  | [] => none
  | (key, v) :: rest =>
    if key = "children" then enrichArray statvfs v else enrichChildren statvfs rest

def enrichArray (statvfs : String → Option Usage) : Value → Option (List Value)
  | .array devs => some (enrichAll statvfs devs)
  | _ => none

def enrichAll (statvfs : String → Option Usage) : List Value → List Value
  | [] => []
  | dev :: devs => enrichDevice statvfs dev :: enrichAll statvfs devs

end

/-! ## The fallback -/

/-- The array that stands for one mount point. -/
def mountpointArray : Value → Value
  | .string s => .array (if s = "" then [] else [.string s])
  | _ => .array []

/-- "mountpoint" becomes "mountpoints". -/
def pluralize (entries : List (String × Value)) : List (String × Value) :=
  match entries.lookup "mountpoint" with
  | some mp =>
    insertMember "mountpoints" (mountpointArray mp) (entries.filter fun e => e.1 ≠ "mountpoint")
  | none => entries

mutual

/-- `normalize_mountpoints`; the members it goes into are not those that it renames. -/
def normalizeMountpoints : Value → Value
  | .object entries => .object (pluralize (normalizeMembers entries))
  | v => v

def normalizeMembers : List (String × Value) → List (String × Value)
  | [] => []
  | (key, v) :: rest =>
    (key, if key = "children" ∨ key = "blockdevices" then normalizeArray v else v) ::
      normalizeMembers rest

def normalizeArray : Value → Value
  | .array devs => .array (normalizeAll devs)
  | v => v

def normalizeAll : List Value → List Value
  | [] => []
  | dev :: devs => normalizeMountpoints dev :: normalizeAll devs

end

/-- The output of a successful `lsblk`, as far as it is JSON. -/
abbrev Output : Type := Option Value

/-- `get_block_devices`, from what `lsblk` prints with the column MOUNTPOINTS, and what it prints
with MOUNTPOINT; none when it fails. -/
def getBlockDevices (statvfs : String → Option Usage) (mountpoints mountpoint : Option Output) :
    List Value :=
  let parsed := match mountpoints with
    | some output => output
    | none => (mountpoint.getD none).map normalizeMountpoints
  match (parsed.bind (Value.get "blockdevices")).bind Value.asArray with
  | some devices => enrichAll statvfs devices
  | none => []

/-! ## The rows -/

/-- A row of `flatten`. -/
def row (dev : Value) : Value :=
  let mounted := (mountpointsOf dev).find? fun m => m ≠ ""
  .object [("name", .string (textField "name" dev)), ("path", .string (textField "path" dev)),
    ("fstype", .string (textField "fstype" dev)), ("size", unsigned (sizeField dev)),
    ("type", .string (textField "type" dev)), ("uuid", .string (textField "uuid" dev)),
    ("label", .string (textField "label" dev)),
    ("ro", .bool (((dev.get "ro").bind Value.asBool).getD false)),
    ("mountpoint", (mounted.map .string).getD .null)]

mutual

/-- What `flatten` pushes for a device. -/
def flattenDevice : Value → List Value
  | .object entries => row (.object entries) :: flattenChildren entries
  | dev => [row dev]

def flattenChildren : List (String × Value) → List Value
  | [] => []
  | (key, v) :: rest => if key = "children" then flattenArray v else flattenChildren rest

def flattenArray : Value → List Value
  | .array devs => flatten devs
  | _ => []

def flatten : List Value → List Value
  | [] => []
  | dev :: devs => flattenDevice dev ++ flatten devs

end

/-- `list_block`, from what `lsblk` prints. -/
def listBlock (output : Output) : Value :=
  let devices := ((output.bind (Value.get "blockdevices")).bind Value.asArray).getD []
  .object [("devices", .array (flatten devices))]

/-! ## Recursion over the children -/

/-- The devices below a device. -/
def children (dev : Value) : Option (List Value) := (dev.get "children").bind Value.asArray

section

variable {statvfs : String → Option Usage}

theorem enrichAll_eq_map (devs : List Value) :
    enrichAll statvfs devs = devs.map (enrichDevice statvfs) := by
  induction devs with
  | nil => rw [enrichAll, List.map_nil]
  | cons dev devs ih => rw [enrichAll, ih, List.map_cons]

theorem flatten_eq_flatMap (devs : List Value) : flatten devs = devs.flatMap flattenDevice := by
  induction devs with
  | nil => rw [flatten, List.flatMap_nil]
  | cons dev devs ih => rw [flatten, ih, List.flatMap_cons]

theorem get_nil (key : String) : Value.get key (.object []) = none := rfl

theorem get_cons (key key' : String) (v : Value) (rest : List (String × Value)) :
    Value.get key (.object ((key', v) :: rest)) =
      if key' = key then some v else Value.get key (.object rest) := by
  simp only [Value.get, List.lookup_cons]
  by_cases h : key' = key
  · simp [h]
  · rw [if_neg h, beq_false_of_ne (Ne.symm h)]

theorem enrichChildren_eq (entries : List (String × Value)) :
    enrichChildren statvfs entries =
      (children (.object entries)).map (List.map (enrichDevice statvfs)) := by
  induction entries with
  | nil => rw [enrichChildren]; rfl
  | cons e rest ih =>
    obtain ⟨key, v⟩ := e
    rw [enrichChildren, children, get_cons]
    split_ifs with hkey
    · cases v with
      | array devs => rw [enrichArray, enrichAll_eq_map]; rfl
      | _ => rw [enrichArray] <;> simp [Value.asArray]
    · exact ih

theorem enrichDevice_eq (dev : Value) :
    enrichDevice statvfs dev =
      enriched statvfs dev ((children dev).map (List.map (enrichDevice statvfs))) := by
  cases dev with
  | object entries => rw [enrichDevice, enrichChildren_eq]
  | _ => rw [enrichDevice] <;> simp [children, Value.get]

theorem flattenChildren_eq (entries : List (String × Value)) :
    flattenChildren entries =
      ((children (.object entries)).getD []).flatMap flattenDevice := by
  induction entries with
  | nil => rw [flattenChildren]; rfl
  | cons e rest ih =>
    obtain ⟨key, v⟩ := e
    rw [flattenChildren, children, get_cons]
    split_ifs with hkey
    · cases v with
      | array devs => rw [flattenArray, flatten_eq_flatMap]; rfl
      | _ => rw [flattenArray] <;> simp [Value.asArray]
    · exact ih

theorem flattenDevice_eq (dev : Value) :
    flattenDevice dev = row dev :: ((children dev).getD []).flatMap flattenDevice := by
  cases dev with
  | object entries => rw [flattenDevice, flattenChildren_eq]
  | _ => rw [flattenDevice] <;> simp [children, Value.get]

end

/-! ## Induction over the devices -/

theorem sizeOf_lt_of_mem_children {dev d : Value} {devs : List Value}
    (h : children dev = some devs) (hd : d ∈ devs) : sizeOf d < sizeOf dev := by
  obtain ⟨v, hget, harray⟩ := Option.bind_eq_some_iff.1 h
  cases v with
  | array elems =>
    cases harray
    cases dev with
    | object entries =>
      obtain ⟨l, l', rfl, -⟩ := List.lookup_eq_some_iff.1 hget
      have hmem : ("children", Value.array devs) ∈ l ++ ("children", .array devs) :: l' := by simp
      have helems := List.sizeOf_lt_of_mem hd
      have hentries := List.sizeOf_lt_of_mem hmem
      simp only [Prod.mk.sizeOf_spec, Value.array.sizeOf_spec, Value.object.sizeOf_spec]
        at hentries ⊢
      omega
    | _ => cases hget
  | _ => cases harray

/-- What holds of a device when it holds of the ones below it. -/
theorem children_induction {motive : Value → Prop}
    (step : ∀ dev, (∀ devs, children dev = some devs → ∀ d ∈ devs, motive d) → motive dev)
    (dev : Value) : motive dev := by
  induction hsize : sizeOf dev using Nat.strongRecOn generalizing dev with
  | ind n ih =>
    subst hsize
    exact step dev fun devs h d hd => ih _ (sizeOf_lt_of_mem_children h hd) d rfl

/-! ## Both outputs of `lsblk` -/

/-- A path that something is mounted at. -/
structure Mountpoint where
  path : String
  ne : path ≠ ""

/-- A device, with the ones below it. -/
inductive Device
  | node (name : String) (size : UInt64) (type : String) (mountpoint : Option Mountpoint)
      (below : List Device)

/-- The member for what a device is mounted at. -/
def mountMember (legacy : Bool) (mountpoint : Option Mountpoint) : String × Value :=
  let value := (mountpoint.map fun m => Value.string m.path).getD .null
  if legacy then ("mountpoint", value) else ("mountpoints", .array [value])

mutual

/-- How `lsblk` prints a device: before version 2.37 with the column MOUNTPOINT only. -/
def Device.print (legacy : Bool) : Device → Value
  | node name size type mountpoint below =>
    .object ([("name", .string name), ("size", unsigned size), ("type", .string type),
      mountMember legacy mountpoint] ++
        if below.isEmpty then [] else [("children", .array (Device.printAll legacy below))])

def Device.printAll (legacy : Bool) : List Device → List Value
  | [] => []
  | dev :: devs => dev.print legacy :: Device.printAll legacy devs

end

def printed (legacy : Bool) (devs : List Device) : Output :=
  some (.object [("blockdevices", .array (Device.printAll legacy devs))])

section

variable {statvfs : String → Option Usage}

theorem normalizeMountpoints_print (name : String) (size : UInt64) (type : String)
    (mountpoint : Option Mountpoint) (below : List Device) :
    normalizeMountpoints ((Device.node name size type mountpoint below).print true) =
      .object (("mountpoints", mountpointArray (mountMember true mountpoint).2) ::
        [("name", .string name), ("size", unsigned size), ("type", .string type)] ++
          if below.isEmpty then []
          else [("children", .array (normalizeAll (Device.printAll true below)))]) := by
  rw [Device.print]
  split_ifs <;>
    simp [normalizeMountpoints, normalizeMembers, normalizeArray, pluralize, insertMember,
      mountMember, List.lookup_cons]

/-- The mount points that come back are the printed one, if there is one. -/
theorem filterMap_mountpoint (mountpoint : Option Mountpoint) :
    (((mountpointArray (mountMember true mountpoint).2).asArray).getD []).filterMap Value.asStr =
      (((mountMember false mountpoint).2.asArray).getD []).filterMap Value.asStr := by
  cases mountpoint with
  | none => rfl
  | some m => simp [mountMember, mountpointArray, Value.asArray, Value.asStr, m.ne]

/-- What the tree shows of a device does not depend on how it was printed. -/
theorem enriched_print (dev : Device) (devs : Option (List Value)) :
    enriched statvfs (normalizeMountpoints (dev.print true)) devs =
      enriched statvfs (dev.print false) devs := by
  obtain ⟨name, size, type, mountpoint, below⟩ := dev
  have hmountpoints : mountpointsOf
      (normalizeMountpoints ((Device.node name size type mountpoint below).print true)) =
      mountpointsOf ((Device.node name size type mountpoint below).print false) := by
    have hmember := filterMap_mountpoint mountpoint
    rw [normalizeMountpoints_print, Device.print]
    simpa [mountpointsOf, get_cons, mountMember] using hmember
  have hfield (key : String) (hkey : key = "name" ∨ key = "type" ∨ key = "size") :
      Value.get key
        (normalizeMountpoints ((Device.node name size type mountpoint below).print true)) =
      Value.get key ((Device.node name size type mountpoint below).print false) := by
    rw [normalizeMountpoints_print, Device.print]
    rcases hkey with rfl | rfl | rfl <;> simp [get_cons]
  simp only [enriched, hmountpoints, textField, sizeField, hfield "name" (.inl rfl),
    hfield "type" (.inr (.inl rfl)), hfield "size" (.inr (.inr rfl))]

/-- The devices below a printed one. -/
theorem children_print (legacy : Bool) (name : String) (size : UInt64) (type : String)
    (mountpoint : Option Mountpoint) (below : List Device) :
    children ((Device.node name size type mountpoint below).print legacy) =
      if below.isEmpty then none else some (Device.printAll legacy below) := by
  rw [Device.print]
  cases legacy <;> split_ifs <;>
    simp [children, get_cons, get_nil, mountMember, Value.asArray]

theorem children_normalizeMountpoints_print (name : String) (size : UInt64) (type : String)
    (mountpoint : Option Mountpoint) (below : List Device) :
    children (normalizeMountpoints ((Device.node name size type mountpoint below).print true)) =
      if below.isEmpty then none else some (normalizeAll (Device.printAll true below)) := by
  rw [normalizeMountpoints_print]
  split_ifs <;> simp [children, get_cons, get_nil, Value.asArray]

mutual

theorem enrichDevice_print : ∀ dev : Device,
    enrichDevice statvfs (normalizeMountpoints (dev.print true)) =
      enrichDevice statvfs (dev.print false)
  | .node name size type mountpoint below => by
    rw [enrichDevice_eq, enrichDevice_eq, enriched_print, children_print,
      children_normalizeMountpoints_print]
    split_ifs
    · rfl
    · rw [Option.map_some, Option.map_some, ← enrichAll_eq_map, ← enrichAll_eq_map,
        enrichAll_printAll below]

theorem enrichAll_printAll : ∀ devs : List Device,
    enrichAll statvfs (normalizeAll (Device.printAll true devs)) =
      enrichAll statvfs (Device.printAll false devs)
  | [] => rfl
  | dev :: devs => by
    rw [Device.printAll, Device.printAll, normalizeAll, enrichAll, enrichAll,
      enrichDevice_print dev, enrichAll_printAll devs]

end

/-- What tree and rows both show of a device. -/
def shown (dev : Value) : String × UInt64 × String × Option String :=
  (textField "name" dev, sizeField dev, textField "type" dev,
    (mountpointsOf dev).find? fun m => m ≠ "")

/-- What a row shows of its device. -/
def shownInRow (row : Value) : String × UInt64 × String × Option String :=
  (textField "name" row, sizeField row, textField "type" row,
    (row.get "mountpoint").bind Value.asStr)

theorem shownInRow_row (dev : Value) : shownInRow (row dev) = shown dev := by
  simp only [shownInRow, shown, row, textField, sizeField, get_cons]
  rcases (mountpointsOf dev).find? fun m => m ≠ "" with _ | m <;> rfl

theorem filterMap_asStr_map (l : List String) :
    (l.map Value.string).filterMap Value.asStr = l := by
  rw [List.filterMap_map]
  exact List.filterMap_some

theorem shown_enriched (dev : Value) (devs : Option (List Value)) :
    shown (enriched statvfs dev devs) = shown dev := by
  have hmountpoints : mountpointsOf (enriched statvfs dev devs) = mountpointsOf dev := by
    rw [mountpointsOf, enriched]
    simp only [List.cons_append, get_cons]
    exact filterMap_asStr_map (mountpointsOf dev)
  simp only [shown, hmountpoints]
  rfl

theorem children_enriched (dev : Value) (devs : Option (List Value)) :
    children (enriched statvfs dev devs) = devs := by
  rw [children, enriched]
  cases devs with
  | none => rfl
  | some devs => rfl

/-- The rows of the tree say of the devices what the rows of the output say. -/
theorem flattenDevice_enrichDevice (dev : Value) :
    (flattenDevice (enrichDevice statvfs dev)).map shownInRow =
      (flattenDevice dev).map shownInRow := by
  induction dev using children_induction with
  | step dev ih =>
    rw [enrichDevice_eq, flattenDevice_eq, flattenDevice_eq dev, List.map_cons, List.map_cons,
      shownInRow_row, shownInRow_row, shown_enriched, children_enriched]
    rcases hchildren : children dev with _ | devs
    · rfl
    · rw [Option.map_some, Option.getD_some, Option.getD_some, List.map_flatMap, List.map_flatMap,
        List.flatMap_map]
      exact congrArg _ (List.flatMap_congr (ih devs hchildren))

end

/-- Whatever `lsblk` prints: the devices of the tree, each before the ones below it, are those of
the rows, with the same names, sizes, types and mount points. -/
theorem flatten_enrich (statvfs : String → Option Usage) (devs : List Value) :
    (flatten (enrichAll statvfs devs)).map shownInRow = (flatten devs).map shownInRow := by
  rw [enrichAll_eq_map, flatten_eq_flatMap, flatten_eq_flatMap, List.map_flatMap, List.map_flatMap,
    List.flatMap_map]
  exact List.flatMap_congr fun dev _ => flattenDevice_enrichDevice dev

end Tenodera.Agent.BlockDevices
