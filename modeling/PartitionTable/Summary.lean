import PartitionTable.Volume

/-! One-line summaries of the values that a caller may want to look at. A summary is a name
with fields in braces; two dots stand for parts that it leaves out. -/
namespace PartitionTable

namespace Summary

def fields (fields : List (String × String)) : List String :=
  fields.map fun (name, value) => s!"{name}: {value}"

def whole (name : String) (parts : List (String × String)) : String :=
  s!"{name} \x7b " ++ ", ".intercalate (fields parts) ++ " \x7d"

def partly (name : String) (parts : List (String × String)) : String :=
  s!"{name} \x7b " ++ ", ".intercalate (fields parts ++ [".."]) ++ " \x7d"

def list (items : List String) : String := "[" ++ ", ".intercalate items ++ "]"

def option : Option String → String
  | some text => s!"Some({text})"
  | none => "None"

end Summary

def Ownership.name : Ownership → String
  | ownedByVolume => "OwnedByVolume"
  | borrowedByCaller => "BorrowedByCaller"

def Extent.summary (extent : Extent) : String :=
  Summary.whole "PartitionDescriptor" [
    ("partition_type", toString extent.kind.code.toNat),
    ("table_offset", toString extent.table),
    ("sector_number", toString extent.firstSector.toNat),
    ("sector_count", toString extent.sectorCount.toNat)]

def Handle.summary (handle : Handle) (signals : Signals) : String :=
  Summary.whole "IoHandle" [
    ("bytes_per_sector", toString handle.bytesPerSector.toNat),
    ("abort", s!"CancellationToken({signals.raised handle.token})")]

def Options.summary (options : Options) : String :=
  Summary.whole "VolumeOptions" [
    ("maximum_recursion_depth", toString options.depthLimit),
    ("sector_cache_capacity", toString options.cacheCapacity)]

def Volume.summary (volume : Volume σ) (signals : Signals) : String :=
  Summary.partly "Volume" [
    ("io_handle", volume.handle.summary signals),
    ("options", volume.options.summary),
    ("ownership", Summary.option (volume.ownership.map (·.name))),
    ("disk_identity", toString volume.identity.toNat),
    ("size", toString volume.size),
    ("partitions", Summary.list (volume.partitions.map (·.summary)))]

def Reader.summary (reader : Reader σ) : String :=
  Summary.partly "Partition" [
    ("descriptor", reader.extent.summary),
    ("bytes_per_sector", toString reader.bytesPerSector.toNat),
    ("volume_offset", toString reader.start),
    ("size", toString reader.size)]

def Cache.summary (cache : Cache) : String :=
  Summary.whole "SectorCache" [
    ("len", toString cache.size),
    ("capacity", toString cache.capacity)]

end PartitionTable
