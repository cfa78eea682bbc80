import LidarSync.Cloud.Ply
import LidarSync.Disk
import LidarSync.Document.Json.Printer
import LidarSync.Message.Encoder
import LidarSync.Sink.Feed

/-!
# The file sink

An archive keeps every round below a directory: a record of the round in `meta`, and each published
cloud in a file of its own, in a directory that is named after the output topic. The segments of a
topic that are empty, `.` or `..` are left out, so that no file lies outside the archive.
-/

namespace LidarSync

/-- A file to be stored: its directory, its name and its bytes. -/
structure Filing where
  directory : String
  name : String
  bytes : List UInt8

/-- Stores a file, making its directory when it is missing. -/
def Disk.store (d : Disk) (f : Filing) : Except DiskFault Unit × Disk :=
  match d.makeAll f.directory with
  | (.error e, d) => (.error e, d)
  | (.ok (), d) =>
    match d.write (Disk.join f.directory f.name) f.bytes with
    | .ok d => (.ok (), d)
    | .error e => (.error e, d)

/-- Stores files in order up to the first that cannot be stored. -/
def Disk.storeAll : List Filing → Disk → Except DiskFault Unit × Disk
  | [], d => (.ok (), d)
  | f :: rest, d =>
    match d.store f with
    | (.ok (), d) => Disk.storeAll rest d
    | (.error e, d) => (.error e, d)

def topicSegments (outputTopic : String) : List String :=
  (Text.segments outputTopic).filter fun part => part ≠ "" && part ≠ "." && part ≠ ".."

def SyncedSet.archiveRecord (s : SyncedSet) : Document :=
  .record [
    ("round_id", .int s.roundId),
    ("reference_stamp", .ofOption .float s.reference),
    ("frame_id", .text s.frame),
    ("published_topics", .ofTexts (s.published.map Prod.fst)),
    ("meta", s.details.toDocument)]

/-- A directory that keeps rounds. -/
structure Archive where
  base : String

namespace Archive

def parameter : String := "base_path"

/-- The archive that the parameters of a sink ask for. -/
def ofParams (params : Keyed String) : Archive := ⟨(params.get? parameter).getD "./output"⟩

def setUp (a : Archive) (d : Disk) : Except DiskFault Unit × Disk := d.makeAll a.base

def recordFiling (a : Archive) (s : SyncedSet) : Filing where
  directory := Disk.join a.base "meta"
  name := s!"{s.roundId}.json"
  bytes := s.archiveRecord.compact.toUTF8.toList

def cloudFiling (a : Archive) (s : SyncedSet) (outputTopic : String) (c : Cloud) : Filing where
  directory := Disk.join a.base ("/".intercalate (topicSegments outputTopic))
  name := s!"{s.roundId}.ply"
  bytes := c.ply

/-- The files of a round, in the order in which they are stored. -/
def filings (a : Archive) (s : SyncedSet) : List Filing :=
  a.recordFiling s :: s.published.map fun (t, c) => a.cloudFiling s t c

/-- Stores a round. What has been stored before a fault stays. -/
def store (a : Archive) (s : SyncedSet) (d : Disk) : Except DiskFault Unit × Disk :=
  d.storeAll (a.filings s)

def sink (a : Archive) : Sink Disk where
  write s d :=
    let (result, d) := a.store s d
    .finished result.toBool d
  close d := d

end Archive

/-- What is said of a set that a sink cannot write. -/
def writeFaultMessage (sink reason : String) : String := s!"sink '{sink}' write error: {reason}"

end LidarSync
