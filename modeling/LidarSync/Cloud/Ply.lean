import LidarSync.Cloud.Basic
import LidarSync.Decimal.Layout

/-!
# Clouds as PLY files

A header of text lines names the frame, the stamp, the number of points and their four properties;
the records of the payload follow it unchanged.
-/

namespace LidarSync.Cloud

def plyLines (c : Cloud) : List String := [
  "ply",
  "format binary_little_endian 1.0",
  s!"comment frame_id {c.frame}",
  s!"comment stamp {Decimal.Layout.plain.double c.stamp}",
  s!"element vertex {c.count}",
  "property float x",
  "property float y",
  "property float z",
  "property float intensity",
  "end_header"]

/-- The header of a file, each line closed by a line feed. -/
def plyHeader (c : Cloud) : String := String.join (c.plyLines.map (· ++ "\n"))

/-- The records of the payload, as many as there are points; what the payload lacks is not there. -/
def plyBody (c : Cloud) : List UInt8 := c.payload.take (c.count * c.stride)

def ply (c : Cloud) : List UInt8 := c.plyHeader.toUTF8.toList ++ c.plyBody

end LidarSync.Cloud
