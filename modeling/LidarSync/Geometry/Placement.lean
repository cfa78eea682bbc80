import LidarSync.Blueprint.Basic
import LidarSync.Cloud.Basic
import LidarSync.Geometry.Pose

/-!
# Placements as poses, and clouds in motion

A placement gives its angles in degrees. A cloud moves point by point, in double precision; its
intensities stay.
-/

namespace LidarSync

def radians (degrees : Float) : Float := degrees * (3.141592653589793 / 180)

def Placement.toPose (p : Placement) : Pose Float where
  shift := ⟨p.location.x, p.location.y, p.location.z⟩
  rotation :=
    Quaternion.ofAngles (radians p.rotation.roll) (radians p.rotation.pitch)
      (radians p.rotation.yaw)

def Point.moved (pose : Pose Float) (p : Point) : Point :=
  let v := pose.apply ⟨p.x.toDouble, p.y.toDouble, p.z.toDouble⟩
  ⟨.ofDouble v.x, .ofDouble v.y, .ofDouble v.z, p.intensity⟩

def Cloud.moved (pose : Pose Float) (c : Cloud) : Except CloudFault Cloud :=
  c.points.map fun ps => Cloud.ofPoints c.stamp c.frame (ps.map (Point.moved pose))

end LidarSync
