/-!
# Topics

A topic names a stream of clouds. Each input topic has one output topic, on which its synchronized
clouds are published.
-/

namespace LidarSync

abbrev Topic := String

def Topic.suffix : String := "_synchronized"

def Topic.synchronized (t : Topic) : String := t ++ Topic.suffix

end LidarSync
