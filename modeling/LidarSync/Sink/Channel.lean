import LidarSync.Sink.Feed

/-!
# The channel sink

A sink that hands each published cloud on to a bounded channel, in the order of the topics. It waits
while the channel is full, also in the middle of a set, and fails once the receiver is gone.
-/

namespace LidarSync

/-- A cloud as the receiver of a channel gets it. -/
structure PublishedCloud where
  topic : String
  roundId : Nat
  cloud : Cloud

def SyncedSet.messages (s : SyncedSet) : List PublishedCloud :=
  s.published.map fun (t, c) => ⟨t, s.roundId, c⟩

/-- The sending end of a channel, and how many clouds of the unfinished set are on it. -/
structure Channel where
  out : Outbox PublishedCloud
  sent : Nat := 0

namespace Channel

def ofCapacity (n : Nat) : Channel := { out := .ofCapacity n }

/-- Puts clouds on the channel until none is left, there is no room, or nobody receives. -/
def push (c : Channel) : List PublishedCloud → Progress Channel
  | [] => .finished true { c with sent := 0 }
  | m :: rest =>
    match c.out.send m with
    | (.queued, out) => push { out, sent := c.sent + 1 } rest
    | (.full, _) => .waiting c
    | (.closed, _) => .finished false { c with sent := 0 }

def sink : Sink Channel where
  write s c := c.push (s.messages.drop c.sent)
  close c := c

def receive (c : Channel) : Option PublishedCloud × Channel :=
  let (m, out) := c.out.receive
  (m, { c with out })

def dropReceiver (c : Channel) : Channel := { c with out := c.out.drop }

end Channel

/-- How many clouds a feed and a channel hold that are still to be received. -/
def Feed.messageCount (f : Feed) (c : Channel) : Nat :=
  let sets := f.current.toList ++ f.queue.waiting
  c.out.waiting.length + (sets.flatMap SyncedSet.messages).length

/-- Lets a worker go on while a receiver takes what it gets, up to a number of clouds. -/
def Feed.readUpTo : Nat → Feed → Channel → List PublishedCloud × Feed × Channel
  | 0, f, c =>
    let (f, c) := f.settle Channel.sink c
    ([], f, c)
  | n + 1, f, c =>
    let (f, c) := f.settle Channel.sink c
    match c.receive with
    | (none, c) => ([], f, c)
    | (some m, c) =>
      let (ms, f, c) := readUpTo n f c
      (m :: ms, f, c)

/-- Lets a worker go on while a receiver takes everything. -/
def Feed.readAll (f : Feed) (c : Channel) : List PublishedCloud × Feed × Channel :=
  f.readUpTo (f.messageCount c) c

end LidarSync
