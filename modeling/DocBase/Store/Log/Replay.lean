import DocBase.Store.Log.Frame
import DocBase.Keyed

/-! Reading a log back: the frames from its start up to the first place where no valid
frame stands, and where the live records lie. -/
namespace DocBase.Log

/-- Where the data of a live record lies. -/
structure Slot where
  offset : Nat
  length : Nat
  /-- The size of the frame around it. -/
  frameSize : Nat
  deriving DecidableEq

def Slot.ofFrame (start : Nat) (f : Frame) : Slot :=
  ⟨start + headerSize + bodyHeaderSize + f.id.utf8ByteSize, f.data.size, f.size⟩

/-- What the frames so far amount to. -/
structure Replay where
  index : Keyed String Slot := []
  stop : Nat := 0
  liveBytes : Nat := 0
  deadBytes : Nat := 0

namespace Replay

/-- A frame at the end of what was read. What it supersedes is dead, and so is the
frame of a deletion itself. -/
def step (r : Replay) (f : Frame) : Replay :=
  let old := r.index.get? f.id
  let oldLength := (old.map Slot.length).getD 0
  let oldFrame := (old.map Slot.frameSize).getD 0
  match f.op with
  | .put =>
    { index := r.index.insert f.id (.ofFrame r.stop f)
      stop := r.stop + f.size
      liveBytes := r.liveBytes + f.data.size - oldLength
      deadBytes := r.deadBytes + oldFrame }
  | .delete =>
    { index := r.index.erase f.id
      stop := r.stop + f.size
      liveBytes := r.liveBytes - oldLength
      deadBytes := r.deadBytes + f.size + oldFrame }

end Replay

/-- The frames of a log from `pos` on. No log holds more frames than bytes. -/
def framesFrom (sum : Bytes → UInt32) (log : Bytes) : Nat → Nat → List Frame
  | 0, _ => []
  | fuel + 1, pos =>
    match Frame.readAt? sum log pos with
    | some f => f :: framesFrom sum log fuel (pos + f.size)
    | none => []

def frames (sum : Bytes → UInt32) (log : Bytes) : List Frame := framesFrom sum log log.size 0

def replay (sum : Bytes → UInt32) (log : Bytes) : Replay := (frames sum log).foldl Replay.step {}

end DocBase.Log
