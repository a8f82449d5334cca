import TunnelBoard.Text.Basic
/-
  Where frames go.

  A writer takes every frame in full, for as long as there is room for frames; without one frames
  are painted and forgotten.
-/

namespace TunnelBoard

inductive FrameOutput where
  /-- The frames written so far, oldest first, and how many more can be written, if not any
      number. -/
  | writer (frames : List (List Text)) (room : Option Nat)
  | discard
  deriving DecidableEq, Repr

namespace FrameOutput

def label : FrameOutput → Text
  | writer _ _ => "Writer".toList
  | discard => "Discard".toList

/-- The frames that were written. -/
def frames : FrameOutput → List (List Text)
  | writer frames _ => frames
  | discard => []

/-- Write a frame, if there is room. -/
def write (o : FrameOutput) (frame : List Text) : Option FrameOutput :=
  match o with
  | writer frames none => some (writer (frames ++ [frame]) none)
  | writer _ (some 0) => none
  | writer frames (some (n + 1)) => some (writer (frames ++ [frame]) (some n))
  | discard => some discard

/-- What is said of a frame there is no room for. -/
def gone : Text := "sink is gone".toList

end FrameOutput
end TunnelBoard
