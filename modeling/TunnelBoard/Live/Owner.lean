import TunnelBoard.Live.Basic
import TunnelBoard.Session.Call
import TunnelBoard.Session.Options
/-
  A running session in the hands of its owner.

  A message can be handed in without waiting for the session to handle it.  Whenever the owner looks at
  the session or waits for it, it goes on until only time can bring something new, and a call that still
  has to wait lets time pass.
-/

namespace TunnelBoard
namespace LiveSession

/-- Start a session that is not shown on a terminal. -/
def start (o : SessionOptions) (d : SessionDeps) (world : World) : LiveSession :=
  let (prefs, records) := d.store.loadOrStandard
  let loop := Loop.start (Session.make o.config prefs d.logSource o.size) EventQueue.standardCapacity
    d.store world
  let loop := loop.report (records ++ [o.started])
  let loop :=
    match o.context with
    | some context => loop.await (.farewell context) Token.never
    | none => loop
  let s : LiveSession :=
    { loop
      renderer := .empty o.colour
      output := if o.hasOutput then .writer [] none else .discard
      now := 0
      capture := d.capture }
  s.begin.settle

/-- Make moves from outside, and let the session go on. -/
def act (s : LiveSession) (moves : List Move) : LiveSession := (s.make moves).settle

/-- Hand in a message, unless the session is closed, without waiting for anything. -/
def handIn (s : LiveSession) (m : Message) : Except SessionError LiveSession :=
  match s.loop.receive m with
  | some loop => .ok { s with loop }
  | none => .error .sessionClosed

/-- Hand in a message, and let the session go on. -/
def send (s : LiveSession) (m : Message) : Except SessionError LiveSession := (s.handIn m).map settle

/-- The last frame that was written. -/
def lastFrame (s : LiveSession) : List Text := s.output.frames.getLast?.getD []

/-- Whether the last frame holds a text. -/
def shows (s : LiveSession) (text : Text) : Bool := s.lastFrame.any (hasPart text)

/-! ## Waiting -/

/-- How often a wait looks again before it is given up. -/
def patience : Nat := 1000

/-- Let time pass and the session go on. -/
def waitLonger (s : LiveSession) : LiveSession := s.passTime.settle

/-- Wait until the last frame holds a text. -/
def awaitText (s : LiveSession) (text : Text) : Bool × LiveSession :=
  go patience s.settle
where
  go : Nat → LiveSession → Bool × LiveSession
    | 0, s => (s.shows text, s)
    | n + 1, s => if s.shows text then (true, s) else go n s.waitLonger

/-- Take a call up where it is, and see it through to its answer. -/
def resume (s : LiveSession) (c : Call) (stage : CallStage) : Option Answer × LiveSession :=
  go patience s stage
where
  go : Nat → LiveSession → CallStage → Option Answer × LiveSession
    | _, s, .answered a => (some a, s)
    | 0, s, _ => (none, s)
    | n + 1, s, stage =>
      match s.loop.stepCall c stage with
      | some (stage, loop) => go n { s with loop }.settle stage
      | none => go n s.waitLonger stage

/-- Take the first step of a call, and let the session go on. -/
def beginCall (s : LiveSession) (c : Call) : CallStage × LiveSession :=
  match s.loop.stepCall c c.begin with
  | some (stage, loop) => (stage, { s with loop }.settle)
  | none => (c.begin, s.settle)

/-- Make a call. -/
def call (s : LiveSession) (c : Call) : Option Answer × LiveSession :=
  let (stage, s) := s.beginCall c
  s.resume c stage

end LiveSession
end TunnelBoard
