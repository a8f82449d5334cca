import TunnelBoard.Display.Renderer
import TunnelBoard.Live.Output
import TunnelBoard.Session.Loop
/-
  A session that runs by itself.

  A loop leaves open which move comes next.  Here everything that is ready goes on at once, and time
  passes only when there is nothing else to do.  Messages are handled in batches: all that are there,
  and the results that the loop gives to itself on the way.  After each batch a frame is painted,
  unless the session has quit, in which case everything is brought to its end.
-/

namespace TunnelBoard

structure LiveSession where
  loop : Loop
  renderer : Renderer
  output : FrameOutput
  /-- The time of day that frames are painted at, in seconds. -/
  now : Int
  /-- Whether the program's log goes into memory for as long as the session lasts. -/
  capture : Bool

namespace LiveSession

/-- Whether the session goes on. -/
def isRunning (s : LiveSession) : Bool := s.loop.stage = .running

/-- Whether the session is over for good. -/
def isDone (s : LiveSession) : Bool := s.loop.stage = .done

/-- Whether the program's log goes into memory. -/
def capturing (s : LiveSession) : Bool := s.capture && !s.isDone

/-- Do something to the loop. -/
def onLoop (f : Loop → Loop) (s : LiveSession) : LiveSession := { s with loop := f s.loop }

end LiveSession

/-! ## Batches -/

namespace Loop

/-- Carry out the next effect from beginning to end. -/
def performOne (l : Loop) : Loop := (l.attempt .place).attempt .perform

/-- Carry out all effects. -/
def performAll (l : Loop) : Loop := l.effects.foldl (fun l _ => l.performOne) l

/-- Handle the oldest message with all its effects. -/
def handleOne (l : Loop) : Loop := (l.attempt .handle).performAll

/-- Handle as many messages as there are now. -/
def handleAll (l : Loop) : Loop := l.queue.foldl (fun l _ => l.handleOne) l

/-- Handle a batch.  The results that the loop gives to itself ask for nothing more, so a second
    round is the last one. -/
def handleBatch (l : Loop) : Loop := l.handleAll.handleAll

/-- Let the writer go on until it waits or is no more. -/
def settleWriter (l : Loop) : Loop := repeated .stepWriter PreferencesWriter.stepsToRest l

/-- Bring a loop that has quit to its end. -/
def wrapUp (l : Loop) : Loop :=
  if l.quitting then
    ((l.performAll.attempt .leave).attempt .close).settleWriter.attempt .finish
  else l

end Loop

namespace LiveSession

/-- Paint a frame, unless the session has quit. -/
def paint (s : LiveSession) : LiveSession :=
  if s.loop.quitting || !s.isRunning then s
  else
    let (frame, renderer) := s.renderer.render s.loop.session s.now
    let s := { s with renderer }
    match s.output.write frame with
    | some output => { s with output }
    | none => s.onLoop (·.attempt (.failPaint FrameOutput.gone))

/-- Paint what there is to be seen, or come to the end. -/
def finishRound (s : LiveSession) : LiveSession :=
  (s.paint.onLoop Loop.settleWriter).onLoop Loop.wrapUp

/-- Begin: the first effects and the first frame. -/
def begin (s : LiveSession) : LiveSession := (s.onLoop Loop.performAll).finishRound

/-- Handle what is in the queue, if there is anything. -/
def round (s : LiveSession) : LiveSession :=
  if s.loop.queue.isEmpty || !s.isRunning then s else (s.onLoop Loop.handleBatch).finishRound

/-! ## Waits -/

/-- Let the `i`-th wait wake and post its message. -/
def fire (s : LiveSession) (i : Nat) : LiveSession :=
  s.onLoop fun l => (l.attempt (.wake i)).attempt (.post i)

/-- The waits that go on, with their places. -/
def pending (s : LiveSession) : List (Wait × Nat) :=
  s.loop.waits.zipIdx.filter fun t => !t.1.stop.cancelled s.loop.hasEnded

/-- The first wait whose end has come, timers apart. -/
def readyWait? (s : LiveSession) : Option Nat :=
  (s.pending.find? fun t =>
    t.1.awaited.due?.isNone && t.1.canWake s.loop.world s.loop.hasEnded).map (·.2)

/-- The timer that is due first, with the time it is due at. -/
def nextTimer? (s : LiveSession) : Option (Nat × Nat) :=
  (s.pending.filterMap fun t => t.1.awaited.due?.map (·, t.2)).foldl
    (fun best t => match best with
      | some b => if t.1 < b.1 then some t else some b
      | none => some t) none

/-- Let every wait that is ready post its message. -/
def fireReady (s : LiveSession) : LiveSession :=
  s.loop.waits.foldl (fun s _ =>
    match s.readyWait? with
    | some i => s.fire i
    | none => s) s

/-- Let time pass until the next timer, which then posts its message. -/
def passTime (s : LiveSession) : LiveSession :=
  match s.nextTimer? with
  | some (due, i) => (s.onLoop (·.attempt (.pass (due - s.loop.world.clock)))).fire i
  | none => s

/-- Get a message into the queue: what is ready comes first, timers after it. -/
def awaitMessage (s : LiveSession) : LiveSession :=
  if !s.loop.queue.isEmpty then s
  else
    match s.readyWait? with
    | some i => s.fire i
    | none => s.passTime

/-- Go on until only time can bring something new. -/
def settle (s : LiveSession) : LiveSession :=
  let s := s.round
  s.loop.waits.foldl (fun s _ =>
    match s.readyWait? with
    | some i => (s.fire i).round
    | none => s) s

/-! ## Playing a script -/

/-- Make moves from outside, those that can be made. -/
def make (s : LiveSession) (moves : List Move) : LiveSession :=
  s.onLoop fun l => moves.foldl Loop.attempt l

/-- Play a script.  The moves of a scene are made when a frame has been painted, and are followed by
    the next batch; after the last scene the session is closed. -/
def play : List (List Move) → LiveSession → LiveSession
  | [], s => ((s.fireReady).make [.receive .close]).round
  | scene :: rest, s =>
    if s.isRunning then play rest (s.fireReady.make scene).awaitMessage.round else s

end LiveSession
end TunnelBoard
