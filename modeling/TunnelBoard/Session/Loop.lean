import TunnelBoard.Preferences.Writer
import TunnelBoard.Session.Basic
import TunnelBoard.Session.Wait
/-
  The loop that runs a session, and everything that goes on beside it.

  The loop handles the messages of a queue, oldest first, and carries out the effects that each one
  asks for before it turns to the next.  Beside it there are the waits it started, the writer of
  preferences, the owner who reads events, and the world outside.  All of them go on at their own
  pace, so whatever can happen next is a `Move`, a step too small to be interrupted, and a run is
  any sequence of moves, each of them possible where it is made.

  A loop that quits passes through stages.  It stops handling messages, then the queue is closed,
  then the writer saves what it still has, and then all is done.
-/

namespace TunnelBoard

/-- How far a loop has come. -/
inductive Stage where
  | running
  /-- Messages are taken, but no longer handled. -/
  | ending
  /-- Messages are refused, and there will be no more events. -/
  | closed
  | done
  deriving DecidableEq, Repr

structure Loop where
  session : Session
  /-- The effects that are still to be carried out. -/
  effects : List Effect
  /-- Whether the loop is to end. -/
  quitting : Bool
  stage : Stage
  /-- The messages that are still to be handled, oldest first. -/
  queue : List Message
  waits : List Wait
  events : EventQueue
  writer : PreferencesWriter
  /-- Whether the preferences to be saved next are in the writer's slot, and the bell is still to be
      rung for them. -/
  placed : Bool
  /-- Whether the loop knows that the writer is no more, and saves by itself. -/
  writerLost : Bool
  world : World
  /-- What was reported, oldest first. -/
  log : List LogRecord

namespace Loop

/-- A loop at its beginning, with the first effects to be carried out. -/
def start (session : Session) (capacity : Nat) (store : PreferencesStore) (world : World) : Loop :=
  let (session, command) := session.init
  { session
    effects := command.flatten
    quitting := false
    stage := .running
    queue := []
    waits := []
    events := .empty capacity
    writer := .start store
    placed := false
    writerLost := false
    world
    log := [] }

/-- Whether a scope has ended. -/
def hasEnded (l : Loop) : Scope → Bool
  | .session => l.stage ≠ .running
  | .outside id => l.world.ended.contains id
  | scope => l.session.hasEnded scope

def report (l : Loop) (records : List LogRecord) : Loop := { l with log := l.log ++ records }

/-! ## Effects -/

/-- Add a message to the queue.  A closed queue drops it. -/
def post (l : Loop) (m : Message) : Loop :=
  match l.stage with
  | .running | .ending => { l with queue := l.queue ++ [m] }
  | .closed | .done => l

/-- Start a wait, which the end of the session ends as well. -/
def await (l : Loop) (awaited : Awaited) (stop : StopToken) : Loop :=
  { l with waits := l.waits ++ [Wait.make awaited (stop.merge (Token.ofScope .session))] }

def emit (l : Loop) (e : Event) : Loop :=
  let (events, records) := l.events.push e
  { l with events }.report records

/-- Save preferences without the writer.  A store that breaks down takes the loop with it. -/
def saveInline (l : Loop) (p : Preferences) : Loop :=
  let (store, result, records) := l.writer.store.save p
  let l := { l with writer := { l.writer with store } }.report records
  match result with
  | .saved => l
  | .failed failure => l.report [PreferencesStore.saveFailed failure]
  | .brokeDown => { l with stage := .closed, effects := [] }

/-- Have preferences saved: by the writer, who has them already, or else without it. -/
def savePreferences (l : Loop) (p : Preferences) : Loop :=
  if l.writerLost then l.saveInline p
  else
    let (writer, accepted) := l.writer.ring
    let l := { l with writer, placed := false }
    if accepted then l
    else
      let lost := PreferencesWriter.gone
      { l with writerLost := true }.report
        (logRecord .warn "preferences writer gone; saving inline"
          [shownField "error" lost.message, quotedField "code" lost.code] :: writer.obituary)
        |>.saveInline p

/-- Carry out an effect. -/
def perform (l : Loop) : Effect → Loop
  | .emit e => l.emit e
  | .quit => { l with quitting := true }
  | .clearScreen => l
  | .scheduleTick seq n after stop => l.await (.tick seq n (l.world.clock + after)) stop
  | .scheduleLogTick seq n after stop => l.await (.logTick seq n (l.world.clock + after)) stop
  | .watchLog seq n stop => l.await (.logChange seq n) stop
  | .fetchLogs seq n feed limit =>
    l.post (.result seq (.logsFetched n (feed.tail l.world.log limit)))
  | .sampleTraffic seq n =>
    let (traffic, world) := l.world.readTraffic
    { l with world }.post (.result seq (.trafficSampled n traffic))
  | .awaitContextEnd seq context stop => l.await (.contextEnd seq context) stop
  | .awaitReady seq signal stop => l.await (.ready seq signal) stop
  | .savePreferences p => l.savePreferences p

/-! ## Steps of the loop -/

/-- Whether the preferences to be saved next go to the writer, and are not there yet. -/
def mustPlace (l : Loop) : Effect → Bool
  | .savePreferences _ => !l.writerLost && !l.placed
  | _ => false

/-- Put the preferences to be saved next in the writer's slot. -/
def place (l : Loop) : Option Loop :=
  match l.stage, l.effects with
  | .running, .savePreferences p :: _ =>
    if l.mustPlace (.savePreferences p) then some { l with writer := l.writer.put p, placed := true }
    else none
  | _, _ => none

/-- Carry out the next effect. -/
def performNext (l : Loop) : Option Loop :=
  match l.stage, l.effects with
  | .running, e :: rest =>
    if l.mustPlace e then none else some ({ l with effects := rest }.perform e)
  | _, _ => none

/-- Whether the loop runs and has nothing left to carry out. -/
def isIdle (l : Loop) : Bool := l.stage = .running && l.effects.isEmpty

/-- Handle the oldest message. -/
def handleNext (l : Loop) : Option Loop :=
  if l.isIdle && !l.quitting then
    match l.queue with
    | [] => none
    | m :: queue =>
      let (session, command) := l.session.update m
      some { l with session, effects := command.flatten, queue }
  else none

/-- A frame cannot be written: the session is over, and its owner is told why. -/
def failPaint (l : Loop) (cause : Text) : Option Loop :=
  if l.isIdle && !l.quitting then
    let failure := Failure.terminal cause
    let l := l.report [logRecord .warn "frame write failed; closing session"
      [shownField "error" failure.message]]
    some
      { l.emit (.error (.failure failure)) with
        session := { l.session with terminated := true }
        quitting := true }
  else none

/-- Stop handling messages, and end every wait. -/
def leave (l : Loop) : Option Loop :=
  if l.isIdle && l.quitting then
    some ({ l with
      stage := .ending
      session := { l.session with monitor := l.session.monitor.map Monitor.stopWaits }
      }.report [logRecord .debug "session loop finished" []])
  else none

/-- Close the queue, and let the writer finish. -/
def close (l : Loop) : Option Loop :=
  if l.stage = .ending then some { l with stage := .closed, queue := [], writer := l.writer.close }
  else none

/-- All is done when the writer is no more. -/
def finish (l : Loop) : Option Loop :=
  if l.stage = .closed && l.writer.isOver then
    some ({ l with stage := .done }.report (if l.writerLost then [] else l.writer.obituary))
  else none

/-! ## Steps beside the loop -/

/-- The `i`-th wait wakes. -/
def wake (l : Loop) (i : Nat) : Option Loop :=
  match l.waits[i]? with
  | some t =>
    if t.canWake l.world l.hasEnded then
      some ({ l with
        waits := l.waits.set i { t with woken := true }
        world := t.awaited.take l.world }.report t.awaited.records)
    else none
  | none => none

/-- The `i`-th wait lapses. -/
def lapse (l : Loop) (i : Nat) : Option Loop :=
  match l.waits[i]? with
  | some t => if t.canLapse l.hasEnded then some { l with waits := l.waits.eraseIdx i } else none
  | none => none

/-- The `i`-th wait, which woke, posts its message. -/
def postWoken (l : Loop) (i : Nat) : Option Loop :=
  match l.waits[i]? with
  | some t =>
    if t.woken then some ({ l with waits := l.waits.eraseIdx i }.post t.awaited.message) else none
  | none => none

/-- The writer of preferences does what it is about to do. -/
def stepWriter (l : Loop) : Option Loop :=
  l.writer.step.map fun r => { l with writer := r.1 }.report r.2

/-- A message comes from the keyboard or from the owner. -/
def receive (l : Loop) (m : Message) : Option Loop :=
  match l.stage with
  | .running | .ending => some { l with queue := l.queue ++ [m] }
  | .closed | .done => none

/-- The owner takes the oldest event. -/
def takeEvent (l : Loop) : Option (Event × Loop) :=
  match l.events.take with
  | (some e, events) => some (e, { l with events })
  | (none, _) => none

end Loop

/-! ## Moves -/

/-- What can happen next. -/
inductive Move where
  | place
  | perform
  | handle
  | failPaint (cause : Text)
  | leave
  | close
  | finish
  | wake (i : Nat)
  | lapse (i : Nat)
  | post (i : Nat)
  | stepWriter
  | receive (m : Message)
  | takeEvent
  | endScope (id : Nat)
  | signal (id : Nat)
  | append (bytes : List UInt8)
  | announce
  | pass (time : Nat)
  deriving DecidableEq, Repr

namespace Loop

/-- The state after a move, if the move can be made. -/
def step (l : Loop) : Move → Option Loop
  | .place => l.place
  | .perform => l.performNext
  | .handle => l.handleNext
  | .failPaint cause => l.failPaint cause
  | .leave => l.leave
  | .close => l.close
  | .finish => l.finish
  | .wake i => l.wake i
  | .lapse i => l.lapse i
  | .post i => l.postWoken i
  | .stepWriter => l.stepWriter
  | .receive m => l.receive m
  | .takeEvent => l.takeEvent.map (·.2)
  | .endScope id => some { l with world := l.world.endScope id }
  | .signal id => some { l with world := l.world.signal id }
  | .append bytes => some { l with world := l.world.append bytes }
  | .announce =>
    if l.world.unannounced = 0 then none else some { l with world := l.world.announce }
  | .pass time => some { l with world := l.world.pass time }

/-- The state after some moves, if they can be made one after the other. -/
def run (l : Loop) : List Move → Option Loop
  | [] => some l
  | m :: moves => (l.step m).bind (·.run moves)

/-- Make a move, if it can be made. -/
def attempt (l : Loop) (m : Move) : Loop := (l.step m).getD l

/-- Make a move again and again, `n` times at most, for as long as it can be made. -/
def repeated (m : Move) : Nat → Loop → Loop
  | 0, l => l
  | n + 1, l =>
    match l.step m with
    | some l => repeated m n l
    | none => l

end Loop
end TunnelBoard
