import TunnelBoard.Session.Call
/-
  The dealings of an owner with a running session: one call after the other, while the loop goes on.

  An owner sees a call through to its answer before the next one begins.  Between two steps of a call
  the loop, and all that goes on beside it, may make any moves, so a call may find the loop at any point
  of its way, or see it stop in between.  The dealings keep what the loop has told so far, and for each
  call the events that it has taken.
-/

namespace TunnelBoard

/-- What the loop tells its owner when it makes a move, with these effects to be carried out. -/
def Move.tells (effects : List Effect) : Move → List Event
  | perform => effects.head?.toList.filterMap Effect.event?
  | failPaint cause => [.error (.failure (.terminal cause))]
  | _ => []

/-- Whether a call that has come this far takes an event with its next step, if there is one. -/
def CallStage.reads : CallStage → Bool
  | reading | searching => true
  | sending _ | answered _ => false

/-- A call, and what it has come to. -/
structure Exchange where
  call : Call
  stage : CallStage
  /-- The events that the call has taken, oldest first. -/
  taken : List Event
  /-- How far the loop had come when the call took its latest step. -/
  seen : Stage
  deriving DecidableEq, Repr

/-- A call that begins. -/
def Exchange.begin (c : Call) (l : Loop) : Exchange := ⟨c, c.begin, [], l.stage⟩

/-- A call after a step, which led from one state of the loop to another. -/
def Exchange.advance (x : Exchange) (stage : CallStage) (before after : Loop) : Exchange :=
  { x with
    stage
    taken := x.taken ++ if x.stage.reads then before.events.events.head?.toList else []
    seen := after.stage }

structure Dealings where
  loop : Loop
  /-- What the loop has told, oldest first. -/
  told : List Event
  /-- The call under way. -/
  current : Option Exchange
  /-- The calls that were answered, oldest first. -/
  past : List Exchange

/-- What can happen next. -/
inductive Act where
  | move (m : Move)
  | begin (c : Call)
  /-- The call under way takes its next step. -/
  | goOn
  /-- The loop gives up the oldest event. -/
  | makeRoom
  deriving DecidableEq, Repr

namespace Loop

/-- Whether the loop may be on the point of telling how the session ends: that is what it carries out
    next, or a frame cannot be written. -/
def tellsEnd (l : Loop) : Bool :=
  l.stage = .running &&
    match l.effects with
    | .emit e :: _ => e.isTerminal
    | [] => !l.quitting
    | _ => false

/-- Make room for the end, in a buffer that was full a moment ago.  The owner may have taken events in
    the meantime, and the oldest one is given up all the same. -/
def makeRoom (l : Loop) : Option Loop :=
  if l.tellsEnd then
    match l.events.take with
    | (some old, events) =>
      some ({ l with events }.report
        [logRecord .warn "session event buffer full; evicting oldest event"
          [shownField "evicted" old.debugText]])
    | (none, _) => none
  else none

end Loop

namespace Dealings

/-- Dealings with a loop, before the first call. -/
def start (loop : Loop) : Dealings := ⟨loop, [], none, []⟩

/-- Every call that was made, oldest first. -/
def exchanges (d : Dealings) : List Exchange := d.past ++ d.current.toList

/-- Put a call where it belongs: it is over, or goes on. -/
def file (d : Dealings) (x : Exchange) : Dealings :=
  match x.stage with
  | .answered _ => { d with current := none, past := d.past ++ [x] }
  | _ => { d with current := some x }

/-- The call under way takes its next step, if it does not have to wait. -/
def goOn (d : Dealings) : Option Dealings :=
  d.current.bind fun x =>
    (d.loop.stepCall x.call x.stage).map fun r =>
      { d with loop := r.2 }.file (x.advance r.1 d.loop r.2)

/-- The dealings after an act, if it is possible. -/
def step (d : Dealings) : Act → Option Dealings
  | .move m =>
    -- an owner who makes calls takes events in no other way
    if m = .takeEvent then none
    else
      (d.loop.step m).map fun loop =>
        { d with loop, told := d.told ++ m.tells d.loop.effects }
  | .begin c => if d.current.isNone then some { d with current := some (.begin c d.loop) } else none
  | .goOn => d.goOn
  | .makeRoom => d.loop.makeRoom.map fun loop => { d with loop }

/-- The dealings after some acts, if they are possible one after the other. -/
def run (d : Dealings) : List Act → Option Dealings
  | [] => some d
  | a :: acts => (d.step a).bind (·.run acts)

end Dealings
end TunnelBoard
