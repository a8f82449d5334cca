import TunnelBoard.Log.Record
import TunnelBoard.Scope.Token
/-
  Asking the program to stop, from inside or by a signal of the system.

  A handler has a flag that is raised by a request or by a signal; clones of a handler share its
  flag.  A watcher looks at the flag of its handler, sleeps for a while, and looks again.  It ends
  when it finds the flag raised, and when its owner gives it up, which it notices in its sleep.  Its
  scope lasts for as long as it does, so that a token of that scope is cancelled in both cases.

  A watcher belongs to an owner, who alone can ask it whether it has fired or take a token from it, and
  who can do neither any more once it is given up.  The tokens that were taken are another matter: they
  are copied freely and may outlast the watcher they came from.
-/

namespace TunnelBoard

/-- What a watcher does. -/
inductive WatcherStage where
  /-- It is about to look at the flag. -/
  | looking
  | sleeping
  /-- It found the flag raised. -/
  | fired
  /-- It was given up. -/
  | ended
  deriving DecidableEq, Repr

structure Watcher where
  /-- The flag it looks at. -/
  flag : Nat
  stage : WatcherStage
  /-- Whether its owner has given it up. -/
  givenUp : Bool
  deriving DecidableEq, Repr

structure Shutdown where
  /-- The flag of every handler. -/
  handlers : List Nat
  /-- Whether each flag is raised. -/
  flags : List Bool
  /-- All watchers there ever were, those included that are over. -/
  watchers : List Watcher
  /-- The tokens that were taken from a watcher, and their copies. -/
  tokens : List (Token Nat)
  deriving Repr

namespace Shutdown

def empty : Shutdown := ⟨[], [], [], []⟩

/-- The flag of a handler. -/
def flagOf (s : Shutdown) (handler : Nat) : Nat := s.handlers.getD handler 0

def isRaised (s : Shutdown) (flag : Nat) : Bool := s.flags.getD flag false

/-- Whether a handler was asked to stop. -/
def isRequested (s : Shutdown) (handler : Nat) : Bool := s.isRaised (s.flagOf handler)

/-! ## Handlers -/

/-- A handler with a flag of its own, which signals raise from now on. -/
def addHandler (s : Shutdown) : Shutdown :=
  { s with handlers := s.handlers ++ [s.flags.length], flags := s.flags ++ [false] }

/-- A handler with the flag of another. -/
def cloneHandler (s : Shutdown) (handler : Nat) : Shutdown :=
  { s with handlers := s.handlers ++ [s.flagOf handler] }

def request (s : Shutdown) (handler : Nat) : Shutdown :=
  { s with flags := s.flags.set (s.flagOf handler) true }

/-- A signal of the system reaches every handler there is. -/
def signal (s : Shutdown) : Shutdown := { s with flags := s.flags.map fun _ => true }

/-! ## Watchers -/

/-- A watcher for a handler. -/
def watch (s : Shutdown) (handler : Nat) : Shutdown :=
  { s with watchers := s.watchers ++ [⟨s.flagOf handler, .looking, false⟩] }

/-- The owner gives a watcher up. -/
def giveUp (s : Shutdown) (watcher : Nat) : Shutdown :=
  { s with watchers := s.watchers.modify watcher fun w => { w with givenUp := true } }

/-- A watcher looks at its flag. -/
def look (s : Shutdown) (watcher : Nat) : Option (Shutdown × List LogRecord) :=
  match s.watchers[watcher]? with
  | some w =>
    if w.stage = .looking then
      let raised := s.isRaised w.flag
      let stage : WatcherStage := if raised then .fired else .sleeping
      some ({ s with watchers := s.watchers.set watcher { w with stage } },
        if raised then [logRecord .info "shutdown signal received" []] else [])
    else none
  | none => none

/-- A watcher has slept for long enough. -/
def wake (s : Shutdown) (watcher : Nat) : Option Shutdown :=
  match s.watchers[watcher]? with
  | some w =>
    if w.stage = .sleeping then
      some { s with watchers := s.watchers.set watcher { w with stage := .looking } }
    else none
  | none => none

/-- A watcher notices in its sleep that it was given up. -/
def finish (s : Shutdown) (watcher : Nat) : Option Shutdown :=
  match s.watchers[watcher]? with
  | some w =>
    if w.stage = .sleeping ∧ w.givenUp then
      some { s with watchers := s.watchers.set watcher { w with stage := .ended } }
    else none
  | none => none

/-- Whether the scope of a watcher has ended. -/
def hasEnded (s : Shutdown) (watcher : Nat) : Bool :=
  match s.watchers[watcher]? with
  | some w => w.stage = .fired || w.stage = .ended
  | none => false

/-! ## What an owner can do -/

/-- A watcher, for as long as its owner keeps it. -/
def held? (s : Shutdown) (watcher : Nat) : Option Watcher :=
  s.watchers[watcher]?.filter (!·.givenUp)

/-- Whether a watcher has fired, if its owner still keeps it and so can ask. -/
def fired? (s : Shutdown) (watcher : Nat) : Option Bool :=
  (s.held? watcher).map fun _ => (Token.ofScope watcher).cancelled s.hasEnded

/-- Take a token from a watcher. -/
def takeToken (s : Shutdown) (watcher : Nat) : Option Shutdown :=
  (s.held? watcher).map fun _ => { s with tokens := s.tokens ++ [Token.ofScope watcher] }

/-- Copy a token, for which the watcher that it came from is not needed. -/
def copyToken (s : Shutdown) (token : Nat) : Option Shutdown :=
  s.tokens[token]?.map fun t => { s with tokens := s.tokens ++ [t] }

/-! ## Letting watchers go on -/

/-- Let a watcher look, if it is about to. -/
def letLook (s : Shutdown) (watcher : Nat) : Shutdown × List LogRecord :=
  (s.look watcher).getD (s, [])

/-- Let a watcher sleep to the end and look again. -/
def letWatch (s : Shutdown) (watcher : Nat) : Shutdown × List LogRecord :=
  let (s, records) := s.letLook watcher
  match s.wake watcher with
  | some s =>
    let (s, more) := s.letLook watcher
    (s, records ++ more)
  | none => (s, records)

/-- Give up a watcher that is kept, and wait until it is over. -/
def discard (s : Shutdown) (watcher : Nat) : Option (Shutdown × List LogRecord) :=
  (s.held? watcher).map fun _ =>
    let (s, records) := (s.giveUp watcher).letLook watcher
    ((s.finish watcher).getD s, records)

/-! ## Moves -/

/-- What can happen next. -/
inductive Move where
  | addHandler
  | cloneHandler (handler : Nat)
  | request (handler : Nat)
  | signal
  | watch (handler : Nat)
  | takeToken (watcher : Nat)
  | copyToken (token : Nat)
  | giveUp (watcher : Nat)
  | look (watcher : Nat)
  | wake (watcher : Nat)
  | finish (watcher : Nat)
  deriving DecidableEq, Repr

/-- The state after a move, if the move can be made.  Only a watcher that is kept can be given up. -/
def step (s : Shutdown) : Move → Option Shutdown
  | .addHandler => some s.addHandler
  | .cloneHandler h => if h < s.handlers.length then some (s.cloneHandler h) else none
  | .request h => if h < s.handlers.length then some (s.request h) else none
  | .signal => some s.signal
  | .watch h => if h < s.handlers.length then some (s.watch h) else none
  | .takeToken w => s.takeToken w
  | .copyToken t => s.copyToken t
  | .giveUp w => (s.held? w).map fun _ => s.giveUp w
  | .look w => (s.look w).map (·.1)
  | .wake w => s.wake w
  | .finish w => s.finish w

/-- The state after some moves, if they can be made one after the other. -/
def run (s : Shutdown) : List Move → Option Shutdown
  | [] => some s
  | m :: moves => (s.step m).bind (·.run moves)

end Shutdown
end TunnelBoard
