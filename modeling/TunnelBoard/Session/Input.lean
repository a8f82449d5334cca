import TunnelBoard.Log.Record
import TunnelBoard.Session.Message
/-
  Input from the terminal, on its way to the session.

  The terminal is asked again and again until the session is over or the terminal fails.  Keys that
  are let go and everything that is neither a key nor a new size is left out.
-/

namespace TunnelBoard

/-- What the terminal answers when it is asked once. -/
inductive Poll where
  /-- Nothing came in for a while. -/
  | quiet
  | key (k : Key)
  | resize (size : TerminalSize)
  /-- Something of no use to the session. -/
  | other
  | pollFailed (cause : Text)
  | readFailed (cause : Text)
  deriving DecidableEq, Repr

namespace Poll

/-- The message for an answer. -/
def message? : Poll → Option Message
  | key k => if k.kind = .release then none else some (.key k)
  | resize size => some (.resize size)
  | _ => none

/-- The report of an answer that ends the asking. -/
def failure? : Poll → Option LogRecord
  | pollFailed cause =>
    some (logRecord .warn "terminal input poll failed" [shownField "error" cause])
  | readFailed cause =>
    some (logRecord .warn "terminal input read failed" [shownField "error" cause])
  | _ => none

end Poll

/-- What is reported when the asking is over. -/
def inputStopped : LogRecord := logRecord .debug "input thread stopped" []

/-- The messages for the answers that came before the session was over, and what was reported. -/
def forwardInput : List Poll → List Message × List LogRecord
  | [] => ([], [inputStopped])
  | p :: rest =>
    match p.failure? with
    | some record => ([], [record, inputStopped])
    | none =>
      let (messages, records) := forwardInput rest
      (p.message?.toList ++ messages, records)

/-- The answer of a terminal that is not there. -/
def Poll.noTerminal : Poll := .pollFailed "Failed to initialize input reader".toList

end TunnelBoard
