import TunnelBoard.Session.Basic
/-
  Runs of a session: its beginning, and any messages in any order after that.

  `after` is the state that messages lead to, `asked` the effects they asked for on the way.  What
  holds at the beginning and is kept by every message holds after all of them (`after_induction`).
-/

namespace TunnelBoard
namespace Session

/-- A session that has begun: it has been made, and its first effects have been asked for. -/
def begun (config : Config) (prefs : Preferences) (logs : LogSource) (size : TerminalSize) :
    Session := (make config prefs logs size).init.1

/-- The first effects of a session. -/
def opening (config : Config) (prefs : Preferences) (logs : LogSource) (size : TerminalSize) :
    List Effect := (make config prefs logs size).init.2.flatten

/-- The state after some messages. -/
def after (s : Session) : List Message → Session
  | [] => s
  | m :: ms => (s.update m).1.after ms

/-- The effects that some messages ask for, in order. -/
def asked (s : Session) : List Message → List Effect
  | [] => []
  | m :: ms => (s.update m).2.flatten ++ (s.update m).1.asked ms

/-- No message leads nowhere else. -/
@[simp] theorem after_nil (s : Session) : s.after [] = s := rfl

/-- The first of several messages is handled first. -/
@[simp] theorem after_cons (s : Session) (m : Message) (ms : List Message) :
    s.after (m :: ms) = (s.update m).1.after ms := rfl

/-- Messages that follow others find the state those have led to. -/
theorem after_append (s : Session) (ms ns : List Message) :
    s.after (ms ++ ns) = (s.after ms).after ns := by
  induction ms generalizing s with
  | nil => rfl
  | cons m ms ih => exact ih _

/-- What every message keeps, all messages keep. -/
theorem after_induction {P : Session → Prop} (step : ∀ s m, P s → P (s.update m).1) {s : Session}
    (h : P s) (ms : List Message) : P (s.after ms) := by
  induction ms generalizing s with
  | nil => exact h
  | cons m ms ih => exact ih (step s m h)

/-! ## A session that is over -/

/-- A session that is over answers nothing and stays as it is. -/
theorem update_of_terminated {s : Session} (h : s.terminated = true) (m : Message) :
    s.update m = (s, .none) := by
  unfold update
  rw [if_pos h]

/-- A session that is over stays as it is, however many messages come. -/
theorem after_of_terminated {s : Session} (h : s.terminated = true) (ms : List Message) :
    s.after ms = s := by
  induction ms with
  | nil => rfl
  | cons m ms ih => rw [after_cons, update_of_terminated h]; exact ih

/-- A session that goes on has gone on all the time. -/
theorem not_terminated_of_update {s : Session} {m : Message}
    (h : (s.update m).1.terminated = false) : s.terminated = false := by
  cases ht : s.terminated with
  | false => rfl
  | true =>
    rw [update_of_terminated ht] at h
    exact absurd (ht.symm.trans h) (by decide)

/-- What every message keeps for as long as the session goes on holds for as long as it does. -/
theorem after_induction_of_live {P : Session → Prop}
    (step : ∀ s m, P s → (s.update m).1.terminated = false → P (s.update m).1) {s : Session}
    (h : s.terminated = false → P s) (ms : List Message) :
    (s.after ms).terminated = false → P (s.after ms) := by
  refine after_induction (P := fun s => s.terminated = false → P s) (fun s m hs ht => ?_) h ms
  exact step s m (hs (not_terminated_of_update ht)) ht

end Session
end TunnelBoard
