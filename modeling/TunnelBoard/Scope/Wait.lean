import TunnelBoard.Scope.Token
/-
  Waiting under a token: for time to pass, for a value, for one of two tokens.

  A wait that could go on in more than one way at once may take any of them, so each wait is given
  by the list of its possible outcomes.  No outcome means that the wait has to go on.
-/

namespace TunnelBoard

/-- A queue of values with a sending side that can be closed. -/
structure Channel (α : Type) where
  values : List α
  closed : Bool
  deriving Repr

namespace Channel

variable {α : Type}

/-- An open channel with nothing in it. -/
def empty : Channel α := ⟨[], false⟩

def send (c : Channel α) (a : α) : Channel α := if c.closed then c else { c with values := c.values ++ [a] }

/-- No more values will be sent. -/
def close (c : Channel α) : Channel α := { c with closed := true }

end Channel

/-- How waiting for a value under a token can end. -/
inductive Received (α : Type) where
  /-- The oldest value, with the channel without it. -/
  | ready (value : α) (rest : Channel α)
  /-- A scope of the token has ended. -/
  | cancelled
  /-- The channel is empty and closed. -/
  | closed

/-! ## Choosing among operations -/

/-- The positions of the operations that can go ahead.  A wait for several operations takes any of
    these, and goes on if there is none. -/
def ready : List Bool → List Nat
  | [] => []
  | able :: rest => (if able then [0] else []) ++ (ready rest).map (· + 1)

/-- Whether the operation that is taken stands before position `n`: the possible answers. -/
def standsBefore (n : Nat) (able : List Bool) : List Bool :=
  ((ready able).map fun i => decide (i < n)).eraseDups

namespace Channel

variable {α : Type}

/-- Whether a receiver need not wait. -/
def isReadable (c : Channel α) : Bool := !c.values.isEmpty || c.closed

end Channel

namespace Token

variable {σ α : Type}

/-- What the channel has to offer to a receiver. -/
def offered (c : Channel α) : List (Received α) :=
  match c.values with
  | a :: rest => [.ready a { c with values := rest }]
  | [] => if c.closed then [.closed] else []

/-- Waiting for a value: the scopes of the token come first, the channel stands last. -/
def receive (ended : σ → Bool) (t : Token σ) (c : Channel α) : List (Received α) :=
  (standsBefore t.scopes.length (t.scopes.map ended ++ [c.isReadable])).flatMap fun isScope =>
    if isScope then [.cancelled] else offered c

/-- Waiting for either of two tokens; `true` means the first.  Without any scope there is one operation
    that never comes. -/
def race (ended : σ → Bool) (a b : Token σ) : List Bool :=
  let scopes := a.scopes ++ b.scopes
  standsBefore a.scopes.length (if scopes.isEmpty then [false] else scopes.map ended)

/-- Sleeping for a while, at the beginning and the end of which the scopes `before` and `after` have
    ended: whether the whole time passed.  If a scope ends meanwhile, it may do so at the last moment. -/
def sleepThrough (before after : σ → Bool) (t : Token σ) : List Bool :=
  if t.scopes.isEmpty then [true]
  else if !(ready (t.scopes.map before)).isEmpty then [false]
  else if !(ready (t.scopes.map after)).isEmpty then [false, true]
  else [true]

/-- Sleeping for a while in which no scope ends: whether the whole time passed. -/
def sleep (ended : σ → Bool) (t : Token σ) : Bool := t.sleepThrough ended ended = [true]

end Token
end TunnelBoard
