import TunnelBoard.Scope.Token
/-
  Owners of scopes, and the tokens they give out.

  The owner of a scope holds the sending side of a channel through which nothing is ever sent.  To cancel
  the scope is to give this side up; an owner that is dropped gives it up with itself.  The scope has ended
  when nobody holds the sending side any more, and that is all its tokens look at.
-/

namespace TunnelBoard

/-- The owner of a scope. -/
structure Canceller where
  /-- Whether it still holds the sending side. -/
  holdsSender : Bool
  deriving DecidableEq, Repr

/-- All the owners made so far, of which some have been dropped, and all the tokens. -/
structure Cancellers where
  owners : List (Option Canceller)
  tokens : List (Token Nat)
  deriving DecidableEq, Repr

/-- What can be done with owners and tokens, which are numbered in the order in which they came up. -/
inductive CancellerMove where
  | make
  | token (c : Nat)
  | never
  | merge (a b : Nat)
  | cancel (c : Nat)
  | drop (c : Nat)
  deriving DecidableEq, Repr

namespace Cancellers

def empty : Cancellers := ⟨[], []⟩

/-- An owner that has not been dropped. -/
def owner? (s : Cancellers) (c : Nat) : Option Canceller := (s.owners[c]?).join

/-- Whether a scope has ended: it was made, and nobody holds its sending side. -/
def hasEnded (s : Cancellers) (c : Nat) : Bool :=
  match s.owners[c]? with
  | none => false
  | some none => true
  | some (some owner) => !owner.holdsSender

def withToken (s : Cancellers) (t : Token Nat) : Cancellers := { s with tokens := s.tokens ++ [t] }

/-- One move.  There is none by an owner that has been dropped, or with what is not there. -/
def move (s : Cancellers) : CancellerMove → Option Cancellers
  | .make => some { s with owners := s.owners ++ [some ⟨true⟩] }
  | .token c => (s.owner? c).map fun _ => s.withToken (Token.ofScope c)
  | .never => some (s.withToken Token.never)
  | .merge a b => do
    let first ← s.tokens[a]?
    let second ← s.tokens[b]?
    pure (s.withToken (first.merge second))
  | .cancel c => (s.owner? c).map fun _ => { s with owners := s.owners.set c (some ⟨false⟩) }
  | .drop c => (s.owner? c).map fun _ => { s with owners := s.owners.set c none }

/-- Some moves, one after the other. -/
def run (moves : List CancellerMove) : Option Cancellers := moves.foldlM move empty

end Cancellers
end TunnelBoard
