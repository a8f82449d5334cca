/-
  Stop tokens.

  A scope is a stretch of work that can be ended: a session, one run of the data plane, one visit
  to a screen.  A token watches some scopes and is cancelled as soon as one of them has ended, for
  whatever reason: ended on purpose or given up by its owner.  Scopes are told apart by a name of
  type `σ`.
-/

namespace TunnelBoard

/-- The scopes that a wait watches. -/
structure Token (σ : Type) where
  scopes : List σ
  deriving DecidableEq, Repr

namespace Token

variable {σ : Type}

/-- A token that is never cancelled. -/
def never : Token σ := ⟨[]⟩

/-- A token for one scope. -/
def ofScope (s : σ) : Token σ := ⟨[s]⟩

/-- A token that watches the scopes of both. -/
def merge (a b : Token σ) : Token σ := ⟨a.scopes ++ b.scopes⟩

/-- Whether one of the scopes has ended. -/
def cancelled (ended : σ → Bool) (t : Token σ) : Bool := t.scopes.any ended

@[simp] theorem cancelled_never (ended : σ → Bool) : (never : Token σ).cancelled ended = false := rfl

@[simp] theorem cancelled_ofScope (ended : σ → Bool) (s : σ) :
    (ofScope s).cancelled ended = ended s := by simp [ofScope, cancelled]

@[simp] theorem cancelled_merge (ended : σ → Bool) (a b : Token σ) :
    (a.merge b).cancelled ended = (a.cancelled ended || b.cancelled ended) := by
  simp [merge, cancelled]

/-- A token stays cancelled while more scopes end. -/
theorem cancelled_mono {ended ended' : σ → Bool} (h : ∀ s, ended s = true → ended' s = true)
    (t : Token σ) : t.cancelled ended = true → t.cancelled ended' = true := by
  simp only [cancelled, List.any_eq_true]
  rintro ⟨s, hs, he⟩
  exact ⟨s, hs, h s he⟩

end Token
end TunnelBoard
