/-
  Remembered values of a function.

  `Memo.get` looks a key up and computes its value only if it is not there yet.  `Holds f` says
  that every remembered value is the one `f` would compute; then looking up is the same as
  computing, whatever was asked before.
-/

namespace TunnelBoard

/-- Keys with the value computed for each. -/
structure Memo (κ ν : Type) where
  entries : List (κ × ν)
  deriving Repr

namespace Memo

variable {κ ν : Type} [DecidableEq κ]

def empty : Memo κ ν := ⟨[]⟩

/-- The number of keys with a remembered value. -/
def size (m : Memo κ ν) : Nat := m.entries.length

/-- The remembered value of a key. -/
def find? (m : Memo κ ν) (key : κ) : Option ν := m.entries.lookup key

/-- The value of a key, remembered or computed, and the memo that remembers it. -/
def get (m : Memo κ ν) (key : κ) (compute : κ → ν) : ν × Memo κ ν :=
  match m.find? key with
  | some value => (value, m)
  | none => (compute key, ⟨m.entries ++ [(key, compute key)]⟩)

/-- Every remembered value is the one `f` computes. -/
def Holds (m : Memo κ ν) (f : κ → ν) : Prop := ∀ e ∈ m.entries, e.2 = f e.1

omit [DecidableEq κ] in
theorem holds_empty (f : κ → ν) : (empty : Memo κ ν).Holds f := by simp [Holds, empty]

theorem eq_of_lookup {f : κ → ν} {key : κ} {value : ν} :
    ∀ {entries : List (κ × ν)}, (∀ e ∈ entries, e.2 = f e.1) → entries.lookup key = some value →
      value = f key
  | [], _, hv => by simp at hv
  | e :: es, h, hv => by
    rw [List.lookup_cons] at hv
    split at hv
    · rename_i heq
      have : key = e.1 := by simpa using heq
      cases hv
      rw [this]
      exact h e (by simp)
    · exact eq_of_lookup (fun e' he' => h e' (by simp [he'])) hv

/-- Looking up gives what computing would give. -/
theorem get_fst {m : Memo κ ν} {f : κ → ν} (h : m.Holds f) (key : κ) : (m.get key f).1 = f key := by
  unfold get
  split
  · rename_i hf
    exact eq_of_lookup h hf
  · rfl

/-- Looking up keeps every remembered value right. -/
theorem holds_get {m : Memo κ ν} {f : κ → ν} (h : m.Holds f) (key : κ) :
    (m.get key f).2.Holds f := by
  unfold get
  split
  · exact h
  · intro e he
    rcases List.mem_append.1 he with he | he
    · exact h e he
    · simp only [List.mem_singleton] at he
      simp [he]

end Memo
end TunnelBoard
