import TunnelBoard.Proofs.Loop.Core
/-
  What is written down along a run.

  `trace` goes along a run and collects what a function says of every move, in the state in which the
  move is made.  A statement about a whole run is one about its trace and its last state; it is proved
  from the first move to the last (`history_induction`), where each step adds one move at the end of the
  run (`run_snoc`) and what that move says at the end of the trace (`trace_snoc`).
-/

namespace TunnelBoard
namespace Loop

variable {α : Type} {l l₁ l₂ : Loop}

/-! ## Runs, from their end -/

/-- A run goes on where it was left. -/
theorem run_append (l : Loop) (ms ns : List Move) :
    l.run (ms ++ ns) = (l.run ms).bind (·.run ns) := by
  induction ms generalizing l with
  | nil => rfl
  | cons m ms ih =>
    show (l.step m).bind _ = ((l.step m).bind _).bind _
    rw [Option.bind_assoc]
    exact Option.bind_congr fun l' _ => ih l'

/-- A run goes on with one more move. -/
theorem run_snoc {ms : List Move} {m : Move} (h : l.run ms = some l₁) (hm : l₁.step m = some l₂) :
    l.run (ms ++ [m]) = some l₂ := by
  rw [run_append, h]
  show (l₁.step m).bind _ = _
  rw [hm]
  rfl

/-- What holds at the beginning and is kept by each further move holds of every run and its end. -/
theorem history_induction {P : List Move → Loop → Prop} (nil : P [] l)
    (snoc : ∀ ms l₁ m l₂, m.isProper → l.run ms = some l₁ → P ms l₁ → l₁.step m = some l₂ →
      P (ms ++ [m]) l₂) {moves : List Move} (hp : ∀ m ∈ moves, m.isProper)
    (hr : l.run moves = some l₁) : P moves l₁ := by
  -- the moves that are made already, and those that are still to come
  have hrest : ∀ rest ms l₂, (∀ m ∈ rest, m.isProper) → l.run ms = some l₂ → P ms l₂ →
      l₂.run rest = some l₁ → P (ms ++ rest) l₁ := by
    intro rest
    induction rest with
    | nil =>
      intro ms l₂ _ _ h hr
      cases hr
      rwa [List.append_nil]
    | cons m rest ih =>
      intro ms l₂ hp hms h hr
      obtain ⟨l₃, hm, hr⟩ := Option.bind_eq_some_iff.1 hr
      have hnext := snoc ms l₂ m l₃ (hp m List.mem_cons_self) hms h hm
      have hdone := ih (ms ++ [m]) l₃ (fun n hn => hp n (List.mem_cons_of_mem _ hn))
        (run_snoc hms hm) hnext hr
      rwa [List.append_assoc] at hdone
  exact hrest moves [] l hp rfl nil hr

/-! ## Traces -/

/-- What `f` says of the moves of a run, as far as they can be made. -/
def trace (f : Loop → Move → List α) : Loop → List Move → List α
  | _, [] => []
  | l, m :: ms =>
    f l m ++
      match l.step m with
      | some l' => trace f l' ms
      | none => []

/-- The trace of a run goes on where the run was left. -/
theorem trace_append (f : Loop → Move → List α) {ms : List Move} (h : l.run ms = some l₁)
    (ns : List Move) : trace f l (ms ++ ns) = trace f l ms ++ trace f l₁ ns := by
  induction ms generalizing l with
  | nil =>
    cases h
    rfl
  | cons m ms ih =>
    obtain ⟨l₂, hm, hrest⟩ := Option.bind_eq_some_iff.1 h
    simp only [List.cons_append, trace, hm, ih hrest, List.append_assoc]

/-- One more move adds what is said of it. -/
theorem trace_snoc (f : Loop → Move → List α) {ms : List Move} (h : l.run ms = some l₁) (m : Move) :
    trace f l (ms ++ [m]) = trace f l ms ++ f l₁ m := by
  rw [trace_append f h]
  have hone : trace f l₁ [m] = f l₁ m := by
    rw [trace]
    split
    · exact List.append_nil _
    · exact List.append_nil _
  rw [hone]

end Loop
end TunnelBoard
