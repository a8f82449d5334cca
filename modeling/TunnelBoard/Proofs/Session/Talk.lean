import Mathlib.Computability.Language
import Mathlib.Order.CompletePartialOrder
import TunnelBoard.Session.Event
/-
  What a session and its owner may say to each other, and in which order.

  A history is a list of marks: the events that the session emits, and, of what the owner says, the
  two things that the events hang on, an activation that is taken and a failure that is shown.  `Talk`
  is the machine that allows histories: five states, and for every mark the state after it or nothing.

  From the machine, and without any look at a session, we read off

  1. the language of the events alone (`mem_conversation_of_follow`): rounds of a choice, any number of
     disconnections and the wish to choose again, then perhaps an unfinished round, then perhaps an end;
  2. that a choice is not repeated before the wish to choose again (`reconfigure_mem_of_follow`);
  3. that between two activations the session parts with a data plane at most once
     (`countP_isParting_le_one`);
  4. that after a failure is shown only the end is told (`isTerminal_of_follow_failed`).

  All four are inductions on the history with the state generalised; the last three say what a stretch
  of a history is like that starts in a given state.
-/

namespace TunnelBoard

inductive Mark where
  /-- An activation is taken. -/
  | activated
  /-- A failure is shown to the operator. -/
  | fatalShown
  | emitted (e : Event)
  deriving DecidableEq, Repr

namespace Mark

def event? : Mark → Option Event
  | emitted e => some e
  | activated | fatalShown => none

/-- Whether the session parts with a data plane, for whatever reason it goes on after that. -/
def isParting : Mark → Bool
  | emitted .runtimeDisconnected | emitted .reconfigure => true
  | _ => false

end Mark

/-- How far a talk has come. -/
inductive Talk where
  /-- A mode is picked. -/
  | choosing
  /-- The owner starts a data plane. -/
  | starting
  | running
  /-- A failure is shown. -/
  | failed
  | ended
  deriving DecidableEq, Repr

namespace Talk

/-- The state after a mark, if the mark is allowed. -/
def next : Talk → Mark → Option Talk
  | ended, _ => none
  | _, .fatalShown => some failed
  | _, .emitted .exit => some ended
  | _, .emitted (.error _) => some ended
  | choosing, .emitted (.modeSelected _) => some starting
  | starting, .activated => some running
  | running, .emitted .runtimeDisconnected => some starting
  | running, .emitted .reconfigure => some choosing
  | _, _ => none

/-- The state after some marks, if all of them are allowed. -/
def follow : Talk → List Mark → Option Talk
  | t, [] => some t
  | t, m :: ms => (t.next m).bind (·.follow ms)

/-- Marks are allowed if the first one is, and the others in the state after it. -/
theorem follow_cons_eq_some {t t' : Talk} {m : Mark} {ms : List Mark} :
    t.follow (m :: ms) = some t' ↔ ∃ u, t.next m = some u ∧ u.follow ms = some t' :=
  Option.bind_eq_some_iff

/-- Histories can be taken apart where one likes. -/
theorem follow_append_eq_some {t t' : Talk} {ms ns : List Mark} :
    t.follow (ms ++ ns) = some t' ↔ ∃ u, t.follow ms = some u ∧ u.follow ns = some t' := by
  induction ms generalizing t with
  | nil => exact ⟨fun h => ⟨t, rfl, h⟩, fun ⟨u, hu, h⟩ => by cases hu; exact h⟩
  | cons m ms ih =>
    rw [List.cons_append, follow_cons_eq_some]
    constructor
    · rintro ⟨u, hm, h⟩
      obtain ⟨v, hv, hn⟩ := ih.1 h
      exact ⟨v, follow_cons_eq_some.2 ⟨u, hm, hv⟩, hn⟩
    · rintro ⟨v, hv, hn⟩
      obtain ⟨u, hm, h⟩ := follow_cons_eq_some.1 hv
      exact ⟨u, hm, ih.2 ⟨v, h, hn⟩⟩

/-! ## The language of the events

A conversation is some complete rounds, perhaps one that was not completed, and at most one word for
the end.  What may have been told is given for each state of the talk, so that a mark need only be
followed from one state to the next. -/

open Computability

/-- One word for each mode. -/
def choice : Language Event := {w | ∃ mode, w = [.modeSelected mode]}

def disconnection : Language Event := {[.runtimeDisconnected]}

def wish : Language Event := {[.reconfigure]}

/-- One word for each way to end. -/
def ending : Language Event := {w | ∃ e : Event, e.isTerminal ∧ w = [e]}

/-- Complete rounds. -/
def rounds : Language Event := (choice * disconnection∗ * wish)∗

/-- Everything that may be told in a session. -/
def conversation : Language Event := rounds * (1 + choice * disconnection∗) * (1 + ending)

/-- What may have been told when the talk has come to a state. -/
def told : Talk → Language Event
  | choosing => rounds
  | starting | running => rounds * (choice * disconnection∗)
  | failed => rounds * (1 + choice * disconnection∗)
  | ended => conversation

/-- Whatever the state is, what has been told is some rounds and perhaps an unfinished one, or all is
    over. -/
theorem told_le (t : Talk) (h : t ≠ ended) : t.told ≤ rounds * (1 + choice * disconnection∗) := by
  have hnone : rounds ≤ rounds * (1 + choice * disconnection∗) := by
    intro w hw
    rw [← List.append_nil w]
    exact Language.append_mem_mul hw (Or.inl Language.nil_mem_one)
  have hsome : rounds * (choice * disconnection∗) ≤ rounds * (1 + choice * disconnection∗) :=
    mul_le_mul_right (le_sup_right) _
  cases t with
  | choosing => exact hnone
  | starting | running => exact hsome
  | failed => exact le_refl _
  | ended => exact absurd rfl h

/-- Whatever has been told at some point is a conversation, finished or not. -/
theorem mem_conversation_of_mem_told {t : Talk} {w : List Event} (h : w ∈ t.told) :
    w ∈ conversation := by
  by_cases ht : t = ended
  · rw [ht] at h
    exact h
  · rw [← List.append_nil w]
    exact Language.append_mem_mul (told_le t ht h) (Or.inl Language.nil_mem_one)

/-- A mark that is allowed may be told after all that has been told. -/
theorem mem_told_of_next {t u : Talk} {m : Mark} (hm : t.next m = some u) {w : List Event}
    (hw : w ∈ t.told) : w ++ m.event?.toList ∈ u.told := by
  cases m with
  | activated =>
    cases t with
    | starting =>
      -- an activation is no event, and the data plane has not parted yet
      cases hm
      exact (List.append_nil w).symm ▸ hw
    | choosing | running | failed | ended => exact nomatch hm
  | fatalShown =>
    have hfailed : t ≠ ended → w ++ Mark.fatalShown.event?.toList ∈ failed.told := fun ht =>
      (List.append_nil w).symm ▸ told_le t ht hw
    cases t with
    | choosing | starting | running | failed => cases hm; exact hfailed (nomatch ·)
    | ended => exact nomatch hm
  | emitted e =>
    -- the end may be told wherever the talk is, unless it is over
    have hending : e.isTerminal → t ≠ ended → u = ended → w ++ [e] ∈ u.told := by
      intro he ht hu
      rw [hu]
      exact Language.append_mem_mul (told_le t ht hw) (Or.inr ⟨e, he, rfl⟩)
    cases t with
    | choosing =>
      cases e with
      | modeSelected mode =>
        cases hm
        have hround : [Event.modeSelected mode] ++ [] ∈ choice * disconnection∗ :=
          Language.append_mem_mul ⟨mode, rfl⟩ (Language.nil_mem_kstar _)
        exact Language.append_mem_mul hw hround
      | exit | error => cases hm; exact hending rfl (nomatch ·) rfl
      | reconfigure | runtimeDisconnected => exact nomatch hm
    | starting =>
      cases e with
      | exit | error => cases hm; exact hending rfl (nomatch ·) rfl
      | modeSelected | reconfigure | runtimeDisconnected => exact nomatch hm
    | running =>
      obtain ⟨a, ha, b, hb, rfl⟩ := Language.mem_mul.1 hw
      cases e with
      | runtimeDisconnected =>
        -- one more disconnection within the round
        cases hm
        obtain ⟨c, hc, d, hd, rfl⟩ := Language.mem_mul.1 hb
        have hstar : d ++ [.runtimeDisconnected] ∈ disconnection∗ :=
          kstar_mul_le_kstar (a := disconnection) (Language.append_mem_mul hd rfl)
        rw [List.append_assoc, List.append_assoc]
        exact Language.append_mem_mul ha (Language.append_mem_mul hc hstar)
      | reconfigure =>
        -- the wish closes the round
        cases hm
        have hround : b ++ [.reconfigure] ∈ choice * disconnection∗ * wish :=
          Language.append_mem_mul hb rfl
        rw [List.append_assoc]
        exact kstar_mul_le_kstar (a := choice * disconnection∗ * wish)
          (Language.append_mem_mul ha hround)
      | exit | error => cases hm; exact hending rfl (nomatch ·) rfl
      | modeSelected => exact nomatch hm
    | failed =>
      cases e with
      | exit | error => cases hm; exact hending rfl (nomatch ·) rfl
      | modeSelected | reconfigure | runtimeDisconnected => exact nomatch hm
    | ended => exact nomatch hm

/-- Marks that are allowed may be told after all that has been told. -/
theorem mem_told_of_follow {t u : Talk} {h : List Mark} (hf : t.follow h = some u) {w : List Event}
    (hw : w ∈ t.told) : w ++ h.filterMap Mark.event? ∈ u.told := by
  induction h generalizing t w with
  | nil =>
    cases hf
    rw [List.filterMap_nil, List.append_nil]
    exact hw
  | cons m h ih =>
    obtain ⟨v, hm, hf⟩ := follow_cons_eq_some.1 hf
    have htold := ih hf (mem_told_of_next hm hw)
    rw [List.append_assoc] at htold
    rw [List.filterMap_cons]
    cases hm : m.event? with
    | none => rwa [hm] at htold
    | some e => rwa [hm] at htold

/-- The events of every allowed history are a conversation. -/
theorem mem_conversation_of_follow {t : Talk} {h : List Mark} (hf : choosing.follow h = some t) :
    h.filterMap Mark.event? ∈ conversation :=
  mem_conversation_of_mem_told (mem_told_of_follow hf (Language.nil_mem_kstar _))

/-! ## Stretches of a history

What is said about the marks between two places of a history is shown by following the talk over those
marks, for some of its states can only be reached again by a certain mark, and some not at all. -/

/-- Only the wish to choose again leads to the choice. -/
theorem eq_reconfigure_of_next {t : Talk} {m : Mark} (h : t.next m = some choosing) :
    m = .emitted .reconfigure := by
  cases m with
  | activated | fatalShown =>
    cases t with
    | choosing | starting | running | failed | ended => exact nomatch h
  | emitted e =>
    cases e with
    | reconfigure => rfl
    | modeSelected | runtimeDisconnected | exit | error =>
      cases t with
      | choosing | starting | running | failed | ended => exact nomatch h

/-- From any other state than the choice, a mode is picked again only after the wish for it. -/
theorem not_mem_of_follow {t u : Talk} {h : List Mark} (hf : t.follow h = some u)
    (ht : t ≠ choosing) (hw : .emitted .reconfigure ∉ h) (mode : Mode) :
    .emitted (.modeSelected mode) ∉ h := by
  induction h generalizing t with
  | nil => exact List.not_mem_nil
  | cons m h ih =>
    obtain ⟨v, hm, hf⟩ := follow_cons_eq_some.1 hf
    rw [List.mem_cons, not_or] at hw ⊢
    -- the mark leads not to the choice, and is none itself
    have hv : v ≠ choosing ∧ .emitted (.modeSelected mode) ≠ m := by
      constructor
      · rintro rfl
        exact hw.1 (eq_reconfigure_of_next hm).symm
      · rintro rfl
        cases t with
        | choosing => exact ht rfl
        | starting | running | failed | ended => exact nomatch hm
    exact ⟨hv.2, ih hf hv.1 hw.2⟩

/-- Between two choices there is the wish to choose again. -/
theorem reconfigure_mem_of_follow {t u : Talk} {before between rest : List Mark} {mode mode' : Mode}
    (hf : t.follow (before ++ .emitted (.modeSelected mode) :: between ++
      .emitted (.modeSelected mode') :: rest) = some u) : .emitted .reconfigure ∈ between := by
  rw [List.append_assoc, List.cons_append] at hf
  obtain ⟨v, -, hf⟩ := follow_append_eq_some.1 hf
  obtain ⟨x, hx, hf⟩ := follow_cons_eq_some.1 hf
  have hstarting : x = starting := by
    cases v with
    | choosing => cases hx; rfl
    | starting | running | failed | ended => exact nomatch hx
  by_contra hw
  -- up to the second choice there would be no wish, yet a mode would be picked
  have hrun : ∃ y, x.follow (between ++ [.emitted (.modeSelected mode')]) = some y := by
    rw [List.append_cons] at hf
    obtain ⟨y, hy, -⟩ := follow_append_eq_some.1 hf
    exact ⟨y, hy⟩
  obtain ⟨y, hy⟩ := hrun
  refine not_mem_of_follow hy (by rw [hstarting]; exact (nomatch ·)) ?_ mode' ?_
  · rw [List.mem_append, List.mem_singleton]
    rintro (h | h)
    · exact hw h
    · exact nomatch h
  · exact List.mem_append_right _ (List.mem_singleton.2 rfl)

/-- Until the next activation the session parts with a data plane once at most, and only with one that
    runs. -/
theorem countP_isParting_le {t u : Talk} {h : List Mark} (hf : t.follow h = some u)
    (ha : .activated ∉ h) : h.countP Mark.isParting ≤ if t = running then 1 else 0 := by
  induction h generalizing t with
  | nil => exact Nat.zero_le _
  | cons m h ih =>
    obtain ⟨v, hm, hf⟩ := follow_cons_eq_some.1 hf
    rw [List.mem_cons, not_or] at ha
    have hrest := ih hf ha.2
    rw [List.countP_cons]
    -- a parting leaves the state of a running data plane, and only an activation leads back
    have hstep : (if m.isParting then 1 else 0) + (if v = running then 1 else 0) ≤
        if t = running then 1 else 0 := by
      cases m with
      | activated => exact absurd rfl ha.1
      | fatalShown =>
        cases t with
        | choosing | starting | running | failed => cases hm; exact Nat.zero_le _
        | ended => exact nomatch hm
      | emitted e =>
        cases e with
        | runtimeDisconnected | reconfigure =>
          cases t with
          | running => cases hm; exact Nat.le_refl _
          | choosing | starting | failed | ended => exact nomatch hm
        | modeSelected =>
          cases t with
          | choosing => cases hm; exact Nat.zero_le _
          | starting | running | failed | ended => exact nomatch hm
        | exit | error =>
          cases t with
          | choosing | starting | running | failed => cases hm; exact Nat.zero_le _
          | ended => exact nomatch hm
    omega

/-- Between two activations the session parts with a data plane once at most. -/
theorem countP_isParting_le_one {t u : Talk} {before between rest : List Mark}
    (hf : t.follow (before ++ between ++ rest) = some u) (ha : .activated ∉ between) :
    between.countP Mark.isParting ≤ 1 := by
  rw [List.append_assoc] at hf
  obtain ⟨v, -, hf⟩ := follow_append_eq_some.1 hf
  obtain ⟨x, hx, -⟩ := follow_append_eq_some.1 hf
  have hle := countP_isParting_le hx ha
  split at hle
  · exact hle
  · omega

/-- After a failure is shown nothing but the end is told. -/
theorem isTerminal_of_follow_failed {u : Talk} {h : List Mark} {e : Event} (he : .emitted e ∈ h)
    (hf : failed.follow h = some u) : e.isTerminal := by
  induction h with
  | nil => exact absurd he List.not_mem_nil
  | cons m h ih =>
    obtain ⟨v, hm, hf⟩ := follow_cons_eq_some.1 hf
    rcases List.mem_cons.1 he with rfl | he
    · cases e with
      | exit | error => rfl
      | modeSelected | reconfigure | runtimeDisconnected => exact nomatch hm
    · -- the talk still shows the failure, or it is over and nothing follows
      cases v with
      | failed => exact ih he hf
      | ended =>
        cases h with
        | nil => exact absurd he List.not_mem_nil
        | cons m' h => exact nomatch hf
      | choosing | starting | running =>
        cases m with
        | activated | fatalShown => exact nomatch hm
        | emitted e' =>
          cases e' with
          | exit | error | modeSelected | reconfigure | runtimeDisconnected => exact nomatch hm

/-- What is told after a failure is shown ends the session. -/
theorem isTerminal_of_follow {t u : Talk} {before rest : List Mark} {e : Event}
    (hf : t.follow (before ++ .fatalShown :: rest) = some u) (he : .emitted e ∈ rest) :
    e.isTerminal := by
  obtain ⟨v, -, hf⟩ := follow_append_eq_some.1 hf
  obtain ⟨x, hx, hf⟩ := follow_cons_eq_some.1 hf
  have hfailed : x = failed := by
    cases v with
    | choosing | starting | running | failed => cases hx; rfl
    | ended => exact nomatch hx
  exact isTerminal_of_follow_failed he (hfailed ▸ hf)

end Talk
end TunnelBoard
