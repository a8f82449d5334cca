import TunnelBoard.Proofs.Live.Runs
import TunnelBoard.Proofs.Loop.Outcome
import TunnelBoard.Proofs.Loop.Reports
/-
  A live session in the hands of its owner goes through dealings of an owner with a loop.

  `Dealings` say what an owner can come across who makes one call after the other while the loop goes on
  as it likes.  The owner of a live session does more than that: it has moves made from outside, hands in
  messages, waits, and calls are followed up with a patience that may run out.  Here all of this is shown
  to be acts of such dealings (`follows_of_served`), so that what is known of them (who meets the end of a
  session, what a reported failure is answered with) holds of the sessions that are run.

  The proof is a simulation.  `Follows` relates a live session to dealings that stand where it stands: the
  loop is the same, but for what was reported before it began, and a loop takes no notice of that.  What
  the session does to its loop is a run, whose moves the dealings can make as well (`Follows.leads`); a
  step of a call is the step of the call under way (`Follows.goOn`).  A call that is seen through is an
  induction on the patience that is left (`Follows.resume`), in which `Stands` says how far the call has come.
-/

namespace TunnelBoard

/-! ## Dealings that lead on -/

namespace Dealings

variable {d d' d₁ : Dealings} {past : List Exchange} {c : Call} {stage next : CallStage}

/-- Whether proper acts lead from some dealings to others. -/
def Leads (d d' : Dealings) : Prop := ∃ acts, (∀ a ∈ acts, a.isProper) ∧ d.run acts = some d'

/-- No move at all is a way to where the loop is. -/
theorem Leads.refl : d.Leads d := ⟨[], fun _ h => absurd h List.not_mem_nil, rfl⟩

/-- Ways of the owner can be joined. -/
theorem Leads.trans (h : d.Leads d₁) (h' : d₁.Leads d') : d.Leads d' := by
  obtain ⟨as, has, hrun⟩ := h
  obtain ⟨bs, hbs, hrun'⟩ := h'
  refine ⟨as ++ bs, fun a ha => (List.mem_append.1 ha).elim (has a) (hbs a), ?_⟩
  rw [run_append, hrun]
  exact hrun'

/-- One move is a way, when it is one that the owner or the loop may make. -/
theorem Leads.of_step {a : Act} (ha : a.isProper) (h : d.step a = some d') : d.Leads d' :=
  ⟨[a], fun _ hb => List.mem_singleton.1 hb ▸ ha, by rw [run, h]; rfl⟩

/-- How far the latest call has come, when the calls of `past` were answered before it. -/
def Stands (d : Dealings) (past : List Exchange) (c : Call) : CallStage → Prop
  | .answered a => d.current = none ∧ ∃ x, d.past = past ++ [x] ∧ x.call = c ∧ x.stage = .answered a
  | stage => d.past = past ∧ ∃ x, d.current = some x ∧ x.call = c ∧ x.stage = stage

/-- How far a call has come is a matter of what the dealings keep of the calls. -/
theorem Stands.congr (h : d.Stands past c stage) (hcurrent : d'.current = d.current)
    (hpast : d'.past = d.past) : d'.Stands past c stage := by
  cases stage with
  | answered | sending | reading | searching =>
    unfold Stands
    rw [hcurrent, hpast]
    exact h

/-- A call that is put where it belongs stands at its stage. -/
theorem stands_file (d : Dealings) (x : Exchange) : (d.file x).Stands d.past x.call x.stage := by
  unfold file
  cases hstage : x.stage with
  | answered a => exact ⟨rfl, x, rfl, rfl, hstage⟩
  | sending | reading | searching => exact ⟨rfl, x, rfl, rfl, hstage⟩

/-- A call that can take a step has no answer yet, and so is the one under way. -/
theorem Stands.current (h : d.Stands past c stage) (hopen : ∀ a, stage ≠ .answered a) :
    d.past = past ∧ ∃ x, d.current = some x ∧ x.call = c ∧ x.stage = stage := by
  cases stage with
  | answered a => exact absurd rfl (hopen a)
  | sending | reading | searching => exact h

/-- The call under way takes its next step. -/
theorem Stands.goOn (h : d.Stands past c stage) {l' : Loop}
    (hstep : d.loop.stepCall c stage = some (next, l')) :
    ∃ d', d.Leads d' ∧ d'.loop = l' ∧ d'.Stands past c next := by
  have hopen : ∀ a, stage ≠ .answered a := by
    rintro a rfl
    cases hstep
  obtain ⟨rfl, x, hx, rfl, rfl⟩ := h.current hopen
  have hgo : d.step .goOn = some ({ d with loop := l' }.file (x.advance next d.loop l')) := by
    rw [step, Dealings.goOn, hx, Option.bind_some, hstep]
    rfl
  refine ⟨_, .of_step rfl hgo, (file_frame _ _).1, ?_⟩
  exact stands_file { d with loop := l' } (x.advance next d.loop l')

/-- A call begins when no other one is under way. -/
theorem stands_begin (hnone : d.current = none) (c : Call) :
    ∃ d', d.Leads d' ∧ d'.loop = d.loop ∧ d'.Stands d.past c c.begin := by
  have hbegin : d.step (.begin c) = some { d with current := some (.begin c d.loop) } := by
    rw [step, hnone]
    rfl
  refine ⟨_, .of_step rfl hbegin, rfl, ?_⟩
  cases c with
  | waitMode | waitExit | activate | showFatal => exact ⟨rfl, _, rfl, rfl, rfl⟩

end Dealings

/-! ## The simulation

A session and dealings that stand at the same place may differ in what was reported before, and in
nothing else.  One operation of the session is some acts of the dealings: its own moves, a message
that is handed in, or a call from its beginning to its answer.  Calls are the only operation by which
events are taken, so all others leave the calls of the dealings as they are. -/

namespace LiveSession

variable {s s' : LiveSession} {d : Dealings} {past : List Exchange} {c : Call}

/-- Whether a live session stands where some dealings stand, but for what was reported before. -/
def Follows (s : LiveSession) (d : Dealings) : Prop := ∃ records, s.loop = d.loop.preceded records

/-- What the session does to its loop, the dealings can do as well, and no call notices. -/
theorem Follows.leads (h : s.Follows d) {p : Move → Prop} (hs : s.loop.Leads p s'.loop)
    (hp : ∀ m, p m → m.isProper ∧ m ≠ .takeEvent) :
    ∃ d', d.Leads d' ∧ d'.current = d.current ∧ d'.past = d.past ∧ s'.Follows d' := by
  obtain ⟨records, hloop⟩ := h
  obtain ⟨moves, hmoves, hrun⟩ := hs
  rw [hloop, Loop.run_preceded] at hrun
  obtain ⟨l', hl, hl'⟩ := Option.map_eq_some_iff.1 hrun
  have hquiet : .takeEvent ∉ moves := fun hmem => (hp _ (hmoves _ hmem)).2 rfl
  obtain ⟨d', hacts, hd, hcurrent, hpast⟩ := Dealings.run_moves hquiet hl
  refine ⟨d', ⟨moves.map .move, fun a ha => ?_, hacts⟩, hcurrent, hpast, records, ?_⟩
  · obtain ⟨m, hm, rfl⟩ := List.mem_map.1 ha
    exact (hp m (hmoves m hm)).1
  · rw [hd, hl']

/-- A session that settles is followed by dealings in which nobody calls meanwhile. -/
theorem Follows.settle (h : s.Follows d) :
    ∃ d', d.Leads d' ∧ d'.current = d.current ∧ d'.past = d.past ∧ s.settle.Follows d' :=
  h.leads s.leads_settle fun _ hm => Move.isProper_of_isPatient (Move.isPatient_of_isInner hm)

/-- A session that waits longer is followed by dealings in which nobody calls meanwhile, either. -/
theorem Follows.waitLonger (h : s.Follows d) :
    ∃ d', d.Leads d' ∧ d'.current = d.current ∧ d'.past = d.past ∧ s.waitLonger.Follows d' :=
  h.leads s.leads_waitLonger fun _ => Move.isProper_of_isPatient

/-- What a session may be asked to do from outside: anything proper, but events are taken by calls. -/
theorem Follows.act (h : s.Follows d) {moves : List Move}
    (hmoves : ∀ m ∈ moves, m.isProper ∧ m ≠ .takeEvent) :
    ∃ d', d.Leads d' ∧ d'.current = d.current ∧ d'.past = d.past ∧ (s.act moves).Follows d' := by
  refine h.leads (s.leads_act moves) fun m hm => ?_
  rcases hm with hinner | hmem
  · exact Move.isProper_of_isPatient (Move.isPatient_of_isInner hinner)
  · exact hmoves m hmem

/-- A message is handed in, and the session goes on. -/
theorem Follows.send (h : s.Follows d) {m : Message} (hm : m.isOutside) (hs : s.send m = .ok s') :
    ∃ d', d.Leads d' ∧ d'.current = d.current ∧ d'.past = d.past ∧ s'.Follows d' := by
  unfold LiveSession.send at hs
  cases hin : s.handIn m with
  | error e =>
    rw [hin] at hs
    cases hs
  | ok s₁ =>
    rw [hin] at hs
    cases hs
    have hone : s.loop.Leads (· = .receive m) s₁.loop := .of_step rfl (step_of_handIn hin)
    obtain ⟨d₁, hd₁, hcurrent₁, hpast₁, hfollows⟩ := h.leads hone (by
      rintro _ rfl
      exact ⟨hm, Move.noConfusion⟩)
    obtain ⟨d', hd', hcurrent, hpast, hfollows'⟩ := hfollows.settle
    exact ⟨d', hd₁.trans hd', hcurrent.trans hcurrent₁, hpast.trans hpast₁, hfollows'⟩

/-- A step of a call is the step of the call under way. -/
theorem Follows.goOn (h : s.Follows d) {stage next : CallStage} {l' : Loop}
    (hstands : d.Stands past c stage) (hstep : s.loop.stepCall c stage = some (next, l')) :
    ∃ d', d.Leads d' ∧ ({ s with loop := l' } : LiveSession).Follows d' ∧ d'.Stands past c next := by
  obtain ⟨records, hloop⟩ := h
  rw [hloop, Loop.stepCall_preceded] at hstep
  obtain ⟨⟨stage', l₁⟩, hone, heq⟩ := Option.map_eq_some_iff.1 hstep
  cases heq
  obtain ⟨d', hleads, rfl, hnext⟩ := hstands.goOn hone
  exact ⟨d', hleads, ⟨records, rfl⟩, hnext⟩

/-- **A call that is taken up** goes on to its answer, or to the end of its owner's patience.  In between
    the session goes on by itself, or time passes. -/
theorem Follows.resume_go (n : Nat) {s : LiveSession} {d : Dealings} {stage : CallStage}
    (h : s.Follows d) (hstands : d.Stands past c stage) :
    ∃ d' stage', d.Leads d' ∧ (resume.go c n s stage).2.Follows d' ∧ d'.Stands past c stage' ∧
      ∀ a, (resume.go c n s stage).1 = some a → stage' = .answered a := by
  induction n generalizing s d stage with
  | zero =>
    refine ⟨d, stage, .refl, ?_, hstands, ?_⟩
    · cases stage with
      | answered | sending | reading | searching => exact h
    · cases stage with
      | answered => exact fun a ha => congrArg _ (Option.some.inj ha)
      | sending | reading | searching => exact fun a ha => by cases ha
  | succ n ih =>
    cases hstep : s.loop.stepCall c stage with
    | some r =>
      -- the call takes a step, and the session goes on before the next one
      obtain ⟨next, l'⟩ := r
      have hgo : resume.go c (n + 1) s stage = resume.go c n { s with loop := l' }.settle next := by
        cases stage with
        | answered => cases hstep
        | sending | reading | searching => simp only [resume.go, hstep]
      obtain ⟨d₁, hd₁, hfollows₁, hstands₁⟩ := h.goOn hstands hstep
      obtain ⟨d₂, hd₂, hcurrent, hpast, hfollows₂⟩ := hfollows₁.settle
      obtain ⟨d', stage', hd', hfollows', hend⟩ := ih hfollows₂ (hstands₁.congr hcurrent hpast)
      rw [hgo]
      exact ⟨d', stage', (hd₁.trans hd₂).trans hd', hfollows', hend⟩
    | none =>
      by_cases hanswered : ∃ a, stage = .answered a
      · obtain ⟨a, rfl⟩ := hanswered
        exact ⟨d, _, .refl, h, hstands, fun b hb => congrArg _ (Option.some.inj hb)⟩
      · -- the call has to wait, so time passes
        have hgo : resume.go c (n + 1) s stage = resume.go c n s.waitLonger stage := by
          cases stage with
          | answered a => exact absurd ⟨a, rfl⟩ hanswered
          | sending | reading | searching => simp only [resume.go, hstep]
        obtain ⟨d₁, hd₁, hcurrent, hpast, hfollows₁⟩ := h.waitLonger
        obtain ⟨d', stage', hd', hfollows', hend⟩ := ih hfollows₁ (hstands.congr hcurrent hpast)
        rw [hgo]
        exact ⟨d', stage', hd₁.trans hd', hfollows', hend⟩

/-- The first step of a call, made when no other one is under way. -/
theorem Follows.beginCall (h : s.Follows d) (hnone : d.current = none) (c : Call) :
    ∃ d', d.Leads d' ∧ (s.beginCall c).2.Follows d' ∧ d'.Stands d.past c (s.beginCall c).1 := by
  obtain ⟨d₁, hd₁, hloop, hstands⟩ := Dealings.stands_begin hnone c
  have h₁ : s.Follows d₁ := by
    obtain ⟨records, hs⟩ := h
    exact ⟨records, by rw [hs, hloop]⟩
  unfold LiveSession.beginCall
  cases hstep : s.loop.stepCall c c.begin with
  | some r =>
    obtain ⟨d₂, hd₂, hfollows₂, hstands₂⟩ := h₁.goOn hstands hstep
    obtain ⟨d', hd', hcurrent, hpast, hfollows⟩ := hfollows₂.settle
    exact ⟨d', (hd₁.trans hd₂).trans hd', hfollows, hstands₂.congr hcurrent hpast⟩
  | none =>
    obtain ⟨d', hd', hcurrent, hpast, hfollows⟩ := h₁.settle
    exact ⟨d', hd₁.trans hd', hfollows, hstands.congr hcurrent hpast⟩

/-- A call that is answered is one that the dealings have behind them, with the same answer. -/
theorem Follows.call (h : s.Follows d) (hnone : d.current = none) {a : Answer}
    (hc : s.call c = (some a, s')) :
    ∃ d' x, d.Leads d' ∧ s'.Follows d' ∧ d'.current = none ∧ d'.past = d.past ++ [x] ∧ x.call = c ∧
      x.stage = .answered a := by
  obtain ⟨d₁, hd₁, hfollows₁, hstands₁⟩ := h.beginCall hnone c
  obtain ⟨d', stage', hd', hfollows', hstands', hanswer⟩ := hfollows₁.resume_go patience hstands₁
  have hanswered : (s.call c).1 = some a := by rw [hc]
  have hleft : (s.call c).2 = s' := by rw [hc]
  cases hanswer a hanswered
  obtain ⟨hcurrent, x, hpast, hcall, hstage⟩ := hstands'
  exact ⟨d', x, hd₁.trans hd', hleft ▸ hfollows', hcurrent, hpast, hcall, hstage⟩

/-! ## Sessions that are run

Here the operations are put together: `Served` is whatever can be made of a session from outside, and
by induction on it there are dealings that stand where the session stands. -/

/-- A live session that is started without a context stands where the dealings with its loop stand after
    some moves of the loop.  What was reported before is what the preferences were found to be, and that
    the session started. -/
theorem start_follows (o : SessionOptions) (deps : SessionDeps) (world : World)
    (hcontext : o.context = none) :
    ∃ d', (Dealings.start (Loop.start
        (Session.make o.config deps.store.loadOrStandard.1 deps.logSource o.size)
        EventQueue.standardCapacity deps.store world)).Leads d' ∧
      d'.exchanges = [] ∧ (start o deps world).Follows d' := by
  let loop := Loop.start (Session.make o.config deps.store.loadOrStandard.1 deps.logSource o.size)
    EventQueue.standardCapacity deps.store world
  let s₀ : LiveSession :=
    { loop := loop.report (deps.store.loadOrStandard.2 ++ [o.started])
      renderer := .empty o.colour
      output := if o.hasOutput then .writer [] none else .discard
      now := 0
      capture := deps.capture }
  have hstart : start o deps world = s₀.begin.settle := by
    unfold start
    rw [hcontext]
  -- the first records of the session stand before all that its loop will report
  have hreported : s₀.loop = loop.preceded (deps.store.loadOrStandard.2 ++ [o.started]) := by
    have hquiet : loop.log = [] := rfl
    show loop.report _ = _
    rw [Loop.report, Loop.preceded, hquiet, List.nil_append, List.append_nil]
  have hbefore : s₀.Follows (Dealings.start loop) := ⟨_, hreported⟩
  have hruns : s₀.loop.Leads (·.isInner) s₀.begin.settle.loop :=
    s₀.leads_begin.trans (leads_settle _)
  -- the moves by which it begins can be made in the dealings as well
  obtain ⟨d', hleads, hcurrent, hpast, hfollows⟩ := hbefore.leads hruns fun _ hm =>
    Move.isProper_of_isPatient (Move.isPatient_of_isInner hm)
  refine ⟨d', hleads, ?_, hstart ▸ hfollows⟩
  rw [Dealings.exchanges, hcurrent, hpast]
  rfl

/-- What an owner can make of a session, if each of its calls is answered before its patience is out. -/
inductive Served (s₀ : LiveSession) : LiveSession → Prop where
  | started : Served s₀ s₀
  | acted {s : LiveSession} {moves : List Move} (served : Served s₀ s)
      (proper : ∀ m ∈ moves, m.isProper ∧ m ≠ .takeEvent) : Served s₀ (s.act moves)
  | sent {s s' : LiveSession} {m : Message} (served : Served s₀ s) (outside : m.isOutside)
      (taken : s.send m = .ok s') : Served s₀ s'
  | waited {s : LiveSession} (served : Served s₀ s) : Served s₀ s.waitLonger
  | called {s s' : LiveSession} {c : Call} {a : Answer} (served : Served s₀ s)
      (answered : s.call c = (some a, s')) : Served s₀ s'

/-- **Whatever an owner makes of a live session** is what it can come across in its dealings with a loop
    that moves as it likes: there are proper acts, from the beginning of the loop, that lead to dealings in
    which no call is under way and which stand where the session stands. -/
theorem follows_of_served {o : SessionOptions} {deps : SessionDeps} {world : World}
    (hcontext : o.context = none) {s : LiveSession} (h : Served (start o deps world) s) :
    ∃ d', (Dealings.start (Loop.start
        (Session.make o.config deps.store.loadOrStandard.1 deps.logSource o.size)
        EventQueue.standardCapacity deps.store world)).Leads d' ∧
      d'.current = none ∧ s.Follows d' := by
  -- after each dealing the two stand at the same place again
  induction h with
  | started =>
    obtain ⟨d', hleads, hnone, hfollows⟩ := start_follows o deps world hcontext
    have hcurrent : d'.current.toList = [] := (List.append_eq_nil_iff.1 hnone).2
    exact ⟨d', hleads, Option.toList_eq_nil_iff.1 hcurrent, hfollows⟩
  | acted served proper ih =>
    obtain ⟨d, hd, hnone, hfollows⟩ := ih
    obtain ⟨d', hd', hcurrent, -, hfollows'⟩ := hfollows.act proper
    exact ⟨d', hd.trans hd', hcurrent.trans hnone, hfollows'⟩
  | sent served outside taken ih =>
    obtain ⟨d, hd, hnone, hfollows⟩ := ih
    obtain ⟨d', hd', hcurrent, -, hfollows'⟩ := hfollows.send outside taken
    exact ⟨d', hd.trans hd', hcurrent.trans hnone, hfollows'⟩
  | waited served ih =>
    obtain ⟨d, hd, hnone, hfollows⟩ := ih
    obtain ⟨d', hd', hcurrent, -, hfollows'⟩ := hfollows.waitLonger
    exact ⟨d', hd.trans hd', hcurrent.trans hnone, hfollows'⟩
  | called served answered ih =>
    obtain ⟨d, hd, hnone, hfollows⟩ := ih
    obtain ⟨d', x, hd', hfollows', hdone, -⟩ := hfollows.call hnone answered
    exact ⟨d', hd.trans hd', hdone, hfollows'⟩

/-- So what an owner makes of a live session keeps the order of the dealings: the end of the session is
    met by one call. -/
theorem inOrder_of_served {o : SessionOptions} {deps : SessionDeps} {world : World}
    (hcontext : o.context = none) {s : LiveSession} (h : Served (start o deps world) s) :
    ∃ d, d.InOrder ∧ d.current = none ∧ s.Follows d := by
  obtain ⟨d, ⟨acts, hacts, hrun⟩, hnone, hfollows⟩ := follows_of_served hcontext h
  exact ⟨d, (Dealings.inOrder_start _ _ _ _ _ _ _).run hacts hrun, hnone, hfollows⟩

end LiveSession
end TunnelBoard
