import TunnelBoard.Proofs.Monitor.Consistent
import TunnelBoard.Proofs.Monitor.Tasks
import TunnelBoard.Proofs.Session.Flatten
/-
  The two chains of a monitor: ticks on the screen of the data plane, waits for lines on that of the
  logs.

  Both work alike.  A chain belongs to a screen, its home, and has a number.  A round of a chain asks
  for what the screen is to show and starts the wait that leads to the next round (`Monitor.round`).
  The number is given up when home is left and a new one is taken when it is entered, so numbers only
  grow (`number_switchScreen`), and a round carries the current one (`links_round`).

  What a round consists of is said once (`round_cases`, and effect by effect `InRound`), and
  everything else that is said of rounds is read off the list: their numbers, their tokens, and what
  they ask for.  A timer whose number or screen is out of date leads to nothing
  (`handleResult_timer`), which is what keeps one chain from running twice.

  The scopes of a monitor are numbered in the same way (`Scoped`).  A visit ends with its number, and
  the activation with the monitor.
-/

namespace TunnelBoard

/-- The ticks of the data plane's screen, and the waits for lines of the log. -/
inductive Chain where
  | ticks | logs
  deriving DecidableEq, Repr

/-- The number of an activation, and a number of a chain within it. -/
abbrev Link := Nat × Nat

namespace Chain

/-- The screen that a chain keeps fresh. -/
def home : Chain → Screen
  | ticks => .dataplane
  | logs => .logs

/-- The current number of a chain. -/
def number : Chain → Monitor → Nat
  | ticks, r => r.tickSeq
  | logs, r => r.logSeq

/-- What the current results of a chain carry. -/
def link (c : Chain) (r : Monitor) : Link := (r.seq, c.number r)

/-- What an effect carries that starts a wait of the chain. -/
def ofEffect? : Chain → Effect → Option Link
  | ticks, .scheduleTick seq n _ _ => some (seq, n)
  | logs, .scheduleLogTick seq n _ _ => some (seq, n)
  | logs, .watchLog seq n _ => some (seq, n)
  | _, _ => none

/-- What a message carries that a wait of the chain has posted. -/
def ofMessage? : Chain → Message → Option Link
  | ticks, .result seq (.tick n) => some (seq, n)
  | logs, .result seq (.logTick n) => some (seq, n)
  | logs, .result seq (.logsChanged n) => some (seq, n)
  | _, _ => none

/-- What an effect carries that asks for what the chain's screen shows. -/
def ofRequest? : Chain → Effect → Option Link
  | ticks, .sampleTraffic seq n => some (seq, n)
  | logs, .fetchLogs seq n _ _ => some (seq, n)
  | _, _ => none

/-- What a message carries that answers such a request. -/
def ofAnswer? : Chain → Message → Option Link
  | ticks, .result seq (.trafficSampled n _) => some (seq, n)
  | logs, .result seq (.logsFetched n _) => some (seq, n)
  | _, _ => none

/-- The messages of a chain: ticks of the one, and both kinds of news of the other. -/
theorem eq_of_ofMessage? {c : Chain} {m : Message} {k : Link} (h : c.ofMessage? m = some k) :
    (c = ticks ∧ m = .result k.1 (.tick k.2)) ∨
      (c = logs ∧ (m = .result k.1 (.logTick k.2) ∨ m = .result k.1 (.logsChanged k.2))) := by
  unfold ofMessage? at h
  split at h
  · cases h
    exact Or.inl ⟨rfl, rfl⟩
  · cases h
    exact Or.inr ⟨rfl, Or.inl rfl⟩
  · cases h
    exact Or.inr ⟨rfl, Or.inr rfl⟩
  · exact nomatch h

/-- A message is of one chain at most. -/
theorem eq_of_ofMessage?_of_ofMessage? {c d : Chain} {m : Message} {k l : Link}
    (hc : c.ofMessage? m = some k) (hd : d.ofMessage? m = some l) : c = d := by
  obtain ⟨i, n⟩ := k
  obtain ⟨j, o⟩ := l
  rcases eq_of_ofMessage? hc with ⟨rfl, rfl⟩ | ⟨rfl, rfl | rfl⟩
  · rcases eq_of_ofMessage? hd with ⟨rfl, _⟩ | ⟨rfl, hm | hm⟩
    · rfl
    · exact nomatch hm
    · exact nomatch hm
  · rcases eq_of_ofMessage? hd with ⟨rfl, hm⟩ | ⟨rfl, _⟩
    · exact nomatch hm
    · rfl
  · rcases eq_of_ofMessage? hd with ⟨rfl, hm⟩ | ⟨rfl, _⟩
    · exact nomatch hm
    · rfl

/-- The token of the waits of a chain. -/
def stop : Chain → Link → StopToken
  | ticks, (seq, _) => Token.ofScope (.activation seq)
  | logs, (seq, n) => (Token.ofScope (.logVisit seq n)).merge (Token.ofScope (.activation seq))

end Chain

namespace Monitor

/-- One round of the chain whose home is on the screen. -/
def round (r : Monitor) : List Effect :=
  match r.screen with
  | .dataplane => r.sample.flatten ++ r.scheduleTick.flatten
  | .logs => r.fetchLogs.flatten ++ r.armLogWait.flatten
  | .settings => []

variable {r r' : Monitor}

/-- Monitors with the same tasks have the same numbers. -/
theorem SameTasks.number (h : r.SameTasks r') (c : Chain) : c.number r' = c.number r := by
  cases c with
  | ticks => exact h.tickSeq
  | logs => exact h.logSeq

/-- So current results of the one are current for the other. -/
theorem SameTasks.link (h : r.SameTasks r') (c : Chain) : c.link r' = c.link r := by
  rw [Chain.link, Chain.link, h.seq, h.number c]

/-- A timer leads to the next round if its number and its screen are still current. -/
theorem handleResult_timer {c : Chain} {result : TaskResult} {k : Link}
    (hc : c.ofMessage? (.result r.seq result) = some k) :
    (r.handleResult result).1 = r ∧ (r.handleResult result).2.flatten =
      if k.2 = c.number r ∧ r.screen = c.home then r.round else [] := by
  have hlogs : (r.refreshLogs k.2).flatten =
      if k.2 = r.logSeq ∧ r.screen = .logs then r.round else [] := by
    unfold refreshLogs
    split
    · rename_i h
      rw [Command.flatten_ofList, round, h.2]
      simp
    · exact Command.flatten_none
  have hticks : (r.handleResult (.tick k.2)).1 = r ∧ (r.handleResult (.tick k.2)).2.flatten =
      if k.2 = r.tickSeq ∧ r.screen = .dataplane then r.round else [] := by
    simp only [handleResult]
    by_cases h : k.2 = r.tickSeq ∧ r.screen = .dataplane
    · rw [if_pos h, if_pos h]
      refine ⟨rfl, ?_⟩
      rw [Command.flatten_ofList, round, h.2]
      simp
    · rw [if_neg h, if_neg h]
      exact ⟨rfl, Command.flatten_none⟩
  -- a timer of the data plane, one of the logs, or news of the log
  obtain ⟨i, n⟩ := k
  rcases Chain.eq_of_ofMessage? hc with ⟨rfl, hm⟩ | ⟨rfl, hm | hm⟩
  · cases hm
    exact hticks
  · cases hm
    exact ⟨rfl, hlogs⟩
  · cases hm
    exact ⟨rfl, hlogs⟩

/-! ## Going to another screen -/

/-- The target is the screen that shows. -/
theorem screen_switchScreen {target : Screen} (h : target ≠ r.screen) :
    (r.switchScreen target).1.screen = target := by
  rw [fst_switchScreen h]
  cases target with
  | dataplane | settings | logs => rfl

/-- Entering a screen asks for a round of its chain. -/
theorem flatten_switchScreen {target : Screen} (h : target ≠ r.screen) :
    (r.switchScreen target).2.flatten = (r.switchScreen target).1.round := by
  unfold switchScreen
  rw [if_neg h]
  cases target with
  | dataplane | logs =>
    refine (Command.flatten_ofList _).trans ?_
    simp [round]
    rfl
  | settings => exact Command.flatten_none

/-- Who leaves the home of a chain gives up its number. -/
theorem number_leaving (r : Monitor) (c : Chain) :
    c.number r.leaving = c.number r + if r.screen = c.home then 1 else 0 := by
  unfold leaving
  cases c with
  | ticks | logs =>
    cases hs : r.screen with
    | dataplane | settings | logs => simp [Chain.number, Chain.home, stopLogWait]

/-- Who comes to the home of a chain takes a new number. -/
theorem number_entering (r : Monitor) (target : Screen) (c : Chain) :
    c.number (r.entering target) = c.number r + if target = c.home then 1 else 0 := by
  cases c with
  | ticks | logs =>
    cases target with
    | dataplane | settings | logs =>
      simp [entering, Chain.number, Chain.home, startTicks, startLogWatch, stopLogWait]

/-- A number is given up with its screen, and a new one is taken with it. -/
theorem number_switchScreen {target : Screen} (h : target ≠ r.screen) (c : Chain) :
    c.number (r.switchScreen target).1 =
      c.number r + (if r.screen = c.home then 1 else 0) + (if target = c.home then 1 else 0) := by
  rw [fst_switchScreen h, number_entering, number_leaving]

/-! ## Scopes

Coming to a screen and leaving it are the two steps of changing it, and each is shown to keep the
numbers of the scopes in order. -/

/-- The scopes of a monitor are numbered like its waits. -/
structure Scoped (r : Monitor) : Prop where
  /-- The visit that goes on has the current number. -/
  visit : ∀ v, r.logVisit = some v → v = r.logSeq
  /-- Only scopes of this activation have ended, and of its visits only earlier ones. -/
  past : ∀ x ∈ r.ended, x = .activation r.seq ∨ ∃ v, x = .logVisit r.seq v ∧ v < r.logSeq

/-- Whether all waits of a monitor have been ended. -/
def isStopped (r : Monitor) : Bool := r.ended.contains (.activation r.seq)

/-- Whether the scopes are in order is a matter of the tasks. -/
theorem SameTasks.scoped (h : r.SameTasks r') (hr : r.Scoped) : r'.Scoped := by
  refine ⟨fun v hv => ?_, fun x hx => ?_⟩
  · rw [h.logSeq]
    exact hr.visit v (h.logVisit ▸ hv)
  · rw [h.seq, h.logSeq]
    exact hr.past x (h.ended ▸ hx)

/-- Whether all waits have been ended is one, too. -/
theorem SameTasks.isStopped (h : r.SameTasks r') : r'.isStopped = r.isStopped := by
  rw [Monitor.isStopped, Monitor.isStopped, h.ended, h.seq]

/-- Ending the visit keeps the scopes in order, and leaves none that goes on. -/
theorem scoped_stopLogWait (h : r.Scoped) : r.stopLogWait.Scoped := by
  refine ⟨fun v hv => (nomatch hv), fun x hx => ?_⟩
  have hnumber : r.stopLogWait.logSeq = r.logSeq + 1 := rfl
  rcases List.mem_append.1 hx with hx | hx
  · rcases h.past x hx with rfl | ⟨v, rfl, hv⟩
    · exact Or.inl rfl
    · exact Or.inr ⟨v, rfl, by omega⟩
  · obtain ⟨v, hv, rfl⟩ := Option.map_eq_some_iff.1 (Option.mem_toList.1 hx)
    have := h.visit v hv
    exact Or.inr ⟨v, rfl, by omega⟩

/-- Only the activation itself ends with it, not a visit. -/
theorem isStopped_stopLogWait (r : Monitor) : r.stopLogWait.isStopped = r.isStopped := by
  unfold isStopped stopLogWait
  cases r.logVisit with
  | none => simp
  | some v => simp

/-- The scopes stay in order when all waits are ended. -/
theorem scoped_stopWaits (h : r.Scoped) : r.stopWaits.Scoped := by
  have hended : Scoped { r with ended := r.ended ++ [.activation r.seq] } := by
    refine ⟨h.visit, fun x hx => ?_⟩
    rcases List.mem_append.1 hx with hx | hx
    · exact h.past x hx
    · exact Or.inl (List.mem_singleton.1 hx)
  have hstopped := scoped_stopLogWait hended
  exact ⟨hstopped.visit, hstopped.past⟩

/-- Then the monitor is stopped. -/
theorem isStopped_stopWaits (r : Monitor) : r.stopWaits.isStopped = true := by
  have hstopped := isStopped_stopLogWait { r with ended := r.ended ++ [.activation r.seq] }
  refine hstopped.trans ?_
  simp [isStopped]

/-- No number stays current. -/
theorem number_stopWaits (r : Monitor) (c : Chain) : c.number r.stopWaits = c.number r + 1 := by
  cases c with
  | ticks | logs => rfl

/-- Leaving a screen keeps the scopes in order. -/
theorem scoped_leaving (h : r.Scoped) : r.leaving.Scoped := by
  unfold leaving
  split
  · exact scoped_stopLogWait h
  · exact ⟨h.visit, h.past⟩
  · exact h

/-- Coming to a screen keeps the scopes in order.  A visit begins under the number it has from then
    on. -/
theorem scoped_entering (h : r.Scoped) (target : Screen) : (r.entering target).Scoped := by
  cases target with
  | dataplane | settings => exact ⟨h.visit, h.past⟩
  | logs =>
    have hstopped := scoped_stopLogWait h
    exact ⟨fun v hv => (Option.some.inj hv).symm, hstopped.past⟩

/-- Both together: going from one screen to another. -/
theorem scoped_switchScreen (h : r.Scoped) (target : Screen) :
    (r.switchScreen target).1.Scoped := by
  by_cases hsame : target = r.screen
  · rw [hsame, switchScreen_self]
    exact h
  · rw [fst_switchScreen hsame]
    exact scoped_entering (scoped_leaving h) target

/-- To leave a screen does not stop an activation. -/
theorem isStopped_leaving (r : Monitor) : r.leaving.isStopped = r.isStopped := by
  unfold leaving
  split
  · exact isStopped_stopLogWait r
  · rfl
  · rfl

/-- To enter a screen does not stop an activation. -/
theorem isStopped_entering (r : Monitor) (target : Screen) :
    (r.entering target).isStopped = r.isStopped := by
  cases target with
  | dataplane | settings => rfl
  | logs => exact isStopped_stopLogWait r

/-- Going to another screen ends no more than a visit. -/
theorem isStopped_switchScreen (r : Monitor) (target : Screen) :
    (r.switchScreen target).1.isStopped = r.isStopped := by
  by_cases hsame : target = r.screen
  · rw [hsame, switchScreen_self]
  · rw [fst_switchScreen hsame, isStopped_entering, isStopped_leaving]

/-! ## Rounds

A round is asked for by the screen that shows, and by no other.  So all that is in it is about one
chain, whose number and token it carries. -/

/-- What a round consists of: on the screen of the data plane a request for traffic, if it is shown,
    and a timer; on that of the logs a request for lines and a wait for more. -/
theorem round_cases (h : r.Placed) (hs : r.Scoped) :
    (r.screen = .settings ∧ r.round = []) ∨
    (r.screen = .dataplane ∧ ∃ asks, (asks = [] ∨ asks = [.sampleTraffic r.seq r.tickSeq]) ∧
      r.round = asks ++ [.scheduleTick r.seq r.tickSeq r.settings.tickInterval
        (Chain.ticks.stop (Chain.ticks.link r))]) ∨
    (r.screen = .logs ∧ r.round =
      [.fetchLogs r.seq r.logSeq r.logs.feed r.settings.logTailLines,
        if r.logs.observable then .watchLog r.seq r.logSeq (Chain.logs.stop (Chain.logs.link r))
        else .scheduleLogTick r.seq r.logSeq r.settings.logPollInterval
          (Chain.logs.stop (Chain.logs.link r))]) := by
  unfold round
  cases hscreen : r.screen with
  | settings => exact Or.inl ⟨rfl, rfl⟩
  | dataplane =>
    refine Or.inr (Or.inl ⟨rfl, r.sample.flatten, ?_, rfl⟩)
    unfold sample
    split
    · exact Or.inr (Command.flatten_one _)
    · exact Or.inl Command.flatten_none
  | logs =>
    refine Or.inr (Or.inr ⟨rfl, ?_⟩)
    -- on the screen of the logs there is a visit
    obtain ⟨v, hv⟩ := Option.isSome_iff_exists.1 (h.visit.2 hscreen)
    obtain rfl := hs.visit v hv
    simp only [fetchLogs, armLogWait, hv, Command.flatten_one]
    split
    · simp [Chain.stop, Chain.link, Chain.number, stopToken]
    · simp [Chain.stop, Chain.link, Chain.number, stopToken]

/-- A round starts one wait of the chain whose home shows, under the current number. -/
theorem links_round (h : r.Placed) (hs : r.Scoped) (c : Chain) :
    r.round.filterMap c.ofEffect? = if r.screen = c.home then [c.link r] else [] := by
  -- the request for traffic is there or not, and a log is watched or read again, but there is one
  -- wait in each case
  rcases round_cases h hs with ⟨hscreen, hround⟩ | ⟨hscreen, asks, hasks, hround⟩ | ⟨hscreen, hround⟩
  · rw [hround, hscreen]
    cases c with
    | ticks | logs => rfl
  · rw [hround, hscreen]
    rcases hasks with rfl | rfl
    · cases c with
      | ticks | logs => rfl
    · cases c with
      | ticks | logs => rfl
  · rw [hround, hscreen]
    cases r.logs.observable with
    | true | false =>
      cases c with
      | ticks | logs => rfl

/-- What can be part of a round, one by one. -/
inductive InRound (r : Monitor) : Effect → Prop where
  | sample (screen : r.screen = .dataplane) : InRound r (.sampleTraffic r.seq r.tickSeq)
  | tick (screen : r.screen = .dataplane) :
      InRound r (.scheduleTick r.seq r.tickSeq r.settings.tickInterval
        (Chain.ticks.stop (Chain.ticks.link r)))
  | fetch (screen : r.screen = .logs) :
      InRound r (.fetchLogs r.seq r.logSeq r.logs.feed r.settings.logTailLines)
  | watch (screen : r.screen = .logs) (observable : r.logs.observable = true) :
      InRound r (.watchLog r.seq r.logSeq (Chain.logs.stop (Chain.logs.link r)))
  | logTick (screen : r.screen = .logs) (observable : r.logs.observable = false) :
      InRound r (.scheduleLogTick r.seq r.logSeq r.settings.logPollInterval
        (Chain.logs.stop (Chain.logs.link r)))

variable {c : Chain} {e : Effect} {k : Link}

/-- Every effect of a round is in the list. -/
theorem inRound_of_mem (h : r.Placed) (hs : r.Scoped) (he : e ∈ r.round) : r.InRound e := by
  rcases round_cases h hs with ⟨-, hround⟩ | ⟨hscreen, asks, hasks, hround⟩ | ⟨hscreen, hround⟩
  · rw [hround] at he
    exact absurd he List.not_mem_nil
  · rw [hround] at he
    rcases List.mem_append.1 he with he | he
    · rcases hasks with rfl | rfl
      · exact absurd he List.not_mem_nil
      · rw [List.mem_singleton.1 he]
        exact .sample hscreen
    · rw [List.mem_singleton.1 he]
      exact .tick hscreen
  · rw [hround] at he
    rcases List.mem_cons.1 he with rfl | he
    · exact .fetch hscreen
    · rw [List.mem_singleton.1 he]
      cases ho : r.logs.observable with
      | true => exact .watch hscreen ho
      | false => exact .logTick hscreen ho

/-- Whatever a round is about, it is about the current number of the chain whose home shows. -/
theorem current_of_mem_round (h : r.Placed) (hs : r.Scoped) (he : e ∈ r.round)
    (hk : c.ofEffect? e = some k ∨ c.ofRequest? e = some k) : k = c.link r ∧ r.screen = c.home := by
  cases inRound_of_mem h hs he with
  | sample screen | tick screen | fetch screen | watch screen | logTick screen =>
    cases c with
    | ticks | logs => rcases hk with hk | hk <;> cases hk <;> exact ⟨rfl, screen⟩

/-- The waits of a round have the token of their chain. -/
theorem stop?_of_mem_round (h : r.Placed) (hs : r.Scoped) (he : e ∈ r.round)
    (hk : c.ofEffect? e = some k) : e.stop? = some (c.stop k) := by
  cases inRound_of_mem h hs he with
  | sample | tick | fetch | watch | logTick =>
    cases c with
    | ticks | logs => cases hk <;> rfl

/-- A round that asks for lines asks for the newest ones, as many as the settings say. -/
theorem request_of_mem_round (h : r.Placed) (hs : r.Scoped) (he : e ∈ r.round)
    (hk : Chain.logs.ofRequest? e = some k) :
    e = .fetchLogs r.seq r.logSeq r.logs.feed r.settings.logTailLines := by
  cases inRound_of_mem h hs he with
  | fetch => rfl
  | sample | tick | watch | logTick => cases hk

/-- A log that tells of new lines is watched, and not read again after a while. -/
theorem watchLog_of_mem_round (h : r.Placed) (hs : r.Scoped) (ho : r.logs.observable = true)
    (he : e ∈ r.round) (hk : Chain.logs.ofEffect? e = some k) :
    e = .watchLog r.seq r.logSeq (Chain.logs.stop (Chain.logs.link r)) := by
  cases inRound_of_mem h hs he with
  | watch => rfl
  | logTick _ observable => cases observable.symm.trans ho
  | sample | tick | fetch => cases hk

/-- On the logs screen a round asks for lines. -/
theorem fetchLogs_mem_round (h : r.screen = .logs) :
    .fetchLogs r.seq r.logSeq r.logs.feed r.settings.logTailLines ∈ r.round := by
  unfold round
  rw [h]
  exact List.mem_append_left _ (by simp [fetchLogs])

end Monitor
end TunnelBoard
