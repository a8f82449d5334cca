import TunnelBoard.Proofs.Loop.Trace
import TunnelBoard.Session.Call
/-
  What a loop reports does not matter to it.

  Records are written down and never read again: a loop that has something reported before all that it
  reports itself can make the same moves, and comes to the same states, with the same records in front
  (`step_preceded`, `run_preceded`).  So a theorem about the runs of a loop that begins with nothing
  reported is one about the runs of a program that has said something already, such as what it found
  when it loaded the preferences.

  There is one lemma for each function that a move is made of, and all of them say the same: to put
  records in front and then to make the move, or to make the move and then to put them in front, comes
  to the same loop, or to none at all.  Most of them look at fields that the records are not among,
  and nothing more is to be said; the others report something themselves, and then it matters only
  that records are added at the end.
-/

namespace TunnelBoard
namespace Loop

variable {l l' : Loop} {records : List LogRecord}

/-! ## What was reported before

Records in front of a loop's own are carried through every function of a move. -/

/-- A loop, with something that was reported before all that it reported itself. -/
def preceded (records : List LogRecord) (l : Loop) : Loop := { l with log := records ++ l.log }

@[simp] theorem preceded_stage : (l.preceded records).stage = l.stage := rfl
@[simp] theorem preceded_effects : (l.preceded records).effects = l.effects := rfl
@[simp] theorem preceded_quitting : (l.preceded records).quitting = l.quitting := rfl
@[simp] theorem preceded_queue : (l.preceded records).queue = l.queue := rfl
@[simp] theorem preceded_waits : (l.preceded records).waits = l.waits := rfl
@[simp] theorem preceded_events : (l.preceded records).events = l.events := rfl
@[simp] theorem preceded_writer : (l.preceded records).writer = l.writer := rfl
@[simp] theorem preceded_writerLost : (l.preceded records).writerLost = l.writerLost := rfl
@[simp] theorem preceded_world : (l.preceded records).world = l.world := rfl
@[simp] theorem preceded_hasEnded : (l.preceded records).hasEnded = l.hasEnded := rfl
@[simp] theorem preceded_isIdle : (l.preceded records).isIdle = l.isIdle := rfl

/-- Whether a request has to be put into the writer's slot first is not a matter of records. -/
@[simp] theorem preceded_mustPlace (e : Effect) :
    (l.preceded records).mustPlace e = l.mustPlace e := by
  cases e <;> rfl

/-- Records are added behind those that were there, so what stands in front stays in front. -/
theorem report_preceded (l : Loop) (records more : List LogRecord) :
    (l.preceded records).report more = (l.report more).preceded records := by
  unfold report preceded
  rw [List.append_assoc]

/-- A message is posted, or refused, or lost, by the stage of the loop. -/
theorem post_preceded (l : Loop) (records : List LogRecord) (m : Message) :
    (l.preceded records).post m = (l.post m).preceded records := by
  unfold post
  rw [preceded_stage]
  cases l.stage with
  | running | ending | closed | done => rfl

/-- A loop that saves by itself reports what came of it, and nothing else depends on what was
    reported. -/
theorem saveInline_preceded (l : Loop) (records : List LogRecord) (p : Preferences) :
    (l.preceded records).saveInline p = (l.saveInline p).preceded records := by
  unfold saveInline
  rw [preceded_writer]
  cases h : (l.writer.store.save p).2.1 with
  | saved | failed | brokeDown => simp only [report, preceded, h, List.append_assoc]

/-- A request to save does not depend on what was reported, whoever carries it out. -/
theorem savePreferences_preceded (l : Loop) (records : List LogRecord) (p : Preferences) :
    (l.preceded records).savePreferences p = (l.savePreferences p).preceded records := by
  unfold savePreferences
  rw [preceded_writer, preceded_writerLost]
  -- the writer is lost, or it is still there and is rung for; then it may be found dead, and the loop
  -- reports so and saves by itself
  split
  · exact saveInline_preceded l records p
  · dsimp only
    split
    · rfl
    · rw [← saveInline_preceded, ← report_preceded]
      rfl

/-- An effect is carried out in the same way.  Two kinds of them report something: an event that is
    given to the owner, and preferences that are saved by the loop. -/
theorem perform_preceded (l : Loop) (records : List LogRecord) (e : Effect) :
    (l.preceded records).perform e = (l.perform e).preceded records := by
  cases e with
  | emit e => exact report_preceded { l with events := (l.events.push e).1 } records _
  | quit | clearScreen | scheduleTick | scheduleLogTick | watchLog | awaitContextEnd | awaitReady => rfl
  | fetchLogs => exact post_preceded l records _
  | sampleTraffic => exact post_preceded { l with world := l.world.readTraffic.2 } records _
  | savePreferences p => exact savePreferences_preceded l records p

/-- The next effect is the same one. -/
theorem performNext_preceded (l : Loop) (records : List LogRecord) :
    (l.preceded records).performNext = l.performNext.map (preceded records) := by
  unfold performNext
  rw [preceded_stage, preceded_effects]
  split
  · rename_i e rest _ _
    rw [preceded_mustPlace]
    split
    · rfl
    · exact congrArg some (perform_preceded { l with effects := rest } records e)
  · rfl

/-- A request that has to be put into the slot is the same one, too. -/
theorem place_preceded (l : Loop) (records : List LogRecord) :
    (l.preceded records).place = l.place.map (preceded records) := by
  unfold place
  rw [preceded_stage, preceded_effects]
  split
  · rw [preceded_mustPlace]
    split
    · rfl
    · rfl
  · rfl

/-- The oldest message is handled by the session, which knows nothing of records. -/
theorem handleNext_preceded (l : Loop) (records : List LogRecord) :
    (l.preceded records).handleNext = l.handleNext.map (preceded records) := by
  unfold handleNext
  rw [preceded_isIdle, preceded_quitting, preceded_queue]
  split
  · split
    · rfl
    · rfl
  · rfl

/-- A frame that cannot be written is reported behind what was there. -/
theorem failPaint_preceded (l : Loop) (records : List LogRecord) (cause : Text) :
    (l.preceded records).failPaint cause = (l.failPaint cause).map (preceded records) := by
  unfold failPaint
  rw [preceded_isIdle, preceded_quitting]
  split
  · simp only [Option.map_some, emit, report, preceded, List.append_assoc]
  · rfl

/-- A loop that leaves says so behind what was there. -/
theorem leave_preceded (l : Loop) (records : List LogRecord) :
    (l.preceded records).leave = l.leave.map (preceded records) := by
  unfold leave
  rw [preceded_isIdle, preceded_quitting]
  split
  · simp only [Option.map_some, report, preceded, List.append_assoc]
  · rfl

/-- To close the queue reports nothing. -/
theorem close_preceded (l : Loop) (records : List LogRecord) :
    (l.preceded records).close = l.close.map (preceded records) := by
  unfold close
  rw [preceded_stage]
  split
  · rfl
  · rfl

/-- What the loop says at its very end stands at the end. -/
theorem finish_preceded (l : Loop) (records : List LogRecord) :
    (l.preceded records).finish = l.finish.map (preceded records) := by
  unfold finish
  rw [preceded_stage, preceded_writer, preceded_writerLost]
  split
  · simp only [Option.map_some, report, preceded, List.append_assoc]
  · rfl

/-- A wait that wakes may report something: the one for the end of the session's own context does. -/
theorem wake_preceded (l : Loop) (records : List LogRecord) (i : Nat) :
    (l.preceded records).wake i = (l.wake i).map (preceded records) := by
  unfold wake
  rw [preceded_waits, preceded_world, preceded_hasEnded]
  split
  · split
    · simp only [Option.map_some, report, preceded, List.append_assoc]
    · rfl
  · rfl

/-- A wait lapses when its scope ends, of which nothing is written down. -/
theorem lapse_preceded (l : Loop) (records : List LogRecord) (i : Nat) :
    (l.preceded records).lapse i = (l.lapse i).map (preceded records) := by
  unfold lapse
  rw [preceded_waits, preceded_hasEnded]
  split
  · split
    · rfl
    · rfl
  · rfl

/-- What a wait has woken with is posted like any other message. -/
theorem postWoken_preceded (l : Loop) (records : List LogRecord) (i : Nat) :
    (l.preceded records).postWoken i = (l.postWoken i).map (preceded records) := by
  unfold postWoken
  rw [preceded_waits]
  split
  · split
    · exact congrArg some (post_preceded { l with waits := l.waits.eraseIdx i } records _)
    · rfl
  · rfl

/-- The writer's records are added to those of the loop. -/
theorem stepWriter_preceded (l : Loop) (records : List LogRecord) :
    (l.preceded records).stepWriter = l.stepWriter.map (preceded records) := by
  unfold stepWriter
  rw [preceded_writer, Option.map_map]
  exact congrArg (l.writer.step.map ·) (funext fun r => report_preceded { l with writer := r.1 } records r.2)

/-- Whether a message is let in is a matter of the stage. -/
theorem receive_preceded (l : Loop) (records : List LogRecord) (m : Message) :
    (l.preceded records).receive m = (l.receive m).map (preceded records) := by
  unfold receive
  rw [preceded_stage]
  cases l.stage with
  | running | ending | closed | done => rfl

/-- The owner takes the same event. -/
theorem takeEvent_preceded (l : Loop) (records : List LogRecord) :
    (l.preceded records).takeEvent = l.takeEvent.map fun r => (r.1, r.2.preceded records) := by
  unfold takeEvent
  rw [preceded_events]
  split
  · rfl
  · rfl

/-- What was reported before does not matter to what a loop can do, nor to what becomes of it. -/
theorem step_preceded (l : Loop) (records : List LogRecord) (m : Move) :
    (l.preceded records).step m = (l.step m).map (preceded records) := by
  cases m with
  | perform => exact performNext_preceded l records
  | place => exact place_preceded l records
  | handle => exact handleNext_preceded l records
  | failPaint cause => exact failPaint_preceded l records cause
  | leave => exact leave_preceded l records
  | close => exact close_preceded l records
  | finish => exact finish_preceded l records
  | wake i => exact wake_preceded l records i
  | lapse i => exact lapse_preceded l records i
  | post i => exact postWoken_preceded l records i
  | stepWriter => exact stepWriter_preceded l records
  | receive m => exact receive_preceded l records m
  -- the event itself is left out of a move
  | takeEvent =>
    show (takeEvent _).map _ = ((takeEvent _).map _).map _
    rw [takeEvent_preceded, Option.map_map, Option.map_map]
    rfl
  | endScope | signal | append | pass => rfl
  | announce =>
    show (if (l.preceded records).world.unannounced = 0 then none else _) = Option.map _ (if _ then _ else _)
    rw [preceded_world]
    split
    · rfl
    · rfl

/-- The same moves lead to the same states. -/
theorem run_preceded (l : Loop) (records : List LogRecord) (moves : List Move) :
    (l.preceded records).run moves = (l.run moves).map (preceded records) := by
  induction moves generalizing l with
  | nil => rfl
  | cons m moves ih =>
    -- the next move, and then the others from wherever it leads
    show ((l.preceded records).step m).bind _ = ((l.step m).bind _).map _
    rw [step_preceded]
    cases l.step m with
    | none => rfl
    | some l' => exact ih l'

/-! ## Calls -/

/-- A call that waits for an event finds the same one, and may report that it does not know what to
    make of it. -/
theorem readFor_preceded (l : Loop) (records : List LogRecord) (c : Call) :
    (l.preceded records).readFor c = (l.readFor c).map fun r => (r.1, r.2.preceded records) := by
  have hsilent : (l.preceded records).isSilent = l.isSilent := rfl
  unfold readFor
  rw [takeEvent_preceded, hsilent]
  cases l.takeEvent with
  | some r =>
    dsimp only [Option.map_some]
    split
    · rfl
    · exact congrArg (fun l => some (CallStage.reading, l)) (report_preceded r.2 records _)
  | none =>
    dsimp only [Option.map_none]
    split
    · rw [Option.map_map]
      rfl
    · rfl

/-- A call that looks through the events that are there finds the same ones, too. -/
theorem search_preceded (l : Loop) (records : List LogRecord) :
    (l.preceded records).search = (l.search.1, l.search.2.preceded records) := by
  unfold search
  rw [takeEvent_preceded]
  cases l.takeEvent with
  | some r =>
    dsimp only [Option.map_some]
    split
    · rfl
    · exact congrArg (fun l => (CallStage.searching, l)) (report_preceded r.2 records _)
  | none => rfl

/-- What was reported before does not matter to the calls of an owner. -/
theorem stepCall_preceded (l : Loop) (records : List LogRecord) (c : Call) (stage : CallStage) :
    (l.preceded records).stepCall c stage =
      (l.stepCall c stage).map fun r => (r.1, r.2.preceded records) := by
  cases stage with
  | sending m =>
    unfold stepCall
    dsimp only
    rw [receive_preceded]
    cases l.receive m with
    | none => rfl
    | some l' => rfl
  | reading => exact readFor_preceded l records c
  | searching => exact congrArg some (search_preceded l records)
  | answered => rfl

end Loop
end TunnelBoard
