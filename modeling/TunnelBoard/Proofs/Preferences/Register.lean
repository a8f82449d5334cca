import TunnelBoard.Preferences.Store
import TunnelBoard.Proofs.Preferences.RoundTrip
import TunnelBoard.Proofs.Preferences.SaveSteps
import TunnelBoard.Proofs.Text.Utf8
/-
  The file of preferences is a register.

  Saves side by side share a disk, and a move is one step of any of them, with or without a fault.  A
  sequence of moves may stop anywhere, so what holds behind every sequence holds at every moment,
  whenever the process is stopped.  The invariant is that each save is ready for its next step,
  whatever the others did (`Saves.Sound`).  From it, a step of any save leaves the file as it is or
  makes it the whole text of that save.

  The crux is that saves do not disturb one another.  Each has a temporary file of its own, because
  the names carry a number that no other save of the process has (`Sound.temp_ne_temp`), and none of
  these is the file itself.  So all that another save can do to a save that is about to be moved is to
  change the file that it will replace anyway.

  Loading comes last.  A save that runs to its end is one of these jobs with nobody else on the disk
  (`save_eq_run`), and what it wrote is read back by the round trip of the text.
-/

namespace TunnelBoard

/-! ## Saves side by side

Saves share the disk and the target, but each has a temporary file of its own.  The steps of one leave
the temporary files of the others alone, so a file that is complete stays so until it is moved. -/

namespace Saves

variable {n : Nat} {path : Text} {process first : Nat} {bodies : Fin n → Text} {s : Saves n}

/-- Whether some saves are under way as they began, and what is to be moved is complete. -/
structure Sound (path : Text) (process first : Nat) (bodies : Fin n → Text) (s : Saves n) : Prop where
  jobs_eq : ∀ i, s.jobs i =
    { SaveJob.make path (bodies i) process (first + i) with stage := (s.jobs i).stage }
  hasBody : ∀ i, (s.jobs i).HasBody s.disk

/-- Saves that have not begun are ready. -/
theorem sound_start (path : Text) (process first : Nat) (bodies : Fin n → Text) (d : Disk) :
    (start path process first bodies d).Sound path process first bodies where
  jobs_eq _ := rfl
  hasBody i := SaveJob.hasBody_make path (bodies i) process (first + i) d

/-- All saves are to the same place. -/
theorem Sound.path_eq (h : s.Sound path process first bodies) (i : Fin n) : (s.jobs i).path = path := by
  rw [h.jobs_eq i]
  rfl

/-- Each save has its own text to write. -/
theorem Sound.body_eq (h : s.Sound path process first bodies) (i : Fin n) :
    (s.jobs i).body = bodies i := by
  rw [h.jobs_eq i]
  rfl

/-- Different saves have different temporary files, since their numbers differ. -/
theorem Sound.temp_ne_temp (h : s.Sound path process first bodies) {i k : Fin n} (hne : i ≠ k) :
    (s.jobs i).temp ≠ (s.jobs k).temp := by
  rw [h.jobs_eq i, h.jobs_eq k]
  refine SaveJob.temp_ne_temp rfl rfl fun hnumber => hne (Fin.ext ?_)
  exact Nat.add_left_cancel hnumber

/-- A step of a save moves that save on. -/
theorem jobs_step_self (s : Saves n) (i : Fin n) (fault : Option DiskFault) :
    (s.step (i, fault)).jobs i = ((s.jobs i).step fault s.disk).2 := if_pos rfl

/-- A step of a save leaves the other saves where they are. -/
theorem jobs_step_of_ne (s : Saves n) {i k : Fin n} (h : k ≠ i) (fault : Option DiskFault) :
    (s.step (i, fault)).jobs k = s.jobs k := if_neg h

/-- What a step of one save does to the disk. -/
theorem does_step (s : Saves n) (i : Fin n) (fault : Option DiskFault) :
    (s.jobs i).Does s.disk (s.step (i, fault)).disk ((s.step (i, fault)).jobs i).stage := by
  rw [jobs_step_self]
  exact (s.jobs i).does_step fault s.disk

/-- **No save disturbs another**: what was complete stays so, whichever save makes the step. -/
theorem Sound.step (h : s.Sound path process first bodies) (move : Fin n × Option DiskFault) :
    (s.step move).Sound path process first bodies := by
  obtain ⟨i, fault⟩ := move
  have hdoes := s.does_step i fault
  have hstep := (s.jobs i).step_eq fault s.disk
  rw [← jobs_step_self] at hstep
  constructor
  · intro k
    by_cases hk : k = i
    · subst hk
      rw [hstep, h.jobs_eq k]
    · rw [jobs_step_of_ne s hk]
      exact h.jobs_eq k
  · intro k
    by_cases hk : k = i
    · -- the save that makes the step: its own step keeps its file complete
      subst hk
      rw [hstep]
      exact hdoes.hasBody (h.hasBody k)
    · -- another save, about to be moved: its temporary file is none of the files that the step is
      -- about
      intro hstage
      rw [jobs_step_of_ne s hk] at hstage ⊢
      have htarget : (s.jobs k).temp ≠ (s.jobs i).target := by
        rw [SaveJob.target, h.path_eq i, ← h.path_eq k]
        exact (s.jobs k).temp_ne_target
      exact hdoes.at?_of_file (h.temp_ne_temp hk) htarget (h.hasBody k hstage)

/-- Saves stay ready, however many steps are made. -/
theorem Sound.run (h : s.Sound path process first bodies) (moves : List (Fin n × Option DiskFault)) :
    (s.run moves).Sound path process first bodies := by
  induction moves generalizing s with
  | nil => exact h
  | cons move moves ih => exact ih (h.step move)

/-- A save that is over stays as it ended when a step is made. -/
theorem stage_step_of_ended {i : Fin n} {failure : Option Failure}
    (h : (s.jobs i).stage = .ended failure) (move : Fin n × Option DiskFault) :
    ((s.step move).jobs i).stage = .ended failure := by
  obtain ⟨k, fault⟩ := move
  by_cases hk : i = k
  · subst hk
    rw [jobs_step_self, SaveJob.step_of_ended h]
    exact h
  · rw [jobs_step_of_ne s hk]
    exact h

/-- A save that is over stays as it ended, however many steps are made. -/
theorem stage_run_of_ended {i : Fin n} {failure : Option Failure}
    (h : (s.jobs i).stage = .ended failure) (moves : List (Fin n × Option DiskFault)) :
    ((s.run moves).jobs i).stage = .ended failure := by
  induction moves generalizing s with
  | nil => exact h
  | cons move moves ih => exact ih (stage_step_of_ended h move)

/-- A step changes the file only if a save succeeds in it, and to all that was saved. -/
theorem Sound.register_step (h : s.Sound path process first bodies) (i : Fin n)
    (fault : Option DiskFault) :
    (s.step (i, fault)).disk.register path = s.disk.register path ∨
      (((s.step (i, fault)).jobs i).stage = .ended none ∧
        (s.step (i, fault)).disk.register path = some (.file (encode (bodies i)))) := by
  have hregister := (s.does_step i fault).register (h.hasBody i)
  rw [h.path_eq i, h.body_eq i] at hregister
  exact hregister

/-- The file is at every moment as it was, or it holds all that one of the saves was to write. -/
theorem Sound.register_run (h : s.Sound path process first bodies)
    (moves : List (Fin n × Option DiskFault)) :
    (s.run moves).disk.register path = s.disk.register path ∨
      ∃ i, ((s.run moves).jobs i).stage = .ended none ∧
        (s.run moves).disk.register path = some (.file (encode (bodies i))) := by
  induction moves generalizing s with
  | nil => exact Or.inl rfl
  | cons move moves ih =>
    obtain ⟨i, fault⟩ := move
    rcases ih (h.step (i, fault)) with hlater | hlater
    · rcases h.register_step i fault with hstep | ⟨hended, hstep⟩
      · exact Or.inl (hlater.trans hstep)
      · exact Or.inr ⟨i, stage_run_of_ended hended moves, hlater.trans hstep⟩
    · exact Or.inr hlater

/-- A save that ends in a failure changes the file in none of its steps. -/
theorem Sound.register_of_failed (h : s.Sound path process first bodies) {i : Fin n}
    {fault : Option DiskFault} {moves : List (Fin n × Option DiskFault)} {e : Failure}
    (hfailed : (((s.step (i, fault)).run moves).jobs i).stage = .ended (some e)) :
    (s.step (i, fault)).disk.register path = s.disk.register path := by
  rcases h.register_step i fault with hstep | ⟨hended, -⟩
  · exact hstep
  · have hstage := stage_run_of_ended hended moves
    exact nomatch hstage.symm.trans hfailed

end Saves

/-! ## The file

What a save wrote is found by the next load.  Of several saves one after another the last one counts,
by induction on their list. -/

namespace PreferencesFile

variable {f : PreferencesFile} {d : Disk} {p : Preferences}

/-- Saves of some preferences side by side. -/
def sideBySide {n : Nat} (f : PreferencesFile) (d : Disk) (ps : Fin n → Preferences) : Saves n :=
  .start f.path f.process f.next (fun i => (ps i).write) d

/-- The disk after saves of some preferences one after another, and how each of them failed, if it did. -/
def saveAll (f : PreferencesFile) (d : Disk) : List Preferences → Disk × List (Option Failure)
  | [] => (d, [])
  | p :: ps =>
    let saved := f.save d p
    let rest := saveAll saved.1 saved.2.1 ps
    (rest.1, saved.2.2.1 :: rest.2)

/-- What was saved is loaded, in the current layout. -/
theorem load_of_read (h : p.schemaVersion ≤ Preferences.largestVersion)
    (hread : d.read (placeOf f.path) = .ok (encode p.write)) :
    (f.load d).1 = .ok { p with schemaVersion := Preferences.currentVersion } := by
  unfold load
  rw [hread]
  dsimp only
  rw [decode?_encode]
  dsimp only
  rw [Preferences.parse?_write h]

/-- Where there is no file, the standard preferences are loaded. -/
theorem load_of_notFound (h : d.read (placeOf f.path) = .error .notFound) :
    (f.load d).1 = .ok .standard := by
  unfold load
  rw [h]

/-- A save is the run of its job. -/
theorem save_eq_run (f : PreferencesFile) (d : Disk) (p : Preferences) :
    (f.save d p).2.1 = ((SaveJob.make f.path p.write f.process f.next).run d).1 ∧
      (f.save d p).2.2.1 = ((SaveJob.make f.path p.write f.process f.next).run d).2 := by
  unfold save
  generalize (SaveJob.make f.path p.write f.process f.next).run d = r
  exact ⟨rfl, rfl⟩

/-- What a save without failure wrote is loaded after it. -/
theorem load_save (h : p.schemaVersion ≤ Preferences.largestVersion)
    (hsaved : (f.save d p).2.2.1 = none) :
    (f.load (f.save d p).2.1).1 = .ok { p with schemaVersion := Preferences.currentVersion } := by
  obtain ⟨hdisk, hfailure⟩ := f.save_eq_run d p
  rw [hfailure] at hsaved
  rw [hdisk]
  exact load_of_read h (SaveJob.read_of_run hsaved)

/-- What is loaded is a matter of the path alone. -/
theorem load_congr {f' : PreferencesFile} (h : f'.path = f.path) (d : Disk) : f'.load d = f.load d := by
  unfold load
  rw [h]

/-- With nothing to save, the disk stays as it is. -/
theorem saveAll_nil (f : PreferencesFile) (d : Disk) : f.saveAll d [] = (d, []) := rfl

/-- The first of several saves is made first, and the others on the disk it leaves. -/
theorem saveAll_cons (f : PreferencesFile) (d : Disk) (p : Preferences) (ps : List Preferences) :
    f.saveAll d (p :: ps) =
      (((f.save d p).1.saveAll (f.save d p).2.1 ps).1,
        (f.save d p).2.2.1 :: ((f.save d p).1.saveAll (f.save d p).2.1 ps).2) := rfl

/-- A load behind saves that all succeed finds the last of them. -/
theorem load_saveAll {ps : List Preferences} (hp : ps.getLast? = some p)
    (h : p.schemaVersion ≤ Preferences.largestVersion)
    (hsaved : ∀ failure ∈ (f.saveAll d ps).2, failure = none) :
    (f.load (f.saveAll d ps).1).1 = .ok { p with schemaVersion := Preferences.currentVersion } := by
  induction ps generalizing f d with
  | nil => exact nomatch hp
  | cons q ps ih =>
    rw [saveAll_cons] at hsaved ⊢
    dsimp only at hsaved ⊢
    -- the last save decides, so the one in front matters only when no other follows
    cases ps with
    | nil =>
      obtain rfl : q = p := Option.some.inj hp
      have hfirst : (f.save d q).2.2.1 = none := hsaved _ List.mem_cons_self
      rw [saveAll_nil]
      dsimp only
      exact load_save h hfirst
    | cons q' ps =>
      rw [List.getLast?_cons_cons] at hp
      have hpath : (f.save d q).1.path = f.path := rfl
      have hlater := ih hp fun failure hfailure => hsaved failure (List.mem_cons_of_mem _ hfailure)
      -- the number of the next save has gone up by one, which is nothing to a load
      rw [load_congr hpath] at hlater
      exact hlater

/-- **The file is an atomic register.**  Whatever steps saves side by side have made and whatever faults have
    struck them, the file is as it was at first, or it holds all that one of the saves was to write; a save
    that ends in a failure has changed the file in none of its steps; and behind saves one after another
    that all succeed, the last of them is loaded. -/
theorem atomic_register (f : PreferencesFile) (d : Disk) :
    (∀ {n : Nat} (ps : Fin n → Preferences) (moves : List (Fin n × Option DiskFault)),
      ((f.sideBySide d ps).run moves).disk.register f.path = d.register f.path ∨
        ∃ i, (((f.sideBySide d ps).run moves).jobs i).stage = .ended none ∧
          ((f.sideBySide d ps).run moves).disk.register f.path =
            some (.file (encode (ps i).write))) ∧
    (∀ {n : Nat} (ps : Fin n → Preferences) (before after : List (Fin n × Option DiskFault)) (i : Fin n)
      (fault : Option DiskFault) (e : Failure),
      (((f.sideBySide d ps).run (before ++ (i, fault) :: after)).jobs i).stage = .ended (some e) →
        ((f.sideBySide d ps).run (before ++ [(i, fault)])).disk.register f.path =
          ((f.sideBySide d ps).run before).disk.register f.path) ∧
    (∀ ps : List Preferences, (∀ p ∈ ps, p.schemaVersion ≤ Preferences.largestVersion) →
      (∀ failure ∈ (f.saveAll d ps).2, failure = none) →
        (∀ p, ps.getLast? = some p →
          (f.load (f.saveAll d ps).1).1 = .ok { p with schemaVersion := Preferences.currentVersion }) ∧
        (ps = [] → d.read (placeOf f.path) = .error .notFound →
          (f.load (f.saveAll d ps).1).1 = .ok .standard)) := by
  have hstart : ∀ {n : Nat} (ps : Fin n → Preferences),
      (f.sideBySide d ps).Sound f.path f.process f.next fun i => (ps i).write :=
    fun ps => Saves.sound_start f.path f.process f.next (fun i => (ps i).write) d
  refine ⟨fun ps moves => (hstart ps).register_run moves, ?_, ?_⟩
  · intro n ps before after i fault e hfailed
    -- a save that has failed did not rename, and nothing else touches the register
    have hbefore := (hstart ps).run before
    unfold Saves.run at hfailed hbefore ⊢
    rw [List.foldl_append] at hfailed ⊢
    exact hbefore.register_of_failed hfailed
  · intro ps hversions hsaved
    -- of saves one after another the last one is loaded, and without any the file is not there
    refine ⟨fun p hp => load_saveAll hp (hversions p (List.mem_of_getLast? hp)) hsaved, ?_⟩
    rintro rfl hnone
    exact load_of_notFound hnone

/-- Saves on an empty disk succeed. -/
example : (saveAll ⟨"preferences.toml".toList, 7, 0⟩ .empty
    [.standard, { Preferences.standard with theme := .mono }]).2 = [none, none] := by
  decide

end PreferencesFile
end TunnelBoard
