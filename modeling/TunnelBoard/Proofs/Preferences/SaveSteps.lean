import TunnelBoard.Preferences.Save
import TunnelBoard.Proofs.Disk.Frame
import TunnelBoard.Proofs.Toml.Value
/-
  The steps of a save.

  All that one step of a save can do is listed once (`SaveJob.Does`).  What a save relies on is that
  its temporary file is complete when it is moved (`HasBody`): its own steps see to that, and no step
  of another save touches the file, since its name is like no other's.  So what a path leads to
  changes in one step only, in which the save succeeds, and changes to the whole text at once
  (`Does.register`).

  The rest is about places.  The temporary file is never at its target (`temp_ne_target`), and saves
  of one process have numbers of their own, which stand in the names (`temp_ne_temp`).  Making the
  folder brings nothing into being at the target, unless the path does not name what it leads to; that
  is the one case in which only a file counts (`Disk.register`).

  A save with nothing in its way ends after at most six steps, and what it reports is then the truth
  (`read_of_run`).  The induction behind it is over the steps, whatever trouble there is at the
  stages, so that it serves a save in trouble as well (`foldl_step`).
-/

namespace TunnelBoard

/-! ## Places

Temporary files are told apart by the numbers in their names, and from the target by the length of
their names. -/

/-- A number can be told from its digits. -/
theorem natText_injective {m n : Nat} (h : natText m = natText n) : m = n := by
  have hm := Toml.ofDigits_valuesOf m
  rw [Toml.valuesOf, h] at hm
  exact hm.symm.trans (Toml.ofDigits_valuesOf n)

/-- A path that names what it leads to leads to that name in some folder. -/
theorem placeOf_of_fileName? {path name : Text} (h : fileName? path = some name) :
    ∃ way, placeOf path = way ++ [name] := by
  obtain ⟨hlast, hname⟩ := Option.filter_eq_some_iff.1 h
  obtain ⟨front, hfront⟩ := List.getLast?_eq_some_iff.1 hlast
  have hup : ¬ name = ['.', '.'] := of_decide_eq_true hname
  unfold placeOf
  dsimp only
  rw [hfront, List.foldl_append, List.foldl_cons, List.foldl_nil, if_neg hup]
  split
  · exact ⟨_ :: _, rfl⟩
  · exact ⟨_, rfl⟩

namespace SaveJob

variable {d d' : Disk} {j j' : SaveJob} {stage : SaveStage} {fault : Option DiskFault} {q : Place}

/-- The name of a temporary file is longer than the ones with a meaning of their own. -/
theorem length_tempName (j : SaveJob) : 6 ≤ j.tempName.length := by
  have htail : ".tmp".toList.length = 4 := rfl
  simp only [tempName, List.length_append, List.length_cons, htail]
  omega

/-- The temporary file is in some folder under its name. -/
theorem exists_temp_eq (j : SaveJob) : ∃ way, j.temp = way ++ [j.tempName] := by
  unfold temp
  split
  · exact ⟨_, rfl⟩
  · exact ⟨_, rfl⟩

/-- A temporary file is not at a root. -/
theorem not_isRoot_temp (j : SaveJob) : ¬ IsRoot j.temp := by
  obtain ⟨way, htemp⟩ := j.exists_temp_eq
  have hlong := j.length_tempName
  rintro (hroot | hroot)
  · rw [hroot] at htemp
    exact List.append_ne_nil_of_right_ne_nil way (List.cons_ne_nil _ _) htemp.symm
  · have hlast := congrArg List.getLast? (hroot.symm.trans htemp)
    rw [List.getLast?_concat] at hlast
    rw [← Option.some.inj hlast] at hlong
    exact absurd hlong (by decide)

/-- A temporary file is not at the target. -/
theorem temp_ne_target (j : SaveJob) : j.temp ≠ j.target := by
  unfold temp
  split
  · rename_i name hname
    obtain ⟨way, htarget⟩ := placeOf_of_fileName? hname
    intro heq
    have hplace : j.target = way ++ [name] := htarget
    -- in one folder the two would have one name, but the longer one has a number behind it
    have hname' : j.tempName = name := by
      rw [hplace, List.dropLast_concat] at heq
      exact List.singleton_inj.1 (List.append_cancel_left heq)
    have hlength := congrArg List.length hname'
    rw [tempName, hname] at hlength
    simp only [List.length_append, List.length_cons, Option.getD_some] at hlength
    omega
  · intro heq
    have hlength := congrArg List.length heq
    rw [List.length_append, List.length_singleton] at hlength
    omega

/-- Saves of one process to one path have temporary files of their own. -/
theorem temp_ne_temp (hpath : j.path = j'.path) (hprocess : j.process = j'.process)
    (hnumber : j.number ≠ j'.number) : j.temp ≠ j'.temp := by
  intro heq
  obtain ⟨way, htemp⟩ := j.exists_temp_eq
  obtain ⟨way', htemp'⟩ := j'.exists_temp_eq
  have hname : j.tempName = j'.tempName := by
    have hlast := congrArg List.getLast? (htemp.symm.trans (heq.trans htemp'))
    rw [List.getLast?_concat, List.getLast?_concat] at hlast
    exact Option.some.inj hlast
  unfold tempName at hname
  rw [hpath, hprocess] at hname
  have hdigits := List.append_cancel_left (List.append_cancel_right hname)
  exact hnumber (natText_injective (List.cons.inj hdigits).2)

/-! ## One step

What a step can do is listed once, with the stage that follows.  Of the target only one entry of the
list speaks, in which the temporary file is moved to its place. -/

/-- What one step of a save can do: the disk and the stage behind it. -/
inductive Does (d : Disk) (j : SaveJob) : Disk → SaveStage → Prop
  | folders {d' : Disk} (hstage : j.stage = .start) (h : d.makeFolders j.folder = .ok d') : Does d j d' .ready
  | created (hstage : j.stage = .ready) : Does d j (d.put j.temp (.file [])) .created
  | written (hstage : j.stage = .created) : Does d j (d.put j.temp (.file (encode j.body))) .written
  | torn (hstage : j.stage = .created) (kept : Nat) (e : Failure) :
      Does d j (d.put j.temp (.file ((encode j.body).take kept))) (.ended (some e))
  | synced (hstage : j.stage = .written) : Does d j d .synced
  | renamed {d' : Disk} (hstage : j.stage = .synced) (h : d.rename j.temp j.target = .ok d') :
      Does d j d' (.ended none)
  | refused (hstage : j.stage = .synced) (cause : Text) : Does d j d (.undoing cause)
  | removed (e : Failure) : Does d j (d.remove j.temp) (.ended (some e))
  | gaveUp (e : Failure) : Does d j d (.ended (some e))
  | ended (failure : Option Failure) (hstage : j.stage = .ended failure) : Does d j d (.ended failure)

/-- What succeeds was not kept from it by a fault. -/
theorem of_attempt {r : Except DiskError Disk} (h : attempt fault r = .ok d) : r = .ok d := by
  cases fault with
  | none => exact h
  | some f => exact nomatch h

/-- A step does one of the things that are listed. -/
theorem does_step (fault : Option DiskFault) (d : Disk) (j : SaveJob) :
    Does d j (j.step fault d).1 (j.step fault d).2.stage := by
  -- stage by stage, and at each by whether it was struck
  unfold step
  split
  · rename_i hstage
    split
    · rename_i h
      exact .folders hstage (of_attempt h)
    · exact .gaveUp _
  · rename_i hstage
    split
    · rename_i h
      rw [Disk.create_eq (of_attempt h)]
      exact .created hstage
    · exact .gaveUp _
  · rename_i hstage
    split
    · exact .torn hstage _ _
    · exact .written hstage
  · rename_i hstage
    split
    · exact .gaveUp _
    · exact .synced hstage
  · rename_i hstage
    split
    · rename_i h
      exact .renamed hstage (of_attempt h)
    · exact .refused hstage _
  · dsimp only
    split
    · exact .gaveUp _
    · exact .removed _
  · rename_i hstage
    rw [hstage]
    exact .ended _ hstage

/-- A step changes nothing of a save but how far it has come. -/
theorem step_eq (fault : Option DiskFault) (d : Disk) (j : SaveJob) :
    (j.step fault d).2 = { j with stage := (j.step fault d).2.stage } := by
  unfold step
  split
  · split
    · rfl
    · rfl
  · split
    · rfl
    · rfl
  · split
    · rfl
    · rfl
  · split
    · rfl
    · rfl
  · split
    · rfl
    · rfl
  · rfl
  · rfl

end SaveJob

/-- What the disk holds for a path, as a reader of the file sees it.  A path that does not name what it
    leads to leads to a folder, if to anything, and making the folders on the way may bring that one into
    being; so only a file counts there. -/
def Disk.register (d : Disk) (path : Text) : Option DiskNode :=
  match fileName? path with
  | some _ => d.at? (placeOf path)
  | none => (d.at? (placeOf path)).filter (· ≠ .folder)

/-- What a path leads to depends on the place alone. -/
theorem Disk.register_congr {d d' : Disk} {path : Text}
    (h : d'.at? (placeOf path) = d.at? (placeOf path)) : d'.register path = d.register path := by
  unfold register
  rw [h]

/-- A file counts whether the path names it or not. -/
theorem Disk.register_of_file {d : Disk} {path : Text} {bytes : List UInt8}
    (h : d.at? (placeOf path) = some (.file bytes)) : d.register path = some (.file bytes) := by
  unfold register
  rw [h]
  split
  · rfl
  · rfl

namespace SaveJob

variable {d d' : Disk} {j : SaveJob} {stage : SaveStage} {q : Place} {bytes : List UInt8}

/-- Whether the temporary file is complete, as it has to be before it is moved. -/
def HasBody (d : Disk) (j : SaveJob) : Prop :=
  j.stage = .written ∨ j.stage = .synced → d.at? j.temp = some (.file (encode j.body))

/-- At first there is no file that would have to be complete. -/
theorem hasBody_make (path body : Text) (process number : Nat) (d : Disk) :
    (make path body process number).HasBody d := by
  rintro (heq | heq)
  · exact nomatch heq
  · exact nomatch heq

/-- The steps that leave a file to be moved leave it complete. -/
theorem Does.hasBody (h : Does d j d' stage) (hj : j.HasBody d) :
    ({ j with stage := stage } : SaveJob).HasBody d' := by
  cases h with
  | written hstage => exact fun _ => Disk.at?_put_self j.not_isRoot_temp d _
  | synced hstage => exact fun _ => hj (Or.inl hstage)
  | folders | created | torn | renamed | refused | removed | gaveUp | ended =>
    rintro (heq | heq)
    · exact nomatch heq
    · exact nomatch heq

/-- A step leaves the files of others alone. -/
theorem Does.at?_of_file (h : Does d j d' stage) (htemp : q ≠ j.temp) (htarget : q ≠ j.target)
    (hq : d.at? q = some (.file bytes)) : d'.at? q = some (.file bytes) := by
  cases h with
  -- a folder is made only where nothing is
  | folders hstage h =>
    rcases Disk.at?_makeFolders h q with hsame | ⟨-, hnone, -⟩
    · rw [hsame, hq]
    · exact nomatch hnone.symm.trans hq
  | created | written | torn => rw [Disk.at?_put_of_ne htemp, hq]
  | renamed hstage h =>
    obtain ⟨n, -, -, -, rfl⟩ := Disk.rename_eq h
    rw [Disk.at?_put_of_ne htarget, Disk.at?_remove_of_ne htemp, hq]
  | removed => rw [Disk.at?_remove_of_ne htemp, hq]
  | synced | refused | gaveUp | ended => exact hq

/-- The target is not on the way to the folder that is made, unless its path does not name it. -/
theorem target_not_mem_waysTo {name : Text} (h : fileName? j.path = some name) :
    j.target ∉ waysTo j.folder := by
  obtain ⟨way, htarget⟩ := placeOf_of_fileName? h
  intro hmem
  have hlength := length_le_of_mem_waysTo hmem
  have hplace : j.target = way ++ [name] := htarget
  unfold folder at hlength
  rw [h, hplace] at hlength
  simp only [List.dropLast_concat, List.length_append, List.length_singleton] at hlength
  omega

/-- **The file changes in one step only**, in which a save succeeds, and then it holds all that was saved. -/
theorem Does.register (h : Does d j d' stage) (hj : j.HasBody d) :
    d'.register j.path = d.register j.path ∨
      (stage = .ended none ∧ d'.register j.path = some (.file (encode j.body))) := by
  -- a path never leads to the temporary file
  have htemp : placeOf j.path ≠ j.temp := j.temp_ne_target.symm
  cases h with
  | folders hstage h =>
    left
    rcases Disk.at?_makeFolders h (placeOf j.path) with hsame | ⟨hmem, hnone, hfolder⟩
    · exact Disk.register_congr hsame
    · cases hname : fileName? j.path with
      | some name => exact absurd hmem (target_not_mem_waysTo hname)
      | none =>
        unfold Disk.register
        rw [hname, hnone, hfolder]
        rfl
  | created | written | torn => exact Or.inl (Disk.register_congr (Disk.at?_put_of_ne htemp _ _))
  | renamed hstage h =>
    right
    obtain ⟨n, hsource, -, hroot, rfl⟩ := Disk.rename_eq h
    obtain rfl := Option.some.inj (hsource.symm.trans (hj (Or.inr hstage)))
    exact ⟨rfl, Disk.register_of_file (Disk.at?_put_self hroot _ _)⟩
  | removed => exact Or.inl (Disk.register_congr (Disk.at?_remove_of_ne htemp _))
  | synced | refused | gaveUp | ended => exact Or.inl rfl

/-! ## A save without faults

A save has only so many steps, whatever faults strike it.  It reports no failure only if its file was
moved to its place, and that file was complete then. -/

/-- A save that has ended does nothing. -/
theorem step_of_ended {failure : Option Failure} (h : j.stage = .ended failure)
    (fault : Option DiskFault) (d : Disk) : j.step fault d = (d, j) := by
  simp only [step, h]

/-- A temporary file is not nearer to the root than its target. -/
theorem length_target_le_temp (j : SaveJob) : j.target.length ≤ j.temp.length := by
  unfold temp
  split
  · rw [List.length_append, List.length_dropLast, List.length_singleton]
    omega
  · rw [List.length_append]
    omega

/-- A file that was moved to its place can be read there. -/
theorem read_of_rename (hbody : d.at? j.temp = some (.file (encode j.body)))
    (h : d.rename j.temp j.target = .ok d') : d'.read j.target = .ok (encode j.body) := by
  obtain ⟨n, hsource, hblocked, hroot, rfl⟩ := Disk.rename_eq h
  obtain rfl := Option.some.inj (hsource.symm.trans hbody)
  -- the folders on the way are nearer to the root than either of the two files
  have hways : ∀ way ∈ (waysTo j.target).dropLast,
      ((d.remove j.temp).put j.target (.file (encode j.body))).at? way = d.at? way := by
    intro way hway
    have hshort := mem_waysTo_dropLast hway
    have hlong := j.length_target_le_temp
    have htarget : way ≠ j.target := fun heq => by rw [heq] at hshort; omega
    have htemp : way ≠ j.temp := fun heq => by rw [heq] at hshort; omega
    rw [Disk.at?_put_of_ne htarget, Disk.at?_remove_of_ne htemp]
  unfold Disk.read
  rw [Disk.blocked?_congr hways, hblocked, Disk.at?_put_self hroot]

/-- How many steps a save has before it, at the most. -/
def stepsLeft : SaveStage → Nat
  | .start => 6
  | .ready => 5
  | .created => 4
  | .written => 3
  | .synced => 2
  | .undoing _ => 1
  | .ended _ => 0

/-- What holds of a save that is alone. -/
structure Alone (d : Disk) (j : SaveJob) : Prop where
  hasBody : j.HasBody d
  read_of_saved : j.stage = .ended none → d.read j.target = .ok (encode j.body)

/-- Each step of a save that is alone keeps this. -/
theorem Does.alone (h : Does d j d' stage) (hj : j.Alone d) :
    ({ j with stage := stage } : SaveJob).Alone d' where
  hasBody := h.hasBody hj.hasBody
  read_of_saved := by
    rintro rfl
    cases h with
    | renamed hstage h => exact read_of_rename (hj.hasBody (Or.inr hstage)) h
    | ended _ hstage => exact hj.read_of_saved hstage

/-- Each step brings a save nearer to its end. -/
theorem Does.stepsLeft_le (h : Does d j d' stage) : stepsLeft stage ≤ stepsLeft j.stage - 1 := by
  cases h with
  | folders hstage | created hstage | written hstage | torn hstage | synced hstage | renamed hstage
    | refused hstage | ended _ hstage =>
    rw [hstage]
    simp only [stepsLeft]
    omega
  | removed | gaveUp => exact Nat.zero_le _

/-- With no step left, a save has ended. -/
theorem exists_ended_of_stepsLeft (h : stepsLeft stage = 0) : ∃ failure, stage = .ended failure := by
  cases stage with
  | ended failure => exact ⟨failure, rfl⟩
  | start | ready | created | written | synced | undoing => exact nomatch h

/-- What every step preserves holds after some steps, whatever trouble there is at the stages, and each of
    them brings the save nearer to its end. -/
theorem foldl_step {P : Disk → SaveJob → Prop} (trouble : SaveStage → Option DiskFault)
    (hstep : ∀ d j, P d j → P (j.step (trouble j.stage) d).1 (j.step (trouble j.stage) d).2)
    (h : P d j) (l : List Nat) :
    ∃ d' stage, l.foldl (fun s _ => step (trouble s.2.stage) s.1 s.2) (d, j) = (d', { j with stage := stage }) ∧
      P d' { j with stage := stage } ∧ stepsLeft stage ≤ stepsLeft j.stage - l.length := by
  induction l generalizing d j with
  | nil => exact ⟨d, j.stage, rfl, h, Nat.le_refl _⟩
  | cons _ l ih =>
    obtain ⟨d', stage, hfold, hlater, hleft⟩ := ih (hstep d j h)
    -- a later step starts from the same save at another stage
    have hjob : ({ (j.step (trouble j.stage) d).2 with stage := stage } : SaveJob) = { j with stage := stage } := by
      rw [step_eq]
    rw [hjob] at hfold hlater
    refine ⟨d', stage, hfold, hlater, ?_⟩
    have hnearer := (j.does_step (trouble j.stage) d).stepsLeft_le
    rw [List.length_cons]
    omega

/-- A step of a save that is alone keeps what is said of one, whatever fault strikes it. -/
theorem Alone.step (h : j.Alone d) (fault : Option DiskFault) :
    (j.step fault d).2.Alone (j.step fault d).1 := by
  have halone := (j.does_step fault d).alone h
  rwa [← step_eq] at halone

/-- A save that reports no failure has put all of its text where the path leads. -/
theorem read_of_run {path body : Text} {process number : Nat}
    (h : ((make path body process number).run d).2 = none) :
    ((make path body process number).run d).1.read (placeOf path) = .ok (encode body) := by
  have hstart : (make path body process number).Alone d :=
    ⟨hasBody_make path body process number d, fun hended => nomatch hended⟩
  -- six steps are enough, since each of them leaves one less
  obtain ⟨d', stage, hfold, halone, hleft⟩ :=
    foldl_step (P := fun d j => j.Alone d) (fun _ => none) (fun _ _ h => h.step none) hstart (List.range 6)
  obtain ⟨failure, rfl⟩ := exists_ended_of_stepsLeft (Nat.le_zero.1 hleft)
  have hrun : (make path body process number).run d = (d', failure) := by
    unfold run
    rw [hfold]
  rw [hrun] at h ⊢
  obtain rfl : failure = none := h
  exact halone.read_of_saved rfl

end SaveJob

end TunnelBoard
