import TunnelBoard.Preferences.Basic
import TunnelBoard.Proofs.Preferences.SaveSteps
/-
  What a save leaves behind.

  The temporary file goes away when it is moved, and when it cannot be moved it is removed.  Trouble before
  the file is made leaves none.  Trouble in writing or in syncing it ends the save at once, and the file stays.
  A save comes to each stage at most once, so trouble is said stage by stage.
-/

namespace TunnelBoard

namespace Disk

variable {d d' : Disk} {p q : Place}

/-- Whether there is a file at a place. -/
def HasFile (d : Disk) (p : Place) : Prop := ∃ bytes, d.at? p = some (.file bytes)

/-- There is no file where the disk has nothing. -/
theorem not_hasFile_of_none (h : d.at? p = none) : ¬ d.HasFile p := by
  rintro ⟨bytes, hbytes⟩
  exact nomatch h.symm.trans hbytes

/-- Making folders makes no file. -/
theorem not_hasFile_of_makeFolders (h : d.makeFolders p = .ok d') (hq : ¬ d.HasFile q) : ¬ d'.HasFile q := by
  rintro ⟨bytes, hbytes⟩
  rcases at?_makeFolders h q with hsame | ⟨-, -, hfolder⟩
  · exact hq ⟨bytes, hsame.symm.trans hbytes⟩
  · exact nomatch hfolder.symm.trans hbytes

end Disk

namespace SaveJob

/-- A save from start to end with some trouble at its stages. -/
def troubled (trouble : SaveStage → Option DiskFault) (d : Disk) (j : SaveJob) : Disk × SaveJob :=
  (List.range 6).foldl (fun s _ => step (trouble s.2.stage) s.1 s.2) (d, j)

/-- Whether a save gets to the point where its temporary file is there. -/
def Makes (trouble : SaveStage → Option DiskFault) (d : Disk) (j : SaveJob) : Prop :=
  ∃ d₁ d₂, attempt (trouble .start) (d.makeFolders j.folder) = .ok d₁ ∧
    attempt (trouble .ready) (d₁.create j.temp) = .ok d₂

variable {trouble : SaveStage → Option DiskFault} {d d₀ d' : Disk} {j : SaveJob} {stage : SaveStage}

/-- What is known of a save at each of its stages, where `d₀` is the disk that it began with. -/
def Known (trouble : SaveStage → Option DiskFault) (d₀ : Disk) (j : SaveJob) (d : Disk) : SaveStage → Prop
  | .start => d = d₀
  | .ready => attempt (trouble .start) (d₀.makeFolders j.folder) = .ok d
  | .created => Makes trouble d₀ j
  | .written => Makes trouble d₀ j ∧ trouble .created = none ∧ d.HasFile j.temp
  | .synced | .undoing _ => trouble .created = none ∧ trouble .written = none
  | .ended failure =>
    (d.HasFile j.temp ↔ Makes trouble d₀ j ∧ (trouble .created ≠ none ∨ trouble .written ≠ none)) ∧
      (d.HasFile j.temp → failure ≠ none)

/-- What was put somewhere is a file there. -/
theorem hasFile_put_self (bytes : List UInt8) : (d.put j.temp (.file bytes)).HasFile j.temp :=
  ⟨bytes, Disk.at?_put_self j.not_isRoot_temp d _⟩

/-- A save that ends before its temporary file is made leaves none. -/
theorem known_ended_of_not_makes (hfile : ¬ d.HasFile j.temp) (hmakes : ¬ Makes trouble d₀ j)
    (failure : Option Failure) : Known trouble d₀ j d (.ended failure) :=
  ⟨⟨fun hleft => absurd hleft hfile, fun hmade => absurd hmade.1 hmakes⟩, fun hleft => absurd hleft hfile⟩

/-- A save that ends with its temporary file gone had no trouble with what is in it. -/
theorem known_ended_of_gone (hfile : ¬ d.HasFile j.temp)
    (hquiet : trouble .created = none ∧ trouble .written = none) (failure : Option Failure) :
    Known trouble d₀ j d (.ended failure) :=
  ⟨⟨fun hleft => absurd hleft hfile, fun hstruck => by simp [hquiet] at hstruck⟩,
    fun hleft => absurd hleft hfile⟩

/-- A save that is struck while its temporary file is there leaves it. -/
theorem known_ended_of_struck (hfile : d.HasFile j.temp) (hmakes : Makes trouble d₀ j)
    (hstruck : trouble .created ≠ none ∨ trouble .written ≠ none) (e : Failure) :
    Known trouble d₀ j d (.ended (some e)) :=
  ⟨⟨fun _ => ⟨hmakes, hstruck⟩, fun _ => hfile⟩, fun _ => nofun⟩

/-- What is known of a save stays true with every step, if the file can be removed when it should be. -/
theorem known_step (hremove : ∀ cause, trouble (.undoing cause) = none) (hfile : ¬ d₀.HasFile j.temp)
    (h : Known trouble d₀ j d j.stage) :
    Known trouble d₀ j (j.step (trouble j.stage) d).1 (j.step (trouble j.stage) d).2.stage := by
  cases hstage : j.stage with
  | start =>
    rw [hstage] at h
    obtain rfl : d = d₀ := h
    simp only [step, hstage]
    cases hfolders : attempt (trouble .start) (d.makeFolders j.folder) with
    | ok d₁ => exact hfolders
    | error e =>
      refine known_ended_of_not_makes hfile ?_ _
      rintro ⟨d₁, d₂, hmade, -⟩
      cases hfolders.symm.trans hmade
  | ready =>
    rw [hstage] at h
    have hready : attempt (trouble .start) (d₀.makeFolders j.folder) = .ok d := h
    simp only [step, hstage]
    cases hcreate : attempt (trouble .ready) (d.create j.temp) with
    | ok d₂ => exact ⟨d, d₂, hready, hcreate⟩
    | error e =>
      refine known_ended_of_not_makes (Disk.not_hasFile_of_makeFolders (of_attempt hready) hfile) ?_ _
      rintro ⟨d₁, d₂, hmade, hcreated⟩
      obtain rfl := Except.ok.inj (hready.symm.trans hmade)
      cases hcreate.symm.trans hcreated
  | created =>
    rw [hstage] at h
    simp only [step, hstage]
    cases htrouble : trouble .created with
    | none => exact ⟨h, htrouble, hasFile_put_self _⟩
    | some f =>
      -- the save ends here with what was written of the file
      exact known_ended_of_struck (hasFile_put_self _) h (.inl (by simp [htrouble])) _
  | written =>
    rw [hstage] at h
    obtain ⟨hmakes, hcreated, hbody⟩ := h
    simp only [step, hstage]
    cases htrouble : trouble .written with
    | none => exact ⟨hcreated, htrouble⟩
    | some f => exact known_ended_of_struck hbody hmakes (.inr (by simp [htrouble])) _
  | synced =>
    rw [hstage] at h
    simp only [step, hstage]
    cases hrename : attempt (trouble .synced) (d.rename j.temp j.target) with
    | error e => exact h
    | ok d' =>
      -- moved away, since the target is another place
      obtain ⟨n, -, -, -, rfl⟩ := Disk.rename_eq (of_attempt hrename)
      refine known_ended_of_gone (Disk.not_hasFile_of_none ?_) h _
      rw [Disk.at?_put_of_ne j.temp_ne_target, Disk.at?_remove_self j.not_isRoot_temp]
  | undoing cause =>
    rw [hstage] at h
    simp only [step, hstage, hremove]
    exact known_ended_of_gone (Disk.not_hasFile_of_none (Disk.at?_remove_self j.not_isRoot_temp d)) h _
  | ended failure =>
    rw [hstage] at h
    simp only [step, hstage]
    exact h

/-- **A save leaves its temporary file behind exactly if it came to making it and was struck in writing or
    in syncing it**, and it reports a failure then.  In all other cases it leaves none: not if it succeeds,
    not if the folder or the file cannot be made, and not if the file cannot be moved. -/
theorem left_behind_iff_struck (d : Disk) (j : SaveJob) (hstart : j.stage = .start)
    (trouble : SaveStage → Option DiskFault) (hremove : ∀ cause, trouble (.undoing cause) = none)
    (hfile : ¬ d.HasFile j.temp) :
    ∃ d' failure, j.troubled trouble d = (d', { j with stage := .ended failure }) ∧
      (d'.HasFile j.temp ↔ j.Makes trouble d ∧ (trouble .created ≠ none ∨ trouble .written ≠ none)) ∧
      (d'.HasFile j.temp → failure ≠ none) := by
  -- what is known of a save is kept by each of its steps, and it holds at the start
  have hstep : ∀ d' j', (¬ d.HasFile j'.temp ∧ Known trouble d j' d' j'.stage) →
      ¬ d.HasFile (j'.step (trouble j'.stage) d').2.temp ∧
        Known trouble d (j'.step (trouble j'.stage) d').2 (j'.step (trouble j'.stage) d').1
          (j'.step (trouble j'.stage) d').2.stage := by
    rintro d' j' ⟨hfile', hknown⟩
    have hnext := known_step hremove hfile' hknown
    rw [step_eq]
    exact ⟨hfile', hnext⟩
  have hbegin : ¬ d.HasFile j.temp ∧ Known trouble d j d j.stage := by
    rw [hstart]
    exact ⟨hfile, rfl⟩
  obtain ⟨d', stage, hfold, ⟨-, hknown⟩, hleft⟩ :=
    foldl_step trouble hstep hbegin (List.range 6)
  rw [hstart] at hleft
  -- six steps are enough for a save to end
  obtain ⟨failure, rfl⟩ := exists_ended_of_stepsLeft (Nat.le_zero.1 hleft)
  exact ⟨d', failure, hfold, hknown⟩

/-- A file that cannot be moved onto a folder is not left behind. -/
theorem none_left_beside_folder :
    let j := make "p.toml".toList Preferences.standard.write 7 0
    let d : Disk := ⟨[(["p.toml".toList], .folder)]⟩
    ∃ d', j.troubled (fun _ => none) d =
        (d', { j with stage := .ended (some (.fileAccess "p.toml".toList DiskError.isFolder.message)) }) ∧
      ¬ d'.HasFile j.temp := by
  intro j d
  obtain ⟨d', failure, hrun, hleft, -⟩ := left_behind_iff_struck d j rfl (fun _ => none) (fun _ => rfl)
    (Disk.not_hasFile_of_none (by decide))
  have hended : (j.troubled (fun _ => none) d).2.stage =
      .ended (some (.fileAccess "p.toml".toList DiskError.isFolder.message)) := by decide
  rw [hrun] at hended
  obtain rfl := SaveStage.ended.inj hended
  refine ⟨d', hrun, fun hfile => ?_⟩
  obtain ⟨-, hstruck⟩ := hleft.1 hfile
  simp at hstruck

/-- A disk that is full after four bytes keeps them, although the save reports its failure and nothing keeps
    the file from being removed. -/
theorem four_bytes_left_behind :
    let j := make "p.toml".toList Preferences.standard.write 7 0
    let full : SaveStage → Option DiskFault
      | .created => some ⟨"No space left on device (os error 28)".toList, 4⟩
      | _ => none
    (∀ cause, full (.undoing cause) = none) ∧ ¬ Disk.empty.HasFile j.temp ∧
      (j.troubled full Disk.empty).2.stage = .ended
        (some (.fileAccess "p.toml.7.0.tmp".toList "No space left on device (os error 28)".toList)) ∧
      (j.troubled full Disk.empty).1.HasFile j.temp := by
  refine ⟨fun _ => rfl, Disk.not_hasFile_of_none rfl, ?_, ?_⟩
  · decide
  · exact ⟨encode "sche".toList, by decide⟩

end SaveJob
end TunnelBoard
