import Mathlib.Data.List.Basic
import TunnelBoard.Disk.Basic
/-
  What the operations of a disk leave as it is.

  Putting something at a place and removing it changes no other place.  Making folders changes no
  place where something is.  So an operation is known by the few places that it changes, and what a
  save relies on can be followed through the steps of all others.

  A disk is a list of nodes, of which the first one with a place counts, and the two roots are folders
  whatever stands in it.  What is at a place is therefore said in two parts, for roots and for all
  others (`at?_of_isRoot`, `at?_of_not_isRoot`), and no later proof looks into the list again.
  Whether the way to a place is free depends on the places before it (`waysTo`), all of which are
  shorter, so an operation at a place never blocks the way to the place itself.
-/

namespace TunnelBoard

variable {p q : Place}

/-! ## Places -/

/-- The places that are folders whatever a disk holds. -/
def IsRoot (p : Place) : Prop := p = [] ∨ p = [['/']]

theorem waysTo_eq (p : Place) : waysTo p = (waysTo p).dropLast ++ [p] := by
  rw [waysTo, List.range_succ, List.map_append, List.map_singleton, List.dropLast_concat, List.take_length]

/-- The other places on the way are shorter. -/
theorem mem_waysTo_dropLast (h : q ∈ (waysTo p).dropLast) : q.length < p.length := by
  rw [waysTo, List.range_succ, List.map_append, List.map_singleton, List.dropLast_concat] at h
  obtain ⟨k, hk, rfl⟩ := List.mem_map.1 h
  rw [List.length_take]
  exact Nat.lt_of_le_of_lt (Nat.min_le_left _ _) (List.mem_range.1 hk)

/-- No place on the way is longer. -/
theorem length_le_of_mem_waysTo (h : q ∈ waysTo p) : q.length ≤ p.length := by
  rw [waysTo_eq] at h
  rcases List.mem_append.1 h with h | h
  · exact Nat.le_of_lt (mem_waysTo_dropLast h)
  · exact Nat.le_of_eq (congrArg List.length (List.mem_singleton.1 h))

namespace Disk

variable {d d' : Disk} {n : DiskNode}

/-! ## One place -/

/-- A root is a folder. -/
theorem at?_of_isRoot (h : IsRoot p) (d : Disk) : d.at? p = some .folder := if_pos h

/-- Any other place holds what the list says. -/
theorem at?_of_not_isRoot (h : ¬ IsRoot p) (d : Disk) : d.at? p = d.nodes.lookup p := if_neg h

/-- Taking out the nodes of one place changes nothing for the others. -/
theorem lookup_filter_of_ne (h : q ≠ p) (nodes : List (Place × DiskNode)) :
    (nodes.filter fun e => e.1 ≠ p).lookup q = nodes.lookup q := by
  induction nodes with
  | nil => rfl
  | cons e nodes ih =>
    obtain ⟨place, n⟩ := e
    by_cases hplace : place = p
    · have hother : (q == place) = false := beq_eq_false_iff_ne.2 (hplace ▸ h)
      rw [List.filter_cons_of_neg (by simpa using hplace), ih, List.lookup_cons, hother]
    · rw [List.filter_cons_of_pos (by simpa using hplace), List.lookup_cons, List.lookup_cons, ih]

/-- Whatever is put at a place, the others stay as they are. -/
theorem at?_put_of_ne (h : q ≠ p) (d : Disk) (n : DiskNode) : (d.put p n).at? q = d.at? q := by
  by_cases hroot : IsRoot q
  · rw [at?_of_isRoot hroot, at?_of_isRoot hroot]
  · have hother : (q == p) = false := beq_eq_false_iff_ne.2 h
    rw [at?_of_not_isRoot hroot, at?_of_not_isRoot hroot, put, List.lookup_cons, hother]
    exact lookup_filter_of_ne h d.nodes

/-- A place holds what was put there. -/
theorem at?_put_self (h : ¬ IsRoot p) (d : Disk) (n : DiskNode) : (d.put p n).at? p = some n := by
  rw [at?_of_not_isRoot h, put, List.lookup_cons_self]

/-- Removing touches one place only. -/
theorem at?_remove_of_ne (h : q ≠ p) (d : Disk) : (d.remove p).at? q = d.at? q := by
  by_cases hroot : IsRoot q
  · rw [at?_of_isRoot hroot, at?_of_isRoot hroot]
  · rw [at?_of_not_isRoot hroot, at?_of_not_isRoot hroot]
    exact lookup_filter_of_ne h d.nodes

/-- What was removed is gone. -/
theorem at?_remove_self (h : ¬ IsRoot p) (d : Disk) : (d.remove p).at? p = none := by
  rw [at?_of_not_isRoot h, remove, List.lookup_eq_none_iff]
  intro e he
  have hother : e.1 ≠ p := of_decide_eq_true (List.mem_filter.1 he).2
  exact bne_iff_ne.2 hother.symm

/-! ## Ways -/

/-- Whether a place can be reached is a matter of the folders on the way to it. -/
theorem blocked?_congr (h : ∀ way ∈ (waysTo p).dropLast, d'.at? way = d.at? way) :
    d'.blocked? p = d.blocked? p := by
  unfold blocked?
  congr 1
  refine List.filterMap_congr fun way hway => ?_
  rw [h way hway]

/-! ## Operations -/

/-- A file that can be read is there. -/
theorem holds_of_read {bytes : List UInt8} (h : d.read p = .ok bytes) : d.holds p := by
  unfold read at h
  split at h
  · exact nomatch h
  · next hblocked hfile =>
    rw [holds, hblocked, hfile]
    rfl
  · exact nomatch h
  · exact nomatch h

/-- Making folders changes a place only from nothing to a folder. -/
theorem at?_makeFolders (h : d.makeFolders p = .ok d') (q : Place) :
    d'.at? q = d.at? q ∨ (q ∈ waysTo p ∧ d.at? q = none ∧ d'.at? q = some .folder) := by
  unfold makeFolders at h
  generalize waysTo p = ways at h ⊢
  -- the induction is on the places along the way, the shortest first
  induction ways generalizing d with
  | nil =>
    obtain rfl : d = d' := Except.ok.inj h
    exact Or.inl rfl
  | cons way ways ih =>
    rw [List.foldlM_cons] at h
    have hlift : ∀ {d₁ : Disk}, d₁.at? q = d.at? q →
        (d'.at? q = d₁.at? q ∨ (q ∈ ways ∧ d₁.at? q = none ∧ d'.at? q = some .folder)) →
        d'.at? q = d.at? q ∨ (q ∈ way :: ways ∧ d.at? q = none ∧ d'.at? q = some .folder) := by
      intro d₁ hsame hlater
      rw [hsame] at hlater
      exact hlater.imp_right fun ⟨hmem, hrest⟩ => ⟨List.mem_cons_of_mem _ hmem, hrest⟩
    -- a folder is made where nothing is; a folder stays, and a file stops the whole operation
    cases hway : d.at? way with
    | none =>
      rw [hway] at h
      have hlater := ih h
      by_cases hq : q = way
      · subst hq
        have hroot : ¬ IsRoot q := fun hroot => nomatch (at?_of_isRoot hroot d).symm.trans hway
        rw [at?_put_self hroot] at hlater
        refine Or.inr ⟨List.mem_cons_self, hway, ?_⟩
        rcases hlater with hlater | ⟨-, hnone, -⟩
        · exact hlater
        · exact nomatch hnone
      · exact hlift (at?_put_of_ne hq d .folder) hlater
    | some n =>
      rw [hway] at h
      cases n with
      | folder => exact hlift rfl (ih h)
      | file bytes => exact nomatch h

/-- A new file is empty, in the place of whatever was there. -/
theorem create_eq (h : d.create p = .ok d') : d' = d.put p (.file []) := by
  unfold create at h
  split at h
  · exact nomatch h
  · split at h
    · exact nomatch h
    · exact (Except.ok.inj h).symm

/-- A file that can be moved is there, and no folder is in its way. -/
theorem rename_eq {source target : Place} (h : d.rename source target = .ok d') :
    ∃ n, d.at? source = some n ∧ d.blocked? target = none ∧ ¬ IsRoot target ∧
      d' = (d.remove source).put target n := by
  unfold rename at h
  split at h
  · exact nomatch h
  · exact nomatch h
  · rename_i n hsource hblocked
    split at h
    · exact nomatch h
    · rename_i hfolder
      have hroot : ¬ IsRoot target := fun hroot => hfolder (decide_eq_true (at?_of_isRoot hroot d))
      exact ⟨n, hsource, hblocked, hroot, (Except.ok.inj h).symm⟩

end Disk
end TunnelBoard
