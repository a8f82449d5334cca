import Mathlib.Data.List.Induction
import TunnelBoard.Proofs.Session.Flatten
/-
  Where the effects of a command stand in its tree.

  A place in a tree is the way down to it, and of two leaves the one is to the left of the other that
  is in an earlier part of the batch where their ways part.  So there is one list of the places of all
  leaves that are not empty, from left to right (`Leaves`), and what is read there is what the command
  flattens to (`exists_leaves`).

  The list is made from the parts of a batch, added at its end one by one (`Leaves.snoc`): what stands
  in an earlier part stays where it is, and the new part is to the right of all that.  Adding at the
  end is what keeps the numbers of the parts; a part in front would shift all the others.
-/

namespace TunnelBoard
namespace Command

variable {ε : Type} {c d : Command ε} {parts : List (Command ε)} {places : List (List Nat)}
  {i : Nat} {p : List Nat}

/-! ## Places -/

/-- What stands at a place of a tree.  A place is the way down to it: at each batch, the number of the
    part that it is in. -/
def at? : Command ε → List Nat → Option (Command ε)
  | c, [] => some c
  | batch parts, i :: p => parts[i]?.bind fun c => c.at? p
  | _, _ :: _ => .none

/-- A place is to the left of another one if it is in an earlier part where their ways part. -/
inductive IsLeft : List Nat → List Nat → Prop where
  | parted {i j : Nat} (earlier : i < j) (p q : List Nat) : IsLeft (i :: p) (j :: q)
  | together (i : Nat) {p q : List Nat} (left : IsLeft p q) : IsLeft (i :: p) (i :: q)

/-- The places of all leaves of a tree but the empty ones, from left to right. -/
structure Leaves (c : Command ε) (places : List (List Nat)) : Prop where
  ascending : places.Pairwise IsLeft
  mem_iff : ∀ p, p ∈ places ↔ ∃ e, c.at? p = some (one e)

/-- In a batch, the way goes on in the part that it names. -/
theorem at?_batch_cons (parts : List (Command ε)) (i : Nat) (p : List Nat) :
    (batch parts).at? (i :: p) = parts[i]?.bind fun c => c.at? p := rfl

/-- A place in a batch is in one of its parts. -/
theorem lt_of_at?_batch (h : (batch parts).at? (i :: p) = some d) : i < parts.length := by
  rw [at?_batch_cons] at h
  obtain ⟨c, hc, -⟩ := Option.bind_eq_some_iff.1 h
  exact (List.getElem?_eq_some_iff.1 hc).1

/-- A part that is added at the end leaves the others as they are. -/
theorem at?_snoc_of_lt (h : i < parts.length) (c : Command ε) (p : List Nat) :
    (batch (parts ++ [c])).at? (i :: p) = (batch parts).at? (i :: p) := by
  rw [at?_batch_cons, at?_batch_cons, List.getElem?_append_left h]

/-- The part that is added is found behind all others. -/
theorem at?_snoc_length (parts : List (Command ε)) (c : Command ε) (p : List Nat) :
    (batch (parts ++ [c])).at? (parts.length :: p) = c.at? p := by
  rw [at?_batch_cons, List.getElem?_concat_length]
  rfl

/-! ## Leaves

The ways from the root to the leaves of a batch begin with the place of the part that the leaf is in.
So a batch is built by adding parts at its end, which lie to the right of all leaves there were. -/

namespace Leaves

/-- A tree with an effect at no place has no leaves but empty ones. -/
theorem of_empty (h : ∀ p e, c.at? p ≠ some (Command.one e)) : Leaves c [] := by
  refine ⟨List.Pairwise.nil, fun p => ⟨fun hp => absurd hp List.not_mem_nil, ?_⟩⟩
  rintro ⟨e, he⟩
  exact absurd he (h p e)

/-- The empty command has no leaves. -/
theorem none : Leaves (Command.none : Command ε) [] := by
  refine of_empty fun p e he => ?_
  cases p with
  | nil => cases he
  | cons i p => cases he

/-- Neither has an empty batch. -/
theorem nil : Leaves (batch [] : Command ε) [] := by
  refine of_empty fun p e he => ?_
  cases p with
  | nil => cases he
  | cons i p => exact absurd (lt_of_at?_batch he) (Nat.not_lt_zero i)

/-- A single effect is its own leaf, with no way to go. -/
theorem one (e : ε) : Leaves (Command.one e) [[]] := by
  refine ⟨List.pairwise_singleton _ _, fun p => ⟨fun hp => ?_, ?_⟩⟩
  · rw [List.mem_singleton.1 hp]
    exact ⟨e, rfl⟩
  · rintro ⟨f, hf⟩
    cases p with
    | nil => exact List.mem_singleton_self []
    | cons i p => cases hf

/-- A batch is no leaf itself, so its leaves are in its parts. -/
theorem exists_cons (h : Leaves (batch parts) places) (hp : p ∈ places) :
    ∃ i q, p = i :: q ∧ i < parts.length := by
  obtain ⟨e, he⟩ := (h.mem_iff p).1 hp
  cases p with
  | nil => cases he
  | cons i q => exact ⟨i, q, rfl, lt_of_at?_batch he⟩

/-- A part that is added at the end brings its leaves, to the right of those before it. -/
theorem snoc (h : Leaves (batch parts) places) {inside : List (List Nat)} (hc : Leaves c inside) :
    Leaves (batch (parts ++ [c])) (places ++ inside.map (parts.length :: ·)) := by
  refine ⟨List.pairwise_append.2 ⟨h.ascending, ?_, ?_⟩, fun p => ?_⟩
  · -- within the new part, nothing changes
    rw [List.pairwise_map]
    exact hc.ascending.imp fun hleft => .together _ hleft
  · -- all leaves before it are in earlier parts
    intro p hp q hq
    obtain ⟨i, p, rfl, hi⟩ := h.exists_cons hp
    obtain ⟨q, -, rfl⟩ := List.mem_map.1 hq
    exact .parted hi p q
  · rw [List.mem_append, h.mem_iff, List.mem_map]
    -- a way into the batch goes into a part before the new one, or into that one
    constructor
    · rintro (⟨e, he⟩ | ⟨q, hq, rfl⟩)
      · cases p with
        | nil => cases he
        | cons i p => exact ⟨e, (at?_snoc_of_lt (lt_of_at?_batch he) c p).trans he⟩
      · obtain ⟨e, he⟩ := (hc.mem_iff q).1 hq
        exact ⟨e, (at?_snoc_length parts c q).trans he⟩
    · rintro ⟨e, he⟩
      cases p with
      | nil => cases he
      | cons i p =>
        have hi : i < parts.length + 1 := by
          have hlt := lt_of_at?_batch he
          rwa [List.length_append, List.length_singleton] at hlt
        rcases Nat.lt_or_eq_of_le (Nat.le_of_lt_succ hi) with hi | rfl
        · exact Or.inl ⟨e, (at?_snoc_of_lt hi c p).symm.trans he⟩
        · rw [at?_snoc_length] at he
          exact Or.inr ⟨p, (hc.mem_iff p).2 ⟨e, he⟩, rfl⟩

end Leaves

/-- **The effects of a command are the leaves of its tree**, from left to right: all but the empty ones,
    each where it stands, and no batch among them. -/
theorem exists_leaves (c : Command ε) :
    ∃ places, c.Leaves places ∧ places.map c.at? = c.flatten.map fun e => some (one e) := by
  induction c using Command.induction with
  | none => exact ⟨[], .none, by rw [flatten_none]; rfl⟩
  | one e => exact ⟨[[]], .one e, by rw [flatten_one]; rfl⟩
  | batch parts ih =>
    induction parts using List.reverseRecOn with
    | nil => exact ⟨[], .nil, by rw [flatten_batch]; rfl⟩
    | append_singleton parts c ihparts =>
      obtain ⟨places, hplaces, hread⟩ := ihparts fun d hd => ih d (List.mem_append_left _ hd)
      obtain ⟨inside, hinside, hreads⟩ := ih c (List.mem_append_right _ (List.mem_singleton_self c))
      refine ⟨_, hplaces.snoc hinside, ?_⟩
      -- the places of the parts before lead to the same effects as without the new one
      have hsame : places.map (batch (parts ++ [c])).at? = places.map (batch parts).at? := by
        refine List.map_congr_left fun p hp => ?_
        obtain ⟨i, p, rfl, hi⟩ := hplaces.exists_cons hp
        exact at?_snoc_of_lt hi c p
      -- and behind its own place the new part is read as on its own
      have hnew : (inside.map (parts.length :: ·)).map (batch (parts ++ [c])).at? =
          inside.map c.at? := by
        rw [List.map_map]
        exact List.map_congr_left fun p _ => at?_snoc_length parts c p
      rw [List.map_append, hsame, hnew, hread, hreads, flatten_batch, flatten_batch,
        List.flatMap_append, List.flatMap_singleton, List.map_append]

end Command
end TunnelBoard
