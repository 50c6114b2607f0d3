import GlslText.Interface.ColorOutput
import Mathlib.Data.List.Nodup

/-!
# Resolution of colour outputs

The colour outputs to declare are resolved from those that are written and those that are read.
Declaring the outputs that are written one after the other keeps what holds of the outputs declared
so far, and what remains in the end is only read. The law that this establishes says which outputs
are declared, in which directions and in which order, and a single list satisfies it.
-/

namespace GlslText

/-! ## The law of resolution -/

/-- Outputs stand in the order of declaration: those that are written come first, by first
occurrence among the targets, and those that are only read follow with ascending locations. -/
def InDeclarationOrder (targets : List Nat) (outputs : List ColorOutput) : Prop :=
  ∃ written readOnly, outputs = written ++ readOnly ∧
    (∀ output ∈ written, output.location ∈ targets) ∧
    written.Pairwise (fun earlier later =>
      targets.idxOf earlier.location < targets.idxOf later.location) ∧
    (∀ output ∈ readOnly, output.location ∉ targets) ∧
    readOnly.Pairwise fun earlier later => earlier.location < later.location

/-- What it means for outputs to be the resolution of targets, the numbers of the outputs that are
written, and of the numbers of those that are read. -/
structure Resolution (targets fetched : List Nat) (outputs : List ColorOutput) : Prop where
  /-- No location is declared twice. -/
  nodup : (outputs.map ColorOutput.location).Nodup
  /-- The locations are those that are written or read. -/
  covers : ∀ n, n ∈ outputs.map ColorOutput.location ↔ n ∈ targets ∨ n ∈ fetched
  /-- An output is declared for both directions exactly when it is read. -/
  direction : ∀ output ∈ outputs, (output.isFetched = true ↔ output.location ∈ fetched)
  order : InDeclarationOrder targets outputs

section Order

variable {targets : List Nat} {outputs outputs' : List ColorOutput}

/-- Lists in strictly ascending order of a key are equal if they have the same members. -/
theorem eq_of_pairwise_lt (key : ColorOutput → Nat)
    (sorted : outputs.Pairwise fun earlier later => key earlier < key later)
    (sorted' : outputs'.Pairwise fun earlier later => key earlier < key later)
    (same : ∀ output, output ∈ outputs ↔ output ∈ outputs') : outputs = outputs' := by
  have nodup {outputs : List ColorOutput}
      (sorted : outputs.Pairwise fun earlier later => key earlier < key later) :
      outputs.Nodup :=
    sorted.imp fun less equal => Nat.ne_of_lt less (congrArg key equal)
  refine List.Perm.eq_of_pairwise (fun _ _ _ _ less greater => ?_) sorted sorted'
    ((List.perm_ext_iff_of_nodup (nodup sorted) (nodup sorted')).2 same)
  omega

/-- In the order of declaration no location stands twice. -/
theorem InDeclarationOrder.nodup (order : InDeclarationOrder targets outputs) :
    (outputs.map ColorOutput.location).Nodup := by
  obtain ⟨written, readOnly, rfl, isTarget, byOccurrence, noTarget, isAscending⟩ := order
  rw [List.map_append, List.nodup_append]
  refine ⟨?_, List.pairwise_map.2 (isAscending.imp Nat.ne_of_lt), ?_⟩
  · refine List.pairwise_map.2 (byOccurrence.imp fun earlier same => ?_)
    rw [same] at earlier
    exact Nat.lt_irrefl _ earlier
  · rintro location first other later rfl
    obtain ⟨output, listed, rfl⟩ := List.mem_map.1 first
    obtain ⟨output', listed', same⟩ := List.mem_map.1 later
    exact noTarget output' listed' (same ▸ isTarget output listed)

/-- Only one list with given members stands in the order of declaration. -/
theorem InDeclarationOrder.unique (order : InDeclarationOrder targets outputs)
    (order' : InDeclarationOrder targets outputs')
    (same : ∀ output, output ∈ outputs ↔ output ∈ outputs') : outputs = outputs' := by
  obtain ⟨written, readOnly, rfl, isTarget, byOccurrence, noTarget, isAscending⟩ := order
  obtain ⟨written', readOnly', rfl, isTarget', byOccurrence', noTarget', isAscending'⟩ := order'
  -- Whether an output stands in the first or the second part shows by its location.
  have inFirst (output : ColorOutput) : output ∈ written ↔ output ∈ written' := by
    have both := same output
    rw [List.mem_append, List.mem_append] at both
    constructor
    · intro listed
      exact (both.1 (Or.inl listed)).resolve_right fun later =>
        noTarget' output later (isTarget output listed)
    · intro listed
      exact (both.2 (Or.inl listed)).resolve_right fun later =>
        noTarget output later (isTarget' output listed)
  have inSecond (output : ColorOutput) : output ∈ readOnly ↔ output ∈ readOnly' := by
    have both := same output
    rw [List.mem_append, List.mem_append] at both
    constructor
    · intro listed
      exact (both.1 (Or.inr listed)).resolve_left fun earlier =>
        noTarget output listed (isTarget' output earlier)
    · intro listed
      exact (both.2 (Or.inr listed)).resolve_left fun earlier =>
        noTarget' output listed (isTarget output earlier)
  rw [eq_of_pairwise_lt (fun output => targets.idxOf output.location) byOccurrence byOccurrence'
    inFirst, eq_of_pairwise_lt ColorOutput.location isAscending isAscending' inSecond]

end Order

/-- The outputs of a resolution are told by their locations and by what is read. -/
theorem Resolution.mem_iff {targets fetched : List Nat} {outputs : List ColorOutput}
    (resolution : Resolution targets fetched outputs) {output : ColorOutput} :
    output ∈ outputs ↔
      (output.location ∈ targets ∨ output.location ∈ fetched) ∧
        (output.isFetched = true ↔ output.location ∈ fetched) := by
  constructor
  · intro listed
    exact ⟨(resolution.covers _).1 (List.mem_map_of_mem listed),
      resolution.direction output listed⟩
  · rintro ⟨used, direction⟩
    obtain ⟨other, listed, location⟩ := List.mem_map.1 ((resolution.covers _).2 used)
    have isFetched : other.isFetched = output.isFetched := by
      rw [Bool.eq_iff_iff, resolution.direction other listed, direction, location]
    obtain rfl : other = output := congrArg₂ ColorOutput.mk location isFetched
    exact listed

/-! ## Ascending numbers -/

/-- Putting a number in its place keeps a list strictly ascending. -/
theorem pairwise_insertAscending {n : Nat} {numbers : List Nat}
    (sorted : numbers.Pairwise (· < ·)) : (insertAscending n numbers).Pairwise (· < ·) := by
  induction numbers with
  | nil => simp [insertAscending]
  | cons m rest ih =>
    obtain ⟨above, sortedRest⟩ := List.pairwise_cons.1 sorted
    rw [insertAscending]
    by_cases less : n < m
    · rw [if_pos less]
      refine List.pairwise_cons.2 ⟨fun k member => ?_, sorted⟩
      rcases List.mem_cons.1 member with rfl | later
      · exact less
      · exact Nat.lt_trans less (above k later)
    · rw [if_neg less]
      by_cases same : n = m
      · rw [if_pos same]
        exact sorted
      · rw [if_neg same]
        refine List.pairwise_cons.2 ⟨fun k member => ?_, ih sortedRest⟩
        rcases (mem_insertAscending n k rest).1 member with rfl | later
        · omega
        · exact above k later

/-- The numbers in ascending order are all different, the smaller in front. -/
theorem pairwise_ascending (numbers : List Nat) : (ascending numbers).Pairwise (· < ·) := by
  induction numbers with
  | nil => exact List.Pairwise.nil
  | cons n rest ih => exact pairwise_insertAscending ih

/-! ## Resolving in turn -/

namespace Resolving

/-- What a state holds once the given targets have been declared in turn. -/
structure Holds (targets fetched : List Nat) (state : Resolving) : Prop where
  /-- Just the targets are declared. -/
  locations : ∀ n, n ∈ state.declared.map ColorOutput.location ↔ n ∈ targets
  direction : ∀ output ∈ state.declared, (output.isFetched = true ↔ output.location ∈ fetched)
  byOccurrence : state.declared.Pairwise fun earlier later =>
    targets.idxOf earlier.location < targets.idxOf later.location
  /-- What is read and no target remains. -/
  remaining : ∀ n, n ∈ state.remaining ↔ n ∈ fetched ∧ n ∉ targets
  isAscending : state.remaining.Pairwise (· < ·)

variable {targets fetched : List Nat} {state : Resolving}

/-- At the beginning nothing is declared and all that is read remains. -/
theorem holds_start (fetched : List Nat) : (start fetched).Holds [] fetched where
  locations n := by simp [start]
  direction output declared := by cases declared
  byOccurrence := List.Pairwise.nil
  remaining n := by simp [start]
  isAscending := pairwise_ascending fetched

/-- The step: a target that is declared already changes nothing, and a new one is declared behind
the others and does not remain. -/
theorem Holds.declare (holds : state.Holds targets fetched) (location : Nat) :
    (state.declare location).Holds (targets ++ [location]) fetched := by
  have kept {output : ColorOutput} (declared : output ∈ state.declared) :
      (targets ++ [location]).idxOf output.location = targets.idxOf output.location :=
    List.idxOf_append_of_mem ((holds.locations _).1 (List.mem_map_of_mem declared))
  have ordered : state.declared.Pairwise fun earlier later =>
      (targets ++ [location]).idxOf earlier.location <
        (targets ++ [location]).idxOf later.location :=
    holds.byOccurrence.imp_of_mem fun first second less => by rwa [kept first, kept second]
  by_cases isDeclared : location ∈ state.declared.map ColorOutput.location
  · have isTarget : location ∈ targets := (holds.locations location).1 isDeclared
    have same (n : Nat) : n ∈ targets ++ [location] ↔ n ∈ targets := by
      rw [List.mem_append, List.mem_singleton]
      exact ⟨fun listed => listed.elim id fun equal => equal ▸ isTarget, Or.inl⟩
    rw [Resolving.declare, if_pos isDeclared]
    exact ⟨fun n => by rw [holds.locations, same], holds.direction, ordered,
      fun n => by rw [holds.remaining, same], holds.isAscending⟩
  · have noTarget : location ∉ targets := fun listed =>
      isDeclared ((holds.locations location).2 listed)
    have distinct : state.remaining.Nodup := holds.isAscending.imp Nat.ne_of_lt
    rw [Resolving.declare, if_neg isDeclared]
    refine ⟨fun n => ?_, fun output declared => ?_, ?_, fun n => ?_, ?_⟩
    · simp only [List.map_append, List.map_cons, List.map_nil, List.mem_append,
        List.mem_singleton, holds.locations]
    · rcases List.mem_append.1 declared with earlier | last
      · exact holds.direction output earlier
      · obtain rfl := List.mem_singleton.1 last
        simp [holds.remaining, noTarget]
    · refine List.pairwise_append.2 ⟨ordered, List.pairwise_singleton _ _, ?_⟩
      intro earlier first later last
      obtain rfl := List.mem_singleton.1 last
      have bound : targets.idxOf earlier.location < targets.length :=
        List.idxOf_lt_length_of_mem ((holds.locations _).1 (List.mem_map_of_mem first))
      rw [kept first, List.idxOf_append_of_notMem noTarget]
      omega
    · rw [distinct.mem_erase_iff, holds.remaining, List.mem_append, List.mem_singleton]
      grind
    · exact holds.isAscending.sublist List.erase_sublist

/-- The run: what holds of the targets so far holds once further ones are declared. -/
theorem Holds.foldl (holds : state.Holds targets fetched) (further : List Nat) :
    (further.foldl Resolving.declare state).Holds (targets ++ further) fetched := by
  induction further generalizing targets state with
  | nil => simpa using holds
  | cons location rest ih =>
    rw [List.foldl_cons, List.append_cons]
    exact ih (holds.declare location)

/-- What remains in the end is declared behind the targets. -/
theorem Holds.finish (holds : state.Holds targets fetched) :
    Resolution targets fetched state.finish := by
  have order : InDeclarationOrder targets state.finish := by
    refine ⟨_, _, rfl, fun output declared => ?_, holds.byOccurrence, fun output listed => ?_, ?_⟩
    · exact (holds.locations _).1 (List.mem_map_of_mem declared)
    · obtain ⟨location, remains, rfl⟩ := List.mem_map.1 listed
      exact ((holds.remaining location).1 remains).2
    · exact List.pairwise_map.2 holds.isAscending
  refine ⟨order.nodup, fun n => ?_, fun output declared => ?_, order⟩
  · simp only [Resolving.finish, List.map_append, List.map_map, Function.comp_def, List.map_id',
      List.mem_append, holds.locations, holds.remaining]
    by_cases isTarget : n ∈ targets <;> simp [isTarget]
  · rcases List.mem_append.1 declared with written | readOnly
    · exact holds.direction output written
    · obtain ⟨location, remains, rfl⟩ := List.mem_map.1 readOnly
      simp [((holds.remaining location).1 remains).1]

end Resolving

section Resolve

variable {targets fetched : List Nat}

/-- Declaring the targets in turn and then what remains obeys the law of resolution. -/
theorem resolution_resolveLocations :
    Resolution targets fetched (resolveLocations targets fetched) := by
  have holds := (Resolving.holds_start fetched).foldl targets
  exact holds.finish

/-- The law of resolution leaves no choice. -/
theorem eq_resolveLocations_iff {outputs : List ColorOutput} :
    outputs = resolveLocations targets fetched ↔ Resolution targets fetched outputs := by
  constructor
  · rintro rfl
    exact resolution_resolveLocations
  · intro resolution
    refine resolution.order.unique resolution_resolveLocations.order fun output => ?_
    rw [resolution.mem_iff, resolution_resolveLocations.mem_iff]

end Resolve

/-- The law of resolution. For every list of targets and all outputs that are read, the declared
outputs have pairwise distinct locations, which are those of the targets and those that are read. An
output is declared for both directions exactly when it is read. The targets come first, by first
occurrence, and the outputs that are only read follow with strictly ascending locations. No other
list satisfies all of this. A slot stands for the target of its number. -/
theorem slots_resolved_iff (fetched : List Nat) (outputs : List ColorOutput) :
    (∀ targets : List Nat, outputs = resolveLocations targets fetched ↔
      Resolution targets fetched outputs) ∧
    ∀ written : List Slot, outputs = resolveOutputs written fetched ↔
      Resolution (written.map Slot.index) fetched outputs :=
  ⟨fun _ => eq_resolveLocations_iff, fun _ => eq_resolveLocations_iff⟩

example : resolveOutputs [.indexed 2, .canonical, .indexed 0, .indexed 2] [5, 0, 1] =
    [⟨2, false⟩, ⟨0, true⟩, ⟨1, true⟩, ⟨5, true⟩] := by
  decide

end GlslText
