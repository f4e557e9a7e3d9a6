/-
The components of a word and where they stand in it. A word with a colon is split at its
colons; the first component that is not valid has the valid ones before it, each with
its colon, and ends at the next colon or with the word.
-/

import LedgerLexer.Proofs.WordReading

namespace LedgerLexer

/-- The component is the first one in the word that is not valid, and the lead is all of
the word before it. -/
structure IsFirstBad (word lead component : Text) : Prop where
  placed : ∃ tail, word = lead ++ component ++ tail ∧ tail.head?.all (· == ':') = true
  validBefore : ∃ parts : List Text, lead = parts.flatMap (· ++ [':']) ∧
    ∀ part ∈ parts, IsAccountPart part
  noColon : ':' ∉ component
  bad : ¬ IsAccountPart component

private theorem IsAccountPart.no_colon {part : Text} (isPart : IsAccountPart part) :
    ':' ∉ part := by
  intro member
  obtain ⟨enough, starts, goesOn⟩ := isPart
  cases part with
  | nil => cases member
  | cons first later =>
      rcases List.mem_cons.1 member with rfl | inLater
      · exact absurd (starts ':' rfl) (by decide)
      · exact absurd (goesOn ':' inLater) (by decide)

private theorem components_of_front (component tail : Text) (noColon : ':' ∉ component)
    (stops : tail.head?.all (· == ':') = true) :
    ∃ later, components (component ++ tail) = component :: later := by
  unfold components
  cases tail with
  | nil => exact ⟨[], by rw [List.append_nil, List.splitOn_eq_singleton noColon]⟩
  | cons char rest =>
      obtain rfl : char = ':' := eq_of_beq stops
      exact ⟨_, List.splitOn_append_cons_self_of_not_mem noColon rest⟩

private theorem intercalate_cons_front (component : Text) (later : List Text) :
    ∃ tail, [':'].intercalate (component :: later) = component ++ tail ∧
      tail.head?.all (· == ':') = true := by
  refine ⟨_, intercalate_cons ':' component later, ?_⟩
  cases later with
  | nil => rfl
  | cons next others => rfl

theorem badComponent?_of_isFirstBad {word lead component : Text}
    (first : IsFirstBad word lead component) : badComponent? word = some component := by
  obtain ⟨tail, rfl, stops⟩ := first.placed
  obtain ⟨parts, rfl, valid⟩ := first.validBefore
  obtain ⟨later, front⟩ := components_of_front component tail first.noColon stops
  refine (badComponent?_eq_some_iff _ _).2
    ⟨parts, later, (isParts_iff _ _).2 ?_, valid, first.bad⟩
  rw [components] at front
  rw [components, List.append_assoc,
    splitOn_flatMap_append ':' parts _ (fun part member => (valid part member).no_colon), front]

theorem exists_isFirstBad (word component : Text) (found : badComponent? word = some component) :
    ∃ lead, IsFirstBad word lead component := by
  obtain ⟨parts, later, split, valid, bad⟩ := (badComponent?_eq_some_iff _ _).1 found
  obtain ⟨_, joined, noColon⟩ := split
  obtain ⟨tail, front, stops⟩ := intercalate_cons_front component later
  rw [intercalate_append_cons, front, ← List.append_assoc] at joined
  exact ⟨parts.flatMap (· ++ [':']), ⟨tail, joined.symm, stops⟩, ⟨parts, rfl, valid⟩,
    noColon component (List.mem_append_right _ (List.mem_cons_self ..)), bad⟩

end LedgerLexer
