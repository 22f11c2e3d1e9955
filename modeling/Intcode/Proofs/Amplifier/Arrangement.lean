import Intcode.Amplifier.Tuning
import Mathlib.Data.List.Perm.Basic
import Mathlib.Data.List.Lex

namespace Intcode.Amplifier

variable {α β : Type}

theorem picks_map (f : α → β) (xs : List α)
    : picks (xs.map f) = (picks xs).map fun pick => (f pick.1, pick.2.map f) := by
  induction xs with
  | nil => rfl
  | cons x xs ih => simp [picks, ih]

theorem arrangements_map (f : α → β) (count : Nat) (xs : List α)
    : arrangements count (xs.map f) = (arrangements count xs).map (·.map f) := by
  induction count generalizing xs with
  | zero => rfl
  | succ count ih =>
    simp only [arrangements, picks_map, List.flatMap_map, List.map_flatMap, ih, List.map_map]
    rfl

theorem permutations_map (f : α → β) (xs : List α)
    : permutations (xs.map f) = (permutations xs).map (·.map f) := by
  unfold permutations
  rw [List.length_map, arrangements_map]

theorem perm_of_mem_picks {xs : List α} {pick : α × List α} (h : pick ∈ picks xs)
    : (pick.1 :: pick.2).Perm xs := by
  induction xs generalizing pick with
  | nil => cases h
  | cons x xs ih =>
    cases List.mem_cons.mp h with
    | inl first =>
      subst first
      exact .refl _
    | inr later =>
      obtain ⟨pick, mem, rfl⟩ := List.mem_map.mp later
      exact (List.Perm.swap x pick.1 pick.2).trans ((ih mem).cons x)

theorem sublist_of_mem_picks {xs : List α} {pick : α × List α} (h : pick ∈ picks xs)
    : pick.2.Sublist xs := by
  induction xs generalizing pick with
  | nil => cases h
  | cons x xs ih =>
    cases List.mem_cons.mp h with
    | inl first =>
      subst first
      exact List.sublist_cons_self x xs
    | inr later =>
      obtain ⟨pick, mem, rfl⟩ := List.mem_map.mp later
      exact (ih mem).cons_cons x

theorem map_fst_picks (xs : List α) : (picks xs).map Prod.fst = xs := by
  induction xs with
  | nil => rfl
  | cons x xs ih =>
    simp only [picks, List.map_cons, List.map_map]
    exact congrArg _ ih

theorem exists_pick {xs : List α} {x : α} (h : x ∈ xs) : ∃ rest, (x, rest) ∈ picks xs := by
  rw [← map_fst_picks xs] at h
  obtain ⟨⟨x, rest⟩, mem, rfl⟩ := List.mem_map.mp h
  exact ⟨rest, mem⟩

theorem mem_arrangements {count : Nat} {xs order : List α} (length : xs.length = count)
    : order ∈ arrangements count xs ↔ order.Perm xs := by
  induction count generalizing xs order with
  | zero =>
    rw [List.length_eq_zero_iff.mp length, List.perm_nil]
    exact List.mem_singleton
  | succ count ih =>
    have shorter {pick : α × List α} (h : pick ∈ picks xs) : pick.2.length = count := by
      have same := (perm_of_mem_picks h).length_eq
      rw [List.length_cons] at same
      omega
    simp only [arrangements, List.mem_flatMap, List.mem_map]
    constructor
    . rintro ⟨pick, mem, rest, arranged, rfl⟩
      exact (((ih (shorter mem)).mp arranged).cons pick.1).trans (perm_of_mem_picks mem)
    . intro perm
      cases order with
      | nil =>
        have := perm.length_eq
        simp [length] at this
      | cons x order =>
        obtain ⟨rest, mem⟩ := exists_pick (perm.mem_iff.mp List.mem_cons_self)
        refine ⟨(x, rest), mem, order, (ih (shorter mem)).mpr ?_, rfl⟩
        exact List.Perm.cons_inv (perm.trans (perm_of_mem_picks mem).symm)

theorem mem_permutations {xs order : List α} : order ∈ permutations xs ↔ order.Perm xs :=
  mem_arrangements rfl

theorem arrangements_sorted {xs : List Nat} (sorted : xs.Pairwise (· < ·)) (count : Nat)
    : (arrangements count xs).Pairwise (· < ·) := by
  induction count generalizing xs with
  | zero => exact List.pairwise_singleton _ _
  | succ count ih =>
    unfold arrangements
    rw [List.pairwise_flatMap]
    constructor
    . intro pick mem
      rw [List.pairwise_map]
      apply (ih (sorted.sublist (sublist_of_mem_picks mem))).imp
      intro order order' less
      exact List.cons_lt_cons_iff.mpr (.inr ⟨rfl, less⟩)
    . rw [← map_fst_picks xs, List.pairwise_map] at sorted
      apply sorted.imp
      intro pick pick' less order mem order' mem'
      obtain ⟨rest, -, rfl⟩ := List.mem_map.mp mem
      obtain ⟨rest', -, rfl⟩ := List.mem_map.mp mem'
      exact List.cons_lt_cons_iff.mpr (.inl less)

theorem map_getD_range (xs : List Int) : (List.range xs.length).map (xs.getD · 0) = xs := by
  apply List.ext_getElem
  . simp
  . intro i inside inside'
    simp [List.getD_eq_getElem?_getD, inside']

theorem permutations_by_position (xs : List Int)
    : ∃ places : List (List Nat), places.Pairwise (· < ·)
        ∧ (∀ order, order ∈ places ↔ order.Perm (List.range xs.length))
        ∧ permutations xs = places.map fun order => order.map (xs.getD · 0) := by
  refine ⟨permutations (List.range xs.length), ?_, fun _ => mem_permutations, ?_⟩
  . exact arrangements_sorted List.pairwise_lt_range _
  . rw [← permutations_map, map_getD_range]

end Intcode.Amplifier
