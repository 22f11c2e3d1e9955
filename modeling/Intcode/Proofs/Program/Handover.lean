import Intcode.Proofs.Machine.Supply
import Intcode.Proofs.Program.Taking

/-!
Handovers: whoever takes the outputs of a program, and in how many portions, gets the same values,
and another one can go on where the last one left off.
-/
namespace Intcode.Program

open Machine

/-- Ways to take some outputs and then leave the program to others. -/
inductive Draw where
  | next
  | iterate (count : Nat)
  deriving Repr, DecidableEq

def Draw.perform (fuel : Nat) : Draw → Program → Taken × Program
  | next, p =>
    match p.nextOutput fuel with
    | .ok out p => ({ values := out.toList }, p)
    | .error e p => ({ values := [], failure := some e }, p)
  | iterate count, p => take fuel count p

def performDraws (fuel : Nat) : List Draw → Program → List Taken × Program
  | [], p => ([], p)
  | draw :: draws, p =>
    let (taken, p) := draw.perform fuel p
    let (rest, p) := performDraws fuel draws p
    (taken :: rest, p)

variable {fuel count : Nat} {p q : Program} {taken : Taken}

inductive Remains (fuel : Nat) (p : Program) (taken : Taken) (q : Program) : Prop where
  | more : p.obstacle? = none → p.machine.width.Proper
    → (∀ count > taken.values.length, take fuel count p = (taken, q)) → Remains fuel p taken q
  | finished : p.obstacle? ≠ none → taken.values = [] → p = q → Remains fuel p taken q

theorem perform_next_of_free (free : p.obstacle? = none)
    : Draw.next.perform fuel p = take fuel 1 p := by
  rw [take_succ free]
  simp only [Draw.perform]
  cases p.nextOutput fuel with
  | error e q => rfl
  | ok out q =>
    cases out with
    | none => rfl
    | some value => rfl

theorem remains_of_take (proper : p.machine.width.Proper) (free : p.obstacle? = none)
    (whole : ∀ count > taken.values.length, take fuel count p = (taken, q))
    (returned : taken.failure ≠ some .outOfFuel)
    (written : (take fuel count p).1.failure ≠ some .unwritable)
    : ∃ rest, taken = rest.after (take fuel count p).1.values
        ∧ Remains fuel (take fuel count p).2 rest q
        ∧ (take fuel count p).1.failure ≠ some .outOfFuel := by
  induction count generalizing p taken with
  | zero => exact ⟨taken, rfl, .more free proper whole, nofun⟩
  | succ count ih =>
    have first := whole _ (Nat.lt_succ_self _)
    have called := turn proper free
      (returned_of_take free taken.values.length (by rwa [first]))
    generalize result : p.nextOutput fuel = call at called
    rw [take_succ free, result] at first written ⊢
    cases called with
    | unwritten => exact absurd rfl written
    | ended ended =>
      cases first
      exact ⟨{ values := [] }, rfl, .finished ended rfl rfl, nofun⟩
    | @faulted e _ ended =>
      cases first
      exact ⟨{ values := [], failure := some e }, rfl, .finished ended rfl rfl, returned⟩
    | @stalled e p₁ free₁ proper₁ again =>
      -- Nothing has been lost, since every further call finds the same.
      cases first
      refine ⟨{ values := [], failure := some e }, rfl, .more free₁ proper₁ ?_, returned⟩
      intro count' some
      obtain ⟨count', rfl⟩ : ∃ c, count' = c + 1 := ⟨count' - 1, by omega⟩
      rw [take_succ free₁, again]
    | @gave value p₁ free₁ proper₁ =>
      obtain ⟨split, -⟩ := Prod.mk.inj first
      generalize (take fuel taken.values.length p₁).1 = others at split
      have whole' (count' : Nat) (further : others.values.length < count')
          : take fuel count' p₁ = (others, q) := by
        have length : taken.values.length = others.values.length + 1 := by
          rw [← split]
          rfl
        have one := whole (count' + 1) (by omega)
        rw [take_succ free, result, ← split] at one
        obtain ⟨same, last⟩ := Prod.mk.inj one
        exact Prod.ext (Taken.after_injective [value] same) last
      obtain ⟨rest, whole, remains, left⟩ :=
        ih proper₁ free₁ whole' (by rwa [← split] at returned) written
      refine ⟨rest, ?_, remains, left⟩
      rw [← split, whole, Taken.after_after]
      rfl

theorem Draw.perform_of_obstacle {fault : Fault} (h : p.obstacle? = some fault) (fuel : Nat)
    (draw : Draw)
    : (draw.perform fuel p).1.values = [] ∧ (draw.perform fuel p).2 = p
        ∧ (draw.perform fuel p).1.failure ≠ some .outOfFuel := by
  have refused : p.nextOutput fuel = .error fault p := by
    simp only [nextOutput, h]
  cases draw with
  | next => simp [perform, refused]
  | iterate count =>
    cases count with
    | zero => simp [perform, take]
    | succ count =>
      cases halted : p.isHalted with
      | true => simp [perform, take, halted]
      | false => simp [perform, take, halted, refused]

theorem Remains.perform (remains : Remains fuel p taken q)
    (returned : taken.failure ≠ some .outOfFuel) (draw : Draw)
    (written : (draw.perform fuel p).1.failure ≠ some .unwritable)
    : ∃ rest, taken = rest.after (draw.perform fuel p).1.values
        ∧ Remains fuel (draw.perform fuel p).2 rest q
        ∧ (draw.perform fuel p).1.failure ≠ some .outOfFuel := by
  cases remains with
  | more free proper whole =>
    cases draw with
    | next =>
      rw [perform_next_of_free free] at written ⊢
      exact remains_of_take proper free whole returned written
    | iterate count => exact remains_of_take proper free whole returned written
  | finished ended empty last =>
    obtain ⟨fault, blocked⟩ := Option.ne_none_iff_exists'.mp ended
    obtain ⟨none, still, failed⟩ := draw.perform_of_obstacle blocked fuel
    rw [none, still]
    exact ⟨taken, rfl, .finished ended empty last, failed⟩

theorem Remains.performDraws (remains : Remains fuel p taken q)
    (returned : taken.failure ≠ some .outOfFuel) (draws : List Draw)
    (written : ∀ drawn ∈ (performDraws fuel draws p).1, drawn.failure ≠ some .unwritable)
    : ∃ rest, taken = rest.after ((performDraws fuel draws p).1.flatMap (·.values))
        ∧ Remains fuel (performDraws fuel draws p).2 rest q
        ∧ ∀ drawn ∈ (performDraws fuel draws p).1, drawn.failure ≠ some .outOfFuel := by
  induction draws generalizing p taken with
  | nil => exact ⟨taken, rfl, remains, nofun⟩
  | cons draw draws ih =>
    obtain ⟨written, written'⟩ := List.forall_mem_cons.mp written
    obtain ⟨others, split, remains, left⟩ := remains.perform returned draw written
    obtain ⟨rest, split', remains, left'⟩ := ih remains (by rwa [split] at returned) written'
    refine ⟨rest, ?_, remains, List.forall_mem_cons.mpr ⟨left, left'⟩⟩
    rw [split, split', Taken.after_after]
    rfl

def fed (more : List Int) (p : Program) : Program :=
  { p with machine := p.machine.push more }

variable {a b last : Program} {total : Taken}

end Intcode.Program
