import Intcode.Proofs.Amplifier.Network
import Intcode.Proofs.Amplifier.Rounds
import Intcode.Proofs.Machine.Confinement
import Intcode.Proofs.Text.Numeral

namespace Intcode

open Machine

variable {w : Width}

theorem Program.within_of_nextOutput {fuel : Nat} {inputs : List Int} {value : Int} {p p' : Program}
    (h : Within w p.machine) (proper : w.Proper)
    (gave : p.nextOutput fuel inputs = .ok (some value) p')
    : w.Holds value ∧ Within w p'.machine := by
  cases nextOutput_cases (free_of_nextOutput gave) fuel inputs with
  | inr out =>
    obtain ⟨n, -, out⟩ := out
    rw [out] at gave
    cases gave
  | inl stopped =>
    obtain ⟨k, n, result, path, stops, settled⟩ := stopped
    have within := (h.push inputs).reachable proper (path.reachable .start)
    rw [settled] at gave
    cases result with
    | error e n' => cases e <;> cases gave
    | ok reason n' =>
      have within := within.step proper
      rw [show n.step = .ok (some reason) n' from stops] at within
      cases reason with
      | halt | needInput => cases gave
      | output =>
        injection gave with pending left
        rw [← left]
        exact ⟨within.pending value pending, { within with pending := fun _ none => nomatch none }⟩

theorem Numeral.short_of_holds {count v : Int} (room : 2 ^ (count - 1).toNat < 10 ^ maxDigits)
    (held : (Width.bits count).Holds v) : Short v := by
  obtain ⟨least, greatest⟩ := held
  have bound : ((2 ^ (count - 1).toNat : Nat) : Int) = 2 ^ (count - 1).toNat := by
    rw [Int.natCast_pow]
    rfl
  have small : v.natAbs ≤ 2 ^ (count - 1).toNat := by omega
  exact length_digits_le_of_lt_pow (by decide) (Nat.lt_of_le_of_lt small room)

namespace Amplifier.FeedbackLoop

structure Within (w : Width) (loop : FeedbackLoop) : Prop where
  stages : ∀ stage ∈ loop.stages, Machine.Within w stage.machine
  lastOutput : ∀ value, loop.lastOutput = some value → w.Holds value

variable {fuel : Nat} {start loop loop' : FeedbackLoop}

theorem ne_nil_of_step (stepped : step fuel loop = .ok true loop') : loop.stages ≠ [] := by
  intro none
  have halted : loop.isHalted = true := by
    unfold isHalted
    rw [none]
    rfl
  unfold step at stepped
  rw [if_pos halted] at stepped
  cases stepped

theorem Within.step (h : Within w loop) (proper : w.Proper)
    (stepped : step fuel loop = .ok true loop') : Within w loop' := by
  obtain ⟨-, last, length, s, -, out, handed⟩ := signals_of_step stepped
  have handed (i : Nat) (inside : i < loop.stages.length)
      : w.Holds (s (i + 1))
          ∧ ∃ stage : Program, Machine.Within w stage.machine
            ∧ loop'.stages[i]? = some stage.collect.2 := by
    obtain ⟨stage, gave, kept⟩ := handed i _ (List.getElem?_eq_getElem inside)
    obtain ⟨held, within⟩ :=
      Program.within_of_nextOutput (h.stages _ (List.getElem_mem inside)) proper gave
    exact ⟨held, stage, within, kept⟩
  constructor
  . intro stage mem
    obtain ⟨i, placed⟩ := List.mem_iff_getElem?.mp mem
    have inside : i < loop.stages.length := by
      rw [← length]
      exact (List.getElem?_eq_some_iff.mp placed).1
    obtain ⟨-, stage', within, kept⟩ := handed i inside
    rw [placed] at kept
    cases kept
    exact { within with }
  . intro value came
    have positive := List.length_pos_iff.mpr (ne_nil_of_step stepped)
    obtain ⟨held, -⟩ := handed (loop.stages.length - 1) (by omega)
    rw [last, ← out] at came
    cases came
    rwa [Nat.sub_add_cancel positive] at held

theorem Flows.within (h : Within w start) (proper : w.Proper) (flows : Flows start loop)
    : Within w loop := by
  induction flows with
  | start => exact h
  | round _ stepped ih => exact ih.step proper stepped

theorem within_of_load {image phases : List Int} {signal : Int} {config : Config}
    (proper : config.width.Proper) (loaded : load image phases signal config = .ok start)
    : Within config.width start := by
  obtain ⟨loaded, fresh⟩ := load_eq_ok loaded
  constructor
  . intro stage mem
    obtain ⟨i, placed⟩ := List.mem_iff_getElem?.mp mem
    have inside : i < phases.length := by
      rw [← length_of_load_go loaded]
      exact (List.getElem?_eq_some_iff.mp placed).1
    obtain ⟨stage', _, placed', loaded'⟩ :=
      getElem?_of_load_go loaded (List.getElem?_eq_getElem inside)
    rw [placed] at placed'
    cases placed'
    obtain ⟨m, fresh, rfl⟩ := Program.load_iff.mp loaded'
    exact (Machine.within_of_load proper fresh).push _
  . intro value came
    rw [fresh] at came
    cases came

end Amplifier.FeedbackLoop

end Intcode
