import Intcode.Proofs.Amplifier.Arrangement
import Intcode.Proofs.Amplifier.Failing
import Intcode.Text.Split

/-!
Tuning: the orders of the phases are tried one after the other, and the first of those that give the
greatest signal is kept. A run that fails ends the search, one that gives no signal does not count.
-/
namespace Intcode.Amplifier.Tuning

section

variable (layout : Layout) (image : List Int) (config : Config)

def ComesTo (order : List Int) (result : Except Failure (Option Int)) : Prop :=
  result ≠ .error .outOfFuel
    ∧ ∃ enough, ∀ fuel ≥ enough, (layout.run fuel image order initialSignal config).result = result

def Gives (order : List Int) (signal : Int) : Prop :=
  ComesTo layout image config order (.ok (some signal))

def Silent (order : List Int) : Prop :=
  ComesTo layout image config order (.ok none)

def Fails (order : List Int) (e : Failure) : Prop :=
  ComesTo layout image config order (.error e)

def Stops (order : List Int) : Prop :=
  ∃ fuel, (layout.run fuel image order initialSignal config).result ≠ .error .outOfFuel

def Outdone (P : Int → Prop) (order : List Int) : Prop :=
  Silent layout image config order ∨ ∃ signal, P signal ∧ Gives layout image config order signal

/-- With the best one so far and these orders left to be tried, the search comes to this. -/
inductive Tries : Option (Int × List Int) → List (List Int)
    → Except Failure (Option (Int × List Int)) → Prop where
  | done (best : Option (Int × List Int)) : Tries best [] (.ok best)
  | returned {best : Option (Int × List Int)} {order : List Int} {rest : List (List Int)}
      {signal : Option Int} {result : Except Failure (Option (Int × List Int))}
    : ComesTo layout image config order (.ok signal) → Tries (better best signal order) rest result
      → Tries best (order :: rest) result
  | failed {best : Option (Int × List Int)} {order : List Int} {rest : List (List Int)}
      {e : Failure}
    : Fails layout image config order e → Tries best (order :: rest) (.error e)

def FirstBest (tried : List (List Int)) : Option (Int × List Int) → Prop
  | none => ∀ order ∈ tried, Silent layout image config order
  | some (most, order) =>
    ∃ before after, tried = before ++ order :: after ∧ Gives layout image config order most
      ∧ (∀ earlier ∈ before, Outdone layout image config (· < most) earlier)
      ∧ ∀ later ∈ after, Outdone layout image config (· ≤ most) later

end

variable {layout : Layout} {image : List Int} {config : Config} {order : List Int}
  {orders tried : List (List Int)} {best : Option (Int × List Int)}

theorem ComesTo.unique {result result' : Except Failure (Option Int)}
    (h : ComesTo layout image config order result) (h' : ComesTo layout image config order result')
    : result = result' := by
  obtain ⟨-, enough, h⟩ := h
  obtain ⟨-, enough', h'⟩ := h'
  rw [← h (max enough enough') (Nat.le_max_left _ _), h' _ (Nat.le_max_right _ _)]

theorem comesTo_of_run {fuel : Nat}
    (returned : (layout.run fuel image order initialSignal config).result ≠ .error .outOfFuel)
    : ComesTo layout image config order
        (layout.run fuel image order initialSignal config).result :=
  ⟨returned, fuel, fun _ more => layout.outlasts_run more initialSignal returned⟩

theorem Stops.comesTo (stops : Stops layout image config order)
    : ∃ result, ComesTo layout image config order result := by
  obtain ⟨fuel, returned⟩ := stops
  exact ⟨_, comesTo_of_run returned⟩

theorem Gives.unique {signal signal' : Int} (h : Gives layout image config order signal)
    (h' : Gives layout image config order signal') : signal = signal' := by
  have same := ComesTo.unique h h'
  simpa using same

theorem Gives.not_silent {signal : Int} (h : Gives layout image config order signal)
    : ¬ Silent layout image config order := by
  intro silent
  have same := ComesTo.unique h silent
  simp at same

theorem Fails.not_returned {e : Failure} {signal : Option Int}
    (h : Fails layout image config order e) : ¬ ComesTo layout image config order (.ok signal) := by
  intro returned
  have same := ComesTo.unique h returned
  simp at same

section

variable {P Q : Int → Prop}

theorem Outdone.imp (h : Outdone layout image config P order)
    (weaker : ∀ signal, P signal → Q signal) : Outdone layout image config Q order := by
  apply Or.imp_right _ h
  rintro ⟨signal, small, gives⟩
  exact ⟨signal, weaker signal small, gives⟩

theorem Outdone.of_gives {signal : Int} (h : Outdone layout image config P order)
    (gives : Gives layout image config order signal) : P signal := by
  obtain silent | ⟨signal', small, gives'⟩ := h
  . exact absurd silent gives.not_silent
  . rwa [gives.unique gives']

theorem Outdone.returned (h : Outdone layout image config P order)
    : ∃ signal, ComesTo layout image config order (.ok signal) := by
  obtain silent | ⟨signal, -, gives⟩ := h
  . exact ⟨none, silent⟩
  . exact ⟨some signal, gives⟩

end

theorem result_go_cons (fuel : Nat) (best : Option (Int × List Int)) (order : List Int)
    (rest : List (List Int))
    : (maxSignal.go fuel image layout config best (order :: rest)).result
        =
      (layout.run fuel image order initialSignal config).result.bind fun signal =>
        (maxSignal.go fuel image layout config (better best signal order) rest).result := by
  rw [maxSignal.go, Report.result_bind]
  rfl

theorem Tries.result {result : Except Failure (Option (Int × List Int))}
    (tries : Tries layout image config best orders result)
    : ∃ enough, ∀ fuel ≥ enough,
        (maxSignal.go fuel image layout config best orders).result = result := by
  induction tries with
  | done best => exact ⟨0, fun _ _ => rfl⟩
  | returned ran _ ih =>
    obtain ⟨-, enough, ran⟩ := ran
    obtain ⟨enough', ih⟩ := ih
    refine ⟨max enough enough', ?_⟩
    intro fuel more
    rw [result_go_cons, ran fuel (by omega)]
    exact ih fuel (by omega)
  | failed ran =>
    obtain ⟨-, enough, ran⟩ := ran
    refine ⟨enough, ?_⟩
    intro fuel more
    rw [result_go_cons, ran fuel more]
    rfl

theorem tries_of_go {fuel : Nat}
    (returned : (maxSignal.go fuel image layout config best orders).result ≠ .error .outOfFuel)
    : Tries layout image config best orders
        (maxSignal.go fuel image layout config best orders).result := by
  -- The best order so far changes from one order to the next.
  induction orders generalizing best with
  | nil => exact .done best
  | cons order rest ih =>
    have ran := @comesTo_of_run layout image config order fuel
    rw [result_go_cons] at returned ⊢
    generalize (layout.run fuel image order initialSignal config).result = result at ran returned ⊢
    cases result with
    | error e => exact .failed (ran fun spent => returned (Except.error.inj spent ▸ rfl))
    | ok signal => exact .returned (ran nofun) (ih returned)

theorem Tries.unique {result result' : Except Failure (Option (Int × List Int))}
    (h : Tries layout image config best orders result)
    (h' : Tries layout image config best orders result') : result = result' := by
  obtain ⟨enough, h⟩ := h.result
  obtain ⟨enough', h'⟩ := h'.result
  rw [← h (max enough enough') (Nat.le_max_left _ _), h' _ (Nat.le_max_right _ _)]

theorem exists_tries (best : Option (Int × List Int))
    (stops : ∀ before order after, orders = before ++ order :: after
      → (∀ earlier ∈ before, ∀ e, ¬ Fails layout image config earlier e)
      → Stops layout image config order)
    : ∃ result, Tries layout image config best orders result := by
  induction orders generalizing best with
  | nil => exact ⟨_, .done best⟩
  | cons order rest ih =>
    obtain ⟨result, ran⟩ := (stops [] order rest rfl (List.forall_mem_nil _)).comesTo
    cases result with
    | error e => exact ⟨_, .failed ran⟩
    | ok signal =>
      have sound : ∀ e, ¬ Fails layout image config order e := fun _ failed =>
        failed.not_returned ran
      have rest := ih (better best signal order) fun before other after split unfailed =>
        stops (order :: before) other after (congrArg _ split)
          (List.forall_mem_cons.mpr ⟨sound, unfailed⟩)
      -- A run behind this order is made only if this one has not failed.
      obtain ⟨result, tries⟩ := rest
      exact ⟨result, .returned ran tries⟩

theorem Tries.of_fails {before after : List (List Int)} {e : Failure}
    (returned : ∀ earlier ∈ before, ∃ signal, ComesTo layout image config earlier (.ok signal))
    (failed : Fails layout image config order e) (best : Option (Int × List Int))
    : Tries layout image config best (before ++ order :: after) (.error e) := by
  induction before generalizing best with
  | nil => exact .failed failed
  | cons first before ih =>
    obtain ⟨⟨signal, ran⟩, rest⟩ := List.forall_mem_cons.mp returned
    exact .returned ran (ih rest _)

theorem Tries.first_failure {result : Except Failure (Option (Int × List Int))} {e : Failure}
    (tries : Tries layout image config best orders result) (failed : result = .error e)
    : ∃ before order after, orders = before ++ order :: after
        ∧ (∀ earlier ∈ before, ∃ signal, ComesTo layout image config earlier (.ok signal))
        ∧ Fails layout image config order e := by
  induction tries with
  | done best => contradiction
  | @returned best first rest signal result ran _ ih =>
    obtain ⟨before, order, after, rfl, returned, fails⟩ := ih failed
    exact ⟨first :: before, order, after, rfl,
      List.forall_mem_cons.mpr ⟨⟨signal, ran⟩, returned⟩, fails⟩
  | @failed best order rest e' ran =>
    cases failed
    exact ⟨[], order, rest, rfl, List.forall_mem_nil _, ran⟩

theorem FirstBest.better {signal : Option Int} (h : FirstBest layout image config tried best)
    (ran : ComesTo layout image config order (.ok signal))
    : FirstBest layout image config (tried ++ [order]) (better best signal order) := by
  cases best with
  | none =>
    cases signal with
    | none =>
      rintro other mem
      cases List.mem_append.mp mem with
      | inl mem => exact h other mem
      | inr mem =>
        rw [List.mem_singleton.mp mem]
        exact ran
    | some signal =>
      exact ⟨tried, [], rfl, ran, fun other mem => .inl (h other mem), List.forall_mem_nil _⟩
  | some best =>
    obtain ⟨most, champion⟩ := best
    have kept (small : Outdone layout image config (· ≤ most) order)
        : FirstBest layout image config (tried ++ [order]) (some (most, champion)) := by
      obtain ⟨before, after, rfl, gives, less, rest⟩ := h
      refine ⟨before, after ++ [order], by simp, gives, less, ?_⟩
      rw [List.forall_mem_append, List.forall_mem_singleton]
      exact ⟨rest, small⟩
    cases signal with
    | none => exact kept (.inl ran)
    | some signal =>
      show FirstBest _ _ _ _ (if most < signal then some (signal, order) else some (most, champion))
      split
      . next greater =>
        obtain ⟨before, after, rfl, gives, less, rest⟩ := h
        refine ⟨before ++ champion :: after, [], rfl, ran, ?_, List.forall_mem_nil _⟩
        intro other mem
        simp only [List.mem_append, List.mem_cons] at mem
        obtain mem | rfl | mem := mem
        . exact (less other mem).imp fun _ small => Int.lt_trans small greater
        . exact .inr ⟨most, greater, gives⟩
        . exact (rest other mem).imp fun _ small => Int.lt_of_le_of_lt small greater
      . next small => exact kept (.inr ⟨signal, Int.not_lt.mp small, ran⟩)

theorem Tries.firstBest {result : Except Failure (Option (Int × List Int))}
    {best' : Option (Int × List Int)} (tries : Tries layout image config best orders result)
    (returned : result = .ok best') (h : FirstBest layout image config tried best)
    : FirstBest layout image config (tried ++ orders) best' := by
  induction tries generalizing tried with
  | done best =>
    cases returned
    rw [List.append_nil]
    exact h
  | returned ran _ ih =>
    have next := ih returned (h.better ran)
    rwa [List.append_assoc] at next
  | failed => contradiction

theorem FirstBest.le {most : Int} (h : FirstBest layout image config tried (some (most, order)))
    {other : List Int} {signal : Int} (mem : other ∈ tried)
    (gives : Gives layout image config other signal) : signal ≤ most := by
  obtain ⟨before, after, rfl, best, less, rest⟩ := h
  simp only [List.mem_append, List.mem_cons] at mem
  obtain mem | rfl | mem := mem
  . exact Int.le_of_lt ((less other mem).of_gives gives)
  . exact Int.le_of_eq (gives.unique best)
  . exact (rest other mem).of_gives gives

theorem FirstBest.mem {most : Int} (h : FirstBest layout image config tried (some (most, order)))
    : order ∈ tried ∧ Gives layout image config order most := by
  obtain ⟨before, after, rfl, best, -⟩ := h
  exact ⟨List.mem_append_right _ List.mem_cons_self, best⟩

theorem FirstBest.returned (h : FirstBest layout image config tried best) (mem : order ∈ tried)
    : ∃ signal, ComesTo layout image config order (.ok signal) := by
  cases best with
  | none => exact ⟨none, h order mem⟩
  | some best =>
    obtain ⟨before, after, rfl, gives, less, rest⟩ := h
    simp only [List.mem_append, List.mem_cons] at mem
    obtain mem | rfl | mem := mem
    . exact (less order mem).returned
    . exact ⟨_, gives⟩
    . exact (rest order mem).returned

theorem FirstBest.unique {best' : Option (Int × List Int)}
    (h : FirstBest layout image config tried best) (h' : FirstBest layout image config tried best')
    : best = best' := by
  cases best with
  | none =>
    cases best' with
    | none => rfl
    | some best' =>
      obtain ⟨mem, gives⟩ := h'.mem
      exact absurd (h _ mem) gives.not_silent
  | some best =>
    obtain ⟨most, order⟩ := best
    obtain ⟨mem, gives⟩ := h.mem
    cases best' with
    | none => exact absurd (h' _ mem) gives.not_silent
    | some best' =>
      obtain ⟨most', order'⟩ := best'
      obtain ⟨mem', gives'⟩ := h'.mem
      have same : most = most' := Int.le_antisymm (h'.le mem gives) (h.le mem' gives')
      subst same
      -- Neither of the two comes before the other one, where there is nothing as good.
      have outside {before : List (List Int)} {order : List Int}
          (less : ∀ earlier ∈ before, Outdone layout image config (· < most) earlier)
          (gives : Gives layout image config order most) : order ∉ before :=
        fun mem => Int.lt_irrefl most ((less order mem).of_gives gives)
      obtain ⟨before, after, split, -, less, -⟩ := h
      obtain ⟨before', after', split', -, less', -⟩ := h'
      obtain ⟨-, same, -⟩ := Text.append_cons_inj (split.symm.trans split') (outside less gives')
        (outside less' gives)
      rw [same]

def verdict : Except Failure (Option (Int × List Int)) → Except Failure (Int × List Int)
  | .ok (some best) => .ok best
  | .ok none => .error (.fault { cause := .silentPermutations })
  | .error e => .error e

theorem verdict_eq_ok_iff {result : Except Failure (Option (Int × List Int))}
    {best : Int × List Int} : verdict result = .ok best ↔ result = .ok (some best) := by
  rcases result with _ | (_ | _) <;> simp [verdict]

theorem verdict_eq_error_iff {result : Except Failure (Option (Int × List Int))} {e : Failure}
    : verdict result = .error e
        ↔ result = .error e
          ∨ result = .ok none ∧ e = .fault { cause := .silentPermutations } := by
  rcases result with _ | (_ | _) <;> simp [verdict, eq_comm]

theorem result_maxSignal (fuel : Nat) (layout : Layout) (image phases : List Int) (config : Config)
    : (maxSignal fuel image layout phases config).result
        = verdict (maxSignal.go fuel image layout config none (permutations phases)).result := by
  unfold maxSignal
  rw [Report.result_bind]
  cases (maxSignal.go fuel image layout config none (permutations phases)).result with
  | error e => rfl
  | ok best => cases best <;> rfl

theorem Tries.maxSignal {phases : List Int} {result : Except Failure (Option (Int × List Int))}
    (tries : Tries layout image config none (permutations phases) result)
    : ∃ enough, ∀ fuel ≥ enough,
        (maxSignal fuel image layout phases config).result = verdict result := by
  obtain ⟨enough, same⟩ := tries.result
  refine ⟨enough, ?_⟩
  intro fuel more
  rw [result_maxSignal, same fuel more]

theorem Tries.firstBest_iff {result : Except Failure (Option (Int × List Int))}
    (tries : Tries layout image config none orders result) (best : Option (Int × List Int))
    : result = .ok best ↔ FirstBest layout image config orders best := by
  have start : FirstBest layout image config [] none := List.forall_mem_nil _
  constructor
  . intro returned
    exact tries.firstBest returned start
  . intro h
    cases result with
    | ok best' => rw [h.unique (tries.firstBest rfl start)]
    | error e =>
      obtain ⟨before, order, after, rfl, -, failed⟩ := tries.first_failure rfl
      have mem : order ∈ before ++ order :: after := by simp
      obtain ⟨signal, ran⟩ := h.returned mem
      exact absurd ran failed.not_returned

theorem Tries.fails_iff {result : Except Failure (Option (Int × List Int))}
    (tries : Tries layout image config none orders result) (e : Failure)
    : result = .error e
        ↔ ∃ before order after, orders = before ++ order :: after
          ∧ (∀ earlier ∈ before, ∃ signal, ComesTo layout image config earlier (.ok signal))
          ∧ Fails layout image config order e := by
  constructor
  . intro failed
    exact tries.first_failure failed
  . rintro ⟨before, order, after, rfl, returned, failed⟩
    exact tries.unique (.of_fails returned failed none)

theorem gives_of_maxSignal {phases : List Int} {fuel : Nat} {most : Int}
    (tuned : (maxSignal fuel image layout phases config).result = .ok (most, order))
    : order.Perm phases ∧ Gives layout image config order most := by
  rw [result_maxSignal, verdict_eq_ok_iff] at tuned
  have returned : (maxSignal.go fuel image layout config none (permutations phases)).result
      ≠ .error .outOfFuel := by
    rw [tuned]
    nofun
  have tries := tries_of_go returned
  obtain ⟨mem, gives⟩ := ((tries.firstBest_iff (some (most, order))).mp tuned).mem
  exact ⟨mem_permutations.mp mem, gives⟩

/--
If each run stops that is made, the search returns a signal and an order or it fails. It returns
the greatest signal, be it negative or not, together with the first order that gives it: all orders
before it give a lesser one or none, all orders behind it none that is greater. It fails with what
the first run fails with that fails, or because no order gives a signal. The orders are the
permutations of the phases, by position and the least first.
-/
theorem maxSignal_first_best {phases : List Int}
    (stops : ∀ before order after, permutations phases = before ++ order :: after
      → (∀ earlier ∈ before, ∀ e, ¬ Fails layout image config earlier e)
      → Stops layout image config order)
    : ∃ result,
        (∃ enough, ∀ fuel ≥ enough, (maxSignal fuel image layout phases config).result = result)
        ∧ (∀ fuel, (maxSignal fuel image layout phases config).result = result
          ∨ (maxSignal fuel image layout phases config).result = .error .outOfFuel)
        ∧ (∀ most order, result = .ok (most, order)
          ↔ ∃ before after, permutations phases = before ++ order :: after
            ∧ Gives layout image config order most
            ∧ (∀ earlier ∈ before, Silent layout image config earlier
              ∨ ∃ signal < most, Gives layout image config earlier signal)
            ∧ ∀ later ∈ after, Silent layout image config later
              ∨ ∃ signal ≤ most, Gives layout image config later signal)
        ∧ (∀ e, result = .error e
          ↔ (∃ before order after, permutations phases = before ++ order :: after
              ∧ (∀ earlier ∈ before, ∃ signal, ComesTo layout image config earlier (.ok signal))
              ∧ Fails layout image config order e)
            ∨ (∀ order ∈ permutations phases, Silent layout image config order)
              ∧ e = .fault { cause := .silentPermutations })
        ∧ (∀ order, order ∈ permutations phases ↔ order.Perm phases)
        ∧ ∃ places : List (List Nat), places.Pairwise (· < ·)
          ∧ (∀ order, order ∈ places ↔ order.Perm (List.range phases.length))
          ∧ permutations phases = places.map fun order => order.map (phases.getD · 0) := by
  obtain ⟨result, tries⟩ := exists_tries none stops
  obtain ⟨enough, same⟩ := tries.maxSignal
  refine ⟨verdict result, ⟨enough, same⟩, ?_, ?_, ?_, fun _ => mem_permutations,
    permutations_by_position phases⟩
  . intro fuel
    by_cases spent : (maxSignal fuel image layout phases config).result = .error .outOfFuel
    . exact .inr spent
    . have more := outlasts_maxSignal (Nat.le_max_left fuel enough) layout spent
      exact .inl (more.symm.trans (same _ (Nat.le_max_right _ _)))
  . intro most order
    exact verdict_eq_ok_iff.trans (tries.firstBest_iff (some (most, order)))
  . intro e
    rw [verdict_eq_error_iff, tries.fails_iff, tries.firstBest_iff]
    rfl

theorem maxSignal_first_best_negative
    : let image : List Int :=
        [3, 22, 3, 23, 1, 22, 23, 24, 1006, 24, 21, 1, 23, 23, 23, 1, 22, 23, 23, 4, 23, 99]
      let config : Config := { width := .bits 12 }
      let phases : List Int := [0, -1, 0]
      (∀ before order after, permutations phases = before ++ order :: after
          → (∀ earlier ∈ before, ∀ e, ¬ Fails .feedback image config earlier e)
          → Stops .feedback image config order)
        ∧ (maxSignal 8 image .feedback phases config).result = .ok (-4, [-1, 0, 0])
        ∧ ∃ before after, permutations phases = before ++ [-1, 0, 0] :: after
          ∧ Gives .feedback image config [-1, 0, 0] (-4)
          ∧ (∀ earlier ∈ before, Silent .feedback image config earlier
            ∨ ∃ signal < -4, Gives .feedback image config earlier signal)
          ∧ ∀ later ∈ after, Silent .feedback image config later
            ∨ ∃ signal ≤ -4, Gives .feedback image config later signal := by
  intro image config phases
  have stops : ∀ before order after, permutations phases = before ++ order :: after
      → (∀ earlier ∈ before, ∀ e, ¬ Fails .feedback image config earlier e)
      → Stops .feedback image config order := by
    have all : ∀ order ∈ permutations phases,
        (Layout.feedback.run 8 image order initialSignal config).result ≠ .error .outOfFuel := by
      decide +kernel
    intro before order after split _
    refine ⟨8, all order ?_⟩
    rw [split]
    exact List.mem_append_right _ List.mem_cons_self
  have returned : (maxSignal 8 image .feedback phases config).result = .ok (-4, [-1, 0, 0]) := by
    decide +kernel
  obtain ⟨result, -, only, best, -⟩ := maxSignal_first_best stops
  have same : result = .ok (-4, [-1, 0, 0]) := by
    obtain same | spent := only 8
    . exact same.symm.trans returned
    . exact absurd (returned.symm.trans spent) nofun
  exact ⟨stops, returned, (best (-4) [-1, 0, 0]).mp same⟩

end Intcode.Amplifier.Tuning
