import Intcode.Proofs.Console.Retry

namespace Intcode.Console

open Program Machine

variable {π : Type} [Port π]

theorem exchange_coherent {fuel : Nat} {c : Console π}
    {result : EStateM.Result Failure (Console π) Bool} (h : c.program.Coherent)
    (first : exchange fuel c = result) : (endState result).program.Coherent := by
  rw [← first]
  exact (exchange_turn fuel h).coherent h

def retryUpTo (again : Failure → Console π → Bool) (fuel : Nat)
    : (bound : Nat) → EStateM Failure (Console π) (List Int)
  | 0 => throw .outOfFuel
  | bound + 1 => fun c =>
    match serve fuel c with
    | .ok values c => .ok values c
    | .error e c => if again e c then retryUpTo again fuel bound c else .error e c

inductive Pursues (again : Failure → Console π → Bool) (fuel : Nat)
    : Console π → EStateM.Result Failure (Console π) Unit → Prop where
  | ended {c d : Console π}
    : exchange fuel c = .ok false d → Pursues again fuel c (.ok () d)
  | failed {c d : Console π} {e : Failure}
    : exchange fuel c = .error e d → again e d = false → Pursues again fuel c (.error e d)
  | more {c c' : Console π} {result : EStateM.Result Failure (Console π) Unit}
    : exchange fuel c = .ok true c' → Pursues again fuel c' result → Pursues again fuel c result
  | retried {c c' : Console π} {e : Failure} {result : EStateM.Result Failure (Console π) Unit}
    : exchange fuel c = .error e c' → again e c' = true → Pursues again fuel c'.opened result
      → Pursues again fuel c result

variable {again : Failure → Console π → Bool} {fuel bound : Nat} {c d : Console π} {e : Failure}
  {states : List Machine} {result : EStateM.Result Failure (Console π) Unit}

theorem Serves.pursues (served : Serves fuel c states result)
    (ends : ∀ e d, result = .error e d → again e d = false) : Pursues again fuel c result := by
  induction served with
  | ended first => exact .ended first
  | failed first => exact .failed first (ends _ _ rfl)
  | more first _ ih => exact .more first (ih ends)

theorem Serves.pursues_again {failure : EStateM.Result Failure (Console π) Unit}
    (served : Serves fuel c states failure) (failed : failure = .error e d)
    (called : again e d = true) (rest : Pursues again fuel d.opened result)
    : Pursues again fuel c result := by
  induction served with
  | ended _ => cases failed
  | failed first =>
    cases failed
    exact .retried first called rest
  | more first _ ih => exact .more first (ih failed)

theorem Pursues.mono {fuel' : Nat} (h : Pursues again fuel c result) (more : fuel ≤ fuel')
    (fueled : ∀ d, again .outOfFuel d = false) (returned : ∀ d, result ≠ .error .outOfFuel d)
    : Pursues again fuel' c result := by
  induction h with
  | ended first => exact .ended (exchange_mono more first fun _ => ok_ne_error)
  | failed first ends => exact .failed (exchange_mono more first (error_ne_error returned)) ends
  | more first _ ih => exact .more (exchange_mono more first fun _ => ok_ne_error) (ih returned)
  | @retried c c' e result first called _ ih =>
    refine .retried (exchange_mono more first ?_) called (ih returned)
    rintro d ⟨⟩
    rw [fueled] at called
    contradiction

theorem pursues_of_retryUpTo {retried : EStateM.Result Failure (Console π) (List Int)}
    (fueled : ∀ d, again .outOfFuel d = false) (h : retryUpTo again fuel bound c = retried)
    (returned : ∀ d, retried ≠ .error .outOfFuel d)
    : ∃ result, Pursues again fuel c.opened result ∧ retried = closed result := by
  induction bound generalizing c with
  | zero => exact absurd h.symm (returned c)
  | succ bound ih =>
    unfold retryUpTo at h
    cases served : serve fuel c with
    | ok values d =>
      rw [served] at h
      obtain ⟨states, c', exchanges, closes⟩ := serves_of_ok served
      exact ⟨_, exchanges.pursues (by rintro _ _ ⟨⟩), h.symm.trans closes.symm⟩
    | error e d =>
      rw [served] at h
      dsimp only at h
      split at h
      . next called =>
        have spent : e ≠ .outOfFuel := by
          rintro rfl
          rw [fueled] at called
          contradiction
        obtain ⟨states, exchanges⟩ := serves_of_error served spent
        obtain ⟨result, rest, closes⟩ := ih h
        exact ⟨result, exchanges.pursues_again rfl called rest, closes⟩
      . next ends =>
        have spent : e ≠ .outOfFuel := by
          rintro rfl
          exact returned d h.symm
        obtain ⟨states, exchanges⟩ := serves_of_error served spent
        refine ⟨_, exchanges.pursues ?_, h.symm⟩
        rintro _ _ ⟨⟩
        exact Bool.eq_false_iff.mpr ends

def RetriesTo (again : Failure → Console π → Bool) (c : Console π)
    (result : EStateM.Result Failure (Console π) (List Int)) : Prop :=
  ∃ enough, ∀ fuel ≥ enough, ∀ bound ≥ enough, retryUpTo again fuel bound c = result

theorem retriesTo_of_last (served : Serves fuel c.opened states result)
    (ends : ∀ e d, result = .error e d → again e d = false)
    (returned : ∀ d, result ≠ .error .outOfFuel d) : RetriesTo again c (closed result) := by
  obtain ⟨enough, same⟩ := served.exists_serve returned
  refine ⟨enough + 1, ?_⟩
  intro fuel' more bound more'
  obtain ⟨bound, rfl⟩ := Nat.exists_eq_add_of_le' (Nat.le_trans (Nat.le_add_left 1 _) more')
  unfold retryUpTo
  rw [same fuel' (by omega)]
  cases result with
  | ok _ d => rfl
  | error e d =>
    show (if again e d then _ else _) = _
    rw [ends e d rfl]
    rfl

theorem retriesTo_of_again {retried : EStateM.Result Failure (Console π) (List Int)}
    (fueled : ∀ d, again .outOfFuel d = false) (served : Serves fuel c.opened states (.error e d))
    (called : again e d = true) (rest : RetriesTo again d retried) : RetriesTo again c retried := by
  have spent : e ≠ .outOfFuel := by
    rintro rfl
    rw [fueled] at called
    contradiction
  obtain ⟨enough, same⟩ := served.exists_serve (by rintro _ ⟨⟩; exact spent rfl)
  obtain ⟨enough', rest⟩ := rest
  refine ⟨max enough enough' + 1, ?_⟩
  intro fuel' more bound more'
  obtain ⟨bound, rfl⟩ := Nat.exists_eq_add_of_le' (Nat.le_trans (Nat.le_add_left 1 _) more')
  unfold retryUpTo
  rw [same fuel' (by omega)]
  show (if again e d then _ else _) = _
  rw [called]
  exact rest fuel' (by omega) bound (by omega)

theorem Pursues.split (h : Pursues again fuel c result) (fueled : ∀ d, again .outOfFuel d = false)
    (returned : ∀ d, result ≠ .error .outOfFuel d)
    : (∃ states, Serves fuel c states result ∧ ∀ e d, result = .error e d → again e d = false)
      ∨ ∃ states e d, Serves fuel c states (.error e d) ∧ again e d = true
        ∧ RetriesTo again d (closed result) := by
  -- Where the first service ends does not depend on the services behind it.
  induction h with
  | ended first => exact .inl ⟨_, .ended first, by rintro _ _ ⟨⟩⟩
  | failed first ends =>
    refine .inl ⟨_, .failed first, ?_⟩
    rintro _ _ ⟨⟩
    exact ends
  | more first _ ih =>
    obtain ⟨states, served, ends⟩ | ⟨states, e, d, served, called, rest⟩ := ih returned
    . exact .inl ⟨_, .more first served, ends⟩
    . exact .inr ⟨_, e, d, .more first served, called, rest⟩
  | @retried c c' e result first called _ ih =>
    refine .inr ⟨_, e, c', .failed first, called, ?_⟩
    obtain ⟨states, served, ends⟩ | ⟨states, e', d, served, called', rest⟩ := ih returned
    . exact retriesTo_of_last served ends returned
    . exact retriesTo_of_again fueled served called' rest

theorem Pursues.retriesTo (h : Pursues again fuel c.opened result)
    (fueled : ∀ d, again .outOfFuel d = false) (returned : ∀ d, result ≠ .error .outOfFuel d)
    : RetriesTo again c (closed result) := by
  obtain ⟨states, served, ends⟩ | ⟨states, e, d, served, called, rest⟩ := h.split fueled returned
  . exact retriesTo_of_last served ends returned
  . exact retriesTo_of_again fueled served called rest

end Intcode.Console
