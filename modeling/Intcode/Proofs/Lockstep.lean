/-!
Lockstep: two computations that start in related states and end alike, with related states again.
The first of them may also escape by a failure for which the second is not asked, or the two may
fail in ways that are not the same but correspond.
-/
namespace Intcode

inductive Related {ε σ τ α : Type} (escape : ε → Prop) (R : σ → τ → Prop)
    : EStateM.Result ε σ α → EStateM.Result ε τ α → Prop where
  | ok {a : α} {s : σ} {t : τ} : R s t → Related escape R (.ok a s) (.ok a t)
  | error {e : ε} {s : σ} {t : τ} : R s t → Related escape R (.error e s) (.error e t)
  | escape {e : ε} {s : σ} {result : EStateM.Result ε τ α}
    : escape e → Related escape R (.error e s) result

abbrev Exact : ε → Prop := fun _ => False

theorem Related.of_ok {escape : ε → Prop} {R : σ → τ → Prop} {a : α} {s : σ}
    {result : EStateM.Result ε τ α} (h : Related escape R (.ok a s) result)
    : ∃ t, result = .ok a t ∧ R s t := by
  cases h with
  | ok related => exact ⟨_, rfl, related⟩

theorem Related.of_error {R : σ → τ → Prop} {e : ε} {s : σ} {result : EStateM.Result ε τ α}
    (h : Related Exact R (.error e s) result) : ∃ t, result = .error e t ∧ R s t := by
  cases h with
  | error related => exact ⟨_, rfl, related⟩
  | escape absurd => exact absurd.elim

theorem Related.to_ok {escape : ε → Prop} {R : σ → τ → Prop} {a : α} {t : τ}
    {result : EStateM.Result ε σ α} (h : Related escape R result (.ok a t))
    : (∃ s, result = .ok a s ∧ R s t) ∨ ∃ e s, result = .error e s ∧ escape e := by
  cases h with
  | ok related => exact .inl ⟨_, rfl, related⟩
  | escape escapes => exact .inr ⟨_, _, rfl, escapes⟩

theorem Related.to_error {escape : ε → Prop} {R : σ → τ → Prop} {e : ε} {t : τ}
    {result : EStateM.Result ε σ α} (h : Related escape R result (.error e t))
    : (∃ s, result = .error e s ∧ R s t) ∨ ∃ e s, result = .error e s ∧ escape e := by
  cases h with
  | error related => exact .inl ⟨_, rfl, related⟩
  | escape escapes => exact .inr ⟨_, _, rfl, escapes⟩

theorem Related.bind {escape : ε → Prop} {R : σ → σ → Prop} {x y : EStateM ε σ α}
    {f g : α → EStateM ε σ β} {s t : σ} (first : Related escape R (x s) (y t))
    (second : ∀ a s t, R s t → Related escape R (f a s) (g a t))
    : Related escape R ((x >>= f) s) ((y >>= g) t) := by
  show Related escape R (EStateM.bind x f s) (EStateM.bind y g t)
  unfold EStateM.bind
  generalize x s = r at first ⊢
  generalize y t = r' at first ⊢
  cases first with
  | ok related => exact second _ _ _ related
  | error related => exact .error related
  | escape h => exact .escape h

def endState : EStateM.Result ε σ α → σ
  | .ok _ s => s
  | .error _ s => s

def outcome : EStateM.Result ε σ α → Except ε α
  | .ok a _ => .ok a
  | .error e _ => .error e

theorem ok_ne_error {a : α} {e : ε} {s s' : σ}
    : (.ok a s : EStateM.Result ε σ α) ≠ .error e s' :=
  nofun

theorem error_ne_ok {a : α} {e : ε} {s s' : σ}
    : (.error e s : EStateM.Result ε σ α) ≠ .ok a s' :=
  nofun

theorem error_ne_error {e e' : ε} {s : σ}
    (h : ∀ s', (.error e s : EStateM.Result ε σ α) ≠ .error e' s') (s' : σ)
    : (.error e s : EStateM.Result ε σ β) ≠ .error e' s' := by
  rintro ⟨⟩
  exact h s rfl

theorem eq_of_outcome_ok {r : EStateM.Result ε σ α} {a : α} (h : outcome r = .ok a)
    : r = .ok a (endState r) := by
  cases r with
  | ok a' s =>
    cases h
    rfl
  | error e s => cases h

theorem eq_of_outcome_error {r : EStateM.Result ε σ α} {e : ε} (h : outcome r = .error e)
    : r = .error e (endState r) := by
  cases r with
  | ok a s => cases h
  | error e' s =>
    cases h
    rfl

theorem endState_bind {P : σ → Prop} {x : EStateM ε σ α} {f : α → EStateM ε σ β} {s : σ}
    (first : P (endState (x s))) (second : ∀ a t, P t → P (endState (f a t)))
    : P (endState ((x >>= f) s)) := by
  show P (endState (EStateM.bind x f s))
  unfold EStateM.bind
  generalize x s = r at first ⊢
  cases r with
  | ok a t => exact second a t first
  | error e t => exact first

theorem Related.ends {R : σ → τ → Prop} {r : EStateM.Result ε σ α} {r' : EStateM.Result ε τ α}
    (h : Related Exact R r r') : outcome r' = outcome r ∧ R (endState r) (endState r') := by
  cases h with
  | ok related => exact ⟨rfl, related⟩
  | error related => exact ⟨rfl, related⟩
  | escape absurd => exact absurd.elim

/-- Both give the same value or fail in ways that correspond, and the states are related. -/
inductive Paired {ε σ τ α : Type} (E : ε → ε → Prop) (R : σ → τ → Prop)
    : EStateM.Result ε σ α → EStateM.Result ε τ α → Prop where
  | ok {a : α} {s : σ} {t : τ} : R s t → Paired E R (.ok a s) (.ok a t)
  | error {e e' : ε} {s : σ} {t : τ} : E e e' → R s t → Paired E R (.error e s) (.error e' t)

inductive Agree {ε α β : Type} (E : ε → ε → Prop) (V : α → β → Prop)
    : Except ε α → Except ε β → Prop where
  | ok {a : α} {b : β} : V a b → Agree E V (.ok a) (.ok b)
  | error {e e' : ε} : E e e' → Agree E V (.error e) (.error e')

theorem Related.paired {E : ε → ε → Prop} {R : σ → τ → Prop} {r : EStateM.Result ε σ α}
    {r' : EStateM.Result ε τ α} (h : Related Exact R r r') (same : ∀ e, E e e)
    : Paired E R r r' := by
  cases h with
  | ok related => exact .ok related
  | error related => exact .error (same _) related
  | escape absurd => exact absurd.elim

theorem Paired.bind {E : ε → ε → Prop} {R : σ → τ → Prop} {x : EStateM ε σ α} {y : EStateM ε τ α}
    {f : α → EStateM ε σ β} {g : α → EStateM ε τ β} {s : σ} {t : τ}
    (first : Paired E R (x s) (y t)) (second : ∀ a s t, R s t → Paired E R (f a s) (g a t))
    : Paired E R ((x >>= f) s) ((y >>= g) t) := by
  show Paired E R (EStateM.bind x f s) (EStateM.bind y g t)
  unfold EStateM.bind
  generalize x s = r at first ⊢
  generalize y t = r' at first ⊢
  cases first with
  | ok related => exact second _ _ _ related
  | error alike related => exact .error alike related

theorem Paired.endState {E : ε → ε → Prop} {R : σ → τ → Prop} {r : EStateM.Result ε σ α}
    {r' : EStateM.Result ε τ α} (h : Paired E R r r') : R (endState r) (endState r') := by
  cases h with
  | ok related => exact related
  | error _ related => exact related

theorem Paired.outcome {E : ε → ε → Prop} {R : σ → τ → Prop} {r : EStateM.Result ε σ α}
    {r' : EStateM.Result ε τ α} (h : Paired E R r r')
    : Agree E (· = ·) (outcome r) (outcome r') := by
  cases h with
  | ok _ => exact .ok rfl
  | error alike _ => exact .error alike

theorem Agree.bind {E : ε → ε → Prop} {V : α → α' → Prop} {W : β → β' → Prop} {x : Except ε α}
    {y : Except ε α'} {f : α → Except ε β} {g : α' → Except ε β'} (first : Agree E V x y)
    (second : ∀ a b, V a b → Agree E W (f a) (g b)) : Agree E W (x >>= f) (y >>= g) := by
  cases first with
  | ok same => exact second _ _ same
  | error alike => exact .error alike

theorem Agree.ok_iff {E : ε → ε → Prop} {x y : Except ε α} (h : Agree E (· = ·) x y) (a : α)
    : x = .ok a ↔ y = .ok a := by
  cases h with
  | ok same => rw [same]
  | error _ => simp

end Intcode
