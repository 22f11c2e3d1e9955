import Intcode.Proofs.Lockstep
import Intcode.Report

/-!
Failing: in which ways a computation can fail at all, and when one computation does what another one
does, unless the other has failed for lack of something. Both are shown part by part. A result that
is mapped has failed exactly when it had failed before.
-/
namespace Intcode

variable {ε ε' σ ω ω' α β : Type} {P Q : ε → Prop}

section

variable {result : Except ε α}

theorem map_eq_ok_iff {f : α → β} {b : β}
    : result.map f = .ok b ↔ ∃ a, result = .ok a ∧ f a = b := by
  cases result with
  | ok a =>
    show Except.ok (f a) = .ok b ↔ _
    simp
  | error e => exact ⟨nofun, nofun⟩

theorem map_eq_error_iff {f : α → β} {e : ε} : result.map f = .error e ↔ result = .error e := by
  cases result with
  | ok a => exact ⟨nofun, nofun⟩
  | error e' =>
    show Except.error e' = .error e ↔ _
    simp

theorem mapError_eq_ok_iff {f : ε → ε'} {a : α} : result.mapError f = .ok a ↔ result = .ok a := by
  cases result with
  | ok b =>
    show Except.ok b = .ok a ↔ _
    simp
  | error e => exact ⟨nofun, nofun⟩

theorem mapError_eq_error_iff {f : ε → ε'} {e' : ε'}
    : result.mapError f = .error e' ↔ ∃ e, result = .error e ∧ f e = e' := by
  cases result with
  | ok b => exact ⟨nofun, nofun⟩
  | error e =>
    show Except.error (f e) = .error e' ↔ _
    simp

end

structure FailsOnly (P : ε → Prop) (x : EStateM ε σ α) : Prop where
  of_error : ∀ {s e s'}, x s = .error e s' → P e

namespace FailsOnly

variable {x : EStateM ε σ α} {f : α → EStateM ε σ β}

theorem pure (a : α) : FailsOnly P (pure a : EStateM ε σ α) :=
  ⟨nofun⟩

theorem get : FailsOnly P (get : EStateM ε σ σ) :=
  ⟨nofun⟩

theorem modifyGet (f : σ → α × σ) : FailsOnly P (modifyGet f : EStateM ε σ α) :=
  ⟨nofun⟩

theorem modify (f : σ → σ) : FailsOnly P (modify f : EStateM ε σ PUnit) :=
  ⟨nofun⟩

theorem throw {e : ε} (h : P e) : FailsOnly P (throw e : EStateM ε σ α) := by
  constructor
  rintro s e s' ⟨⟩
  exact h

theorem bind (first : FailsOnly P x) (second : ∀ a, FailsOnly P (f a))
    : FailsOnly P (x >>= f) := by
  constructor
  intro s e s' failed
  change EStateM.bind x f s = _ at failed
  unfold EStateM.bind at failed
  split at failed
  . exact (second _).of_error failed
  . next called =>
    cases failed
    exact first.of_error called

end FailsOnly

/-- The first computation does what the second one does, unless that is left without something. -/
def Outlasts (lack : ε) (x' x : EStateM ε σ α) : Prop :=
  ∀ s, (∀ s', x s ≠ .error lack s') → x' s = x s

namespace Outlasts

variable {lack : ε} {x x' : EStateM ε σ α} {f f' : α → EStateM ε σ β}

theorem refl (x : EStateM ε σ α) : Outlasts lack x x :=
  fun _ _ => rfl

theorem bind (first : Outlasts lack x' x) (second : ∀ a, Outlasts lack (f' a) (f a))
    : Outlasts lack (x' >>= f') (x >>= f) := by
  intro s returned
  change ∀ s', EStateM.bind x f s ≠ .error lack s' at returned
  show EStateM.bind x' f' s = EStateM.bind x f s
  have same : x' s = x s := by
    apply first
    intro s' lacking
    apply returned s'
    unfold EStateM.bind
    rw [lacking]
  unfold EStateM.bind at returned ⊢
  rw [same]
  cases called : x s with
  | error e t => rfl
  | ok a t =>
    rw [called] at returned
    exact second a t returned

end Outlasts

namespace Report

structure FailsOnly (P : ε → Prop) (x : Report ω ε α) : Prop where
  of_error : ∀ {e}, x.result = .error e → P e

structure ReturnsOnly (P : α → Prop) (x : Report ω ε α) : Prop where
  of_ok : ∀ {a}, x.result = .ok a → P a

/-- The first report comes to what the second one comes to, unless that has lacked something. -/
def Outlasts (lack : ε) (x' x : Report ω ε α) : Prop :=
  x.result ≠ .error lack → x'.result = x.result

variable {x x' : Report ω ε α} {f f' : α → Report ω ε β}

theorem bind_eq_ok {b : β}
    : (x >>= f).result = .ok b ↔ ∃ a, x.result = .ok a ∧ (f a).result = .ok b := by
  rw [result_bind]
  cases x.result with
  | error e => simp [Bind.bind, Except.bind]
  | ok a => simp [Bind.bind, Except.bind]

theorem result_bind_of_ok {a : α} (h : x.result = .ok a) : (x >>= f).result = (f a).result := by
  rw [result_bind, h]
  rfl

theorem result_bind_of_error {e : ε} (h : x.result = .error e) : (x >>= f).result = .error e := by
  rw [result_bind, h]
  rfl

namespace FailsOnly

theorem mono (h : FailsOnly P x) (weaker : ∀ e, P e → Q e) : FailsOnly Q x :=
  ⟨fun failed => weaker _ (h.of_error failed)⟩

theorem pure (a : α) : FailsOnly P (pure a : Report ω ε α) :=
  ⟨nofun⟩

theorem tell (events : List ω) : FailsOnly P (tell events : Report ω ε Unit) :=
  ⟨nofun⟩

theorem fail {e : ε} (h : P e) : FailsOnly P (fail e : Report ω ε α) := by
  constructor
  rintro e ⟨⟩
  exact h

theorem ofExcept {x : Except ε α} (h : ∀ {e}, x = .error e → P e)
    : FailsOnly P (ofExcept x : Report ω ε α) :=
  ⟨h⟩

theorem of_outcome {x : EStateM ε σ α} {s : σ} {report : Report ω ε α}
    (h : Intcode.FailsOnly P x) (ran : report.result = outcome (x s)) : FailsOnly P report := by
  constructor
  intro e failed
  exact h.of_error (eq_of_outcome_error (ran.symm.trans failed))

theorem after (h : FailsOnly P x) (events : List ω) : FailsOnly P (x.after events) :=
  ⟨h.of_error⟩

theorem bind (first : FailsOnly P x) (second : ∀ a, FailsOnly P (f a))
    : FailsOnly P (x >>= f) := by
  constructor
  intro e failed
  cases called : x.result with
  | error e' =>
    rw [result_bind_of_error called] at failed
    cases failed
    exact first.of_error called
  | ok a =>
    rw [result_bind_of_ok called] at failed
    exact (second a).of_error failed

theorem translate {error : ε → ε'} {Q : ε' → Prop} (h : FailsOnly P x)
    (event : ω → Option ω') (translated : ∀ e, P e → Q (error e))
    : FailsOnly Q (x.translate event error) := by
  constructor
  intro e failed
  unfold Report.translate at failed
  cases called : x.result with
  | ok a =>
    rw [called] at failed
    contradiction
  | error e' =>
    rw [called] at failed
    cases failed
    exact translated e' (h.of_error called)

end FailsOnly

namespace ReturnsOnly

variable {P : α → Prop} {Q : β → Prop}

theorem pure {a : α} (h : P a) : ReturnsOnly P (pure a : Report ω ε α) := by
  constructor
  rintro a ⟨⟩
  exact h

theorem bind (h : ∀ a, x.result = .ok a → ReturnsOnly Q (f a)) : ReturnsOnly Q (x >>= f) := by
  constructor
  intro b returned
  obtain ⟨a, first, second⟩ := bind_eq_ok.mp returned
  exact (h a first).of_ok second

end ReturnsOnly

namespace Outlasts

variable {lack : ε}

theorem refl (x : Report ω ε α) : Outlasts lack x x :=
  fun _ => rfl

theorem unique {lack : ε} {x : Nat → Report ω ε α}
    (outlasts : ∀ {fuel fuel'}, fuel ≤ fuel' → Outlasts lack (x fuel') (x fuel)) {fuel fuel' : Nat}
    (returned : (x fuel).result ≠ .error lack) (returned' : (x fuel').result ≠ .error lack)
    : (x fuel).result = (x fuel').result := by
  have later := outlasts (Nat.le_max_left fuel fuel') returned
  have later' := outlasts (Nat.le_max_right fuel fuel') returned'
  exact later.symm.trans later'

theorem of_outcome {x x' : EStateM ε σ α} {s : σ} {report report' : Report ω ε α}
    (h : Intcode.Outlasts lack x' x) (ran : report.result = outcome (x s))
    (ran' : report'.result = outcome (x' s)) : Outlasts lack report' report := by
  intro returned
  rw [ran'] at *
  rw [ran] at *
  rw [h s]
  intro s' lacking
  rw [lacking] at returned
  exact returned rfl

theorem translate (h : Outlasts lack x' x) (event : ω → Option ω') (error : ε → ε')
    : Outlasts (error lack) (x'.translate event error) (x.translate event error) := by
  intro returned
  apply congrArg (Except.mapError error)
  apply h
  intro lacking
  apply returned
  show x.result.mapError error = _
  rw [lacking]
  rfl

theorem bind (first : Outlasts lack x' x)
    (second : ∀ a, x.result = .ok a → Outlasts lack (f' a) (f a))
    : Outlasts lack (x' >>= f') (x >>= f) := by
  intro returned
  have same : x'.result = x.result := first fun lacking => returned (result_bind_of_error lacking)
  cases called : x.result with
  | error e => rw [result_bind_of_error called, result_bind_of_error (same.trans called)]
  | ok a =>
    rw [result_bind_of_ok called] at returned ⊢
    rw [result_bind_of_ok (same.trans called)]
    exact second a called returned

end Outlasts

end Report

end Intcode
