import Intcode.Proofs.Machine.Load

namespace Intcode.Program

inductive Call where
  | feed (values : List Int)
  | next (inputs : List Int)
  deriving Repr, DecidableEq

def Call.values : Call → List Int
  | feed values => values
  | next inputs => inputs

inductive Reply where
  | fed
  | gave (value : Int)
  | ended
  | failed (e : Failure)
  deriving Repr, DecidableEq

namespace Reply

def isRefusal : Reply → Bool
  | failed (.fault { cause := .alreadyHalted _, .. }) => true
  | failed (.fault { cause := .faultedEarlier _, .. }) => true
  | _ => false

def isTelling : Reply → Bool
  | fed => false
  | failed (.fault { cause := .inputExhausted, .. }) => false
  | reply => !reply.isRefusal

def ofResult : EStateM.Result Failure Program (Option Int) → Reply × Program
  | .ok (some value) p => (gave value, p)
  | .ok none p => (ended, p)
  | .error e p => (failed e, p)

theorem snd_ofResult (result : EStateM.Result Failure Program (Option Int))
    : (ofResult result).2 = endState result := by
  cases result with
  | error e p => rfl
  | ok out p => cases out <;> rfl

theorem ofResult_injective : Function.Injective ofResult := by
  intro result result' h
  cases result with
  | error e p =>
    cases result' with
    | error e' p' =>
      cases h
      rfl
    | ok out p' => cases out <;> cases h
  | ok out p =>
    cases result' with
    | error e' p' => cases out <;> cases h
    | ok out' p' =>
      cases out <;> cases out' <;> cases h <;> rfl

theorem isRefusal_of_isTelling {reply : Reply} (h : reply.isTelling = true)
    : reply.isRefusal = false := by
  unfold isTelling at h
  split at h
  . contradiction
  . contradiction
  . simpa using h

end Reply

def Call.perform (fuel : Nat) : Call → Program → Reply × Program
  | feed values, p =>
    match p.feed values with
    | .ok () p => (.fed, p)
    | .error e p => (.failed e, p)
  | next inputs, p => Reply.ofResult (p.nextOutput fuel inputs)

def session (fuel : Nat) : List Call → Program → List Reply × Program
  | [], p => ([], p)
  | call :: rest, p =>
    let (reply, p) := call.perform fuel p
    let (replies, p) := session fuel rest p
    (reply :: replies, p)

def accepted (calls : List Call) (replies : List Reply) : List Int :=
  (calls.zip replies).flatMap fun (call, reply) => if reply.isRefusal then [] else call.values

/-- Resumed without any inputs, as often as that, the program replies so if there is fuel enough. -/
def Yields (p : Program) (replies : List Reply) (p' : Program) : Prop :=
  ∃ enough, ∀ fuel ≥ enough,
    session fuel (List.replicate replies.length (.next [])) p = (replies, p')

theorem session_append (fuel : Nat) (calls calls' : List Call) (p : Program)
    : session fuel (calls ++ calls') p
        =
      ((session fuel calls p).1 ++ (session fuel calls' (session fuel calls p).2).1,
        (session fuel calls' (session fuel calls p).2).2) := by
  induction calls generalizing p with
  | nil => rfl
  | cons call rest ih =>
    simp only [List.cons_append, session]
    rw [ih]

theorem session_cons {fuel : Nat} {call : Call} {calls : List Call} {replies : List Reply}
    {p p' : Program} (h : session fuel (call :: calls) p = (replies, p'))
    : ∃ reply p₁ replies', call.perform fuel p = (reply, p₁)
        ∧ session fuel calls p₁ = (replies', p') ∧ replies = reply :: replies' := by
  unfold session at h
  cases h
  exact ⟨_, _, _, rfl, rfl, rfl⟩

theorem Yields.nil (p : Program) : Yields p [] p := by
  refine ⟨0, ?_⟩
  intro fuel _
  rfl

theorem Yields.append {replies replies' : List Reply} {p₁ p₂ p₃ : Program}
    (first : Yields p₁ replies p₂) (second : Yields p₂ replies' p₃)
    : Yields p₁ (replies ++ replies') p₃ := by
  obtain ⟨enough, first⟩ := first
  obtain ⟨enough', second⟩ := second
  refine ⟨max enough enough', ?_⟩
  intro fuel h
  rw [List.length_append, ← List.replicate_append_replicate, session_append,
    first fuel (by omega), second fuel (by omega)]

theorem perform_of_obstacle {p : Program} {fault : Fault} (h : p.obstacle? = some fault)
    (fuel : Nat) (call : Call)
    : call.perform fuel p = (.failed fault, p) ∧ (Reply.failed fault).isRefusal = true := by
  constructor
  . cases call with
    | feed values =>
      simp only [Call.perform, feed, h]
    | next inputs =>
      simp only [Call.perform, nextOutput, h]
      rfl
  . unfold obstacle? at h
    split at h
    . cases h
      rfl
    . cases h
      rfl
    . contradiction

theorem session_of_obstacle {p : Program} {fault : Fault} (h : p.obstacle? = some fault)
    (fuel : Nat) (calls : List Call)
    : session fuel calls p = (calls.map fun _ => .failed fault, p) := by
  induction calls with
  | nil => rfl
  | cons call calls ih =>
    rw [session, (perform_of_obstacle h fuel call).1]
    dsimp only
    rw [ih]
    rfl

theorem obstacle?_eq_none_iff {p : Program}
    : p.obstacle? = none ↔ p.state ≠ .halted ∧ p.state ≠ .faulted := by
  unfold obstacle?
  cases p.state with
  | halted | faulted => simp
  | _ => simp

theorem perform_feed_of_free {p : Program} (free : p.obstacle? = none) (fuel : Nat)
    (values : List Int)
    : Call.perform fuel (.feed values) p
        =
      (.fed, { p with machine := p.machine.push values }) := by
  simp only [Call.perform, feed, free]

theorem nextOutput_of_free {p : Program} (free : p.obstacle? = none) (fuel : Nat)
    (inputs : List Int)
    : p.nextOutput fuel inputs = settle p.name (Machine.run fuel (p.machine.push inputs)) := by
  unfold nextOutput
  rw [free]

theorem nextOutput_cases {p : Program} (free : p.obstacle? = none) (fuel : Nat)
    (inputs : List Int)
    : (∃ k n result, Machine.Path k (p.machine.push inputs) n ∧ Machine.Stops n result
          ∧ p.nextOutput fuel inputs = settle p.name result)
      ∨ ∃ n, Machine.Path fuel (p.machine.push inputs) n
          ∧ p.nextOutput fuel inputs
              = .error .outOfFuel { name := p.name, machine := n, state := .running } := by
  rw [nextOutput_of_free free]
  cases Machine.run_cases fuel (p.machine.push inputs) with
  | inl stopped =>
    obtain ⟨k, n, -, path, stops⟩ := stopped
    exact .inl ⟨k, n, _, path, stops, rfl⟩
  | inr out =>
    obtain ⟨n, path, out⟩ := out
    refine .inr ⟨n, path, ?_⟩
    rw [out]
    rfl

theorem nextOutput_mono {fuel fuel' : Nat} {p : Program} {inputs : List Int} (more : fuel ≤ fuel')
    (returned : ∀ p', p.nextOutput fuel inputs ≠ .error .outOfFuel p')
    : p.nextOutput fuel' inputs = p.nextOutput fuel inputs := by
  cases free : p.obstacle? with
  | some fault =>
    unfold nextOutput
    rw [free]
  | none =>
    rw [nextOutput_of_free free, nextOutput_of_free free]
    rw [nextOutput_of_free free] at returned
    apply congrArg
    apply Machine.run_mono more
    intro m' out
    rw [out] at returned
    exact returned _ rfl

theorem perform_mono {fuel fuel' : Nat} {call : Call} {p : Program} (more : fuel ≤ fuel')
    (returned : (call.perform fuel p).1 ≠ .failed .outOfFuel)
    : call.perform fuel' p = call.perform fuel p := by
  cases call with
  | feed values => rfl
  | next inputs =>
    simp only [Call.perform] at returned ⊢
    rw [nextOutput_mono more]
    intro p' out
    rw [out] at returned
    exact returned rfl

theorem session_mono {fuel fuel' : Nat} {calls : List Call} {p : Program} (more : fuel ≤ fuel')
    (returned : .failed .outOfFuel ∉ (session fuel calls p).1)
    : session fuel' calls p = session fuel calls p := by
  induction calls generalizing p with
  | nil => rfl
  | cons call calls ih =>
    unfold session at returned ⊢
    rw [List.mem_cons, not_or] at returned
    rw [perform_mono more (Ne.symm returned.1)]
    dsimp only
    rw [ih returned.2]

theorem settle_ready (name : String) {result : EStateM.Result Failure Machine StopReason}
    (ready : (endState result).Ready) : (endState (settle name result)).machine.Ready := by
  cases result with
  | ok reason m =>
    cases reason with
    | output => exact ⟨ready.start, ready.proper⟩
    | halt => exact ⟨ready.start, ready.proper⟩
    | needInput => exact ready
  | error e m =>
    cases e with
    | fault f => exact ⟨ready.start, ready.proper⟩
    | _ => exact ready

theorem nextOutput_ready {fuel : Nat} {p : Program} (inputs : List Int) (ready : p.machine.Ready)
    : (endState (p.nextOutput fuel inputs)).machine.Ready := by
  cases free : p.obstacle? with
  | some fault =>
    unfold nextOutput
    rw [free]
    exact ready
  | none =>
    have ready := ready.push inputs
    cases nextOutput_cases free fuel inputs with
    | inl stopped =>
      obtain ⟨k, n, result, path, stops, settled⟩ := stopped
      rw [settled]
      exact settle_ready p.name (stops.ready (path.ready ready))
    | inr out =>
      obtain ⟨n, path, out⟩ := out
      rw [out]
      exact path.ready ready

theorem free_of_nextOutput {fuel : Nat} {inputs : List Int} {p p' : Program} {out : Option Int}
    (h : p.nextOutput fuel inputs = .ok out p') : p.obstacle? = none := by
  unfold nextOutput at h
  split at h
  . cases h
  . assumption

theorem free_of_exhausted {fuel : Nat} {inputs : List Int} {p p' : Program} {ip : Option Int}
    (h : p.nextOutput fuel inputs = .error (.fault { cause := .inputExhausted, ip }) p')
    : p.obstacle? = none := by
  cases free : p.obstacle? with
  | none => rfl
  | some fault =>
    have refused := (perform_of_obstacle free fuel (.next inputs)).2
    unfold nextOutput at h
    rw [free] at h
    cases h
    contradiction

theorem suspended_of_nextOutput {fuel : Nat} {inputs : List Int} {p p' : Program} {value : Int}
    (h : p.nextOutput fuel inputs = .ok (some value) p') : p'.state = .suspended := by
  unfold nextOutput at h
  split at h
  . cases h
  . unfold settle at h
    split at h
    . injection h with _ same
      rw [← same]
    . cases h
    . cases h
    . cases h
    . cases h

theorem free_of_gave {fuel : Nat} {inputs : List Int} {p p' : Program} {value : Int}
    (gave : p.nextOutput fuel inputs = .ok (some value) p') : p'.obstacle? = none := by
  unfold obstacle?
  rw [suspended_of_nextOutput gave]

end Intcode.Program
