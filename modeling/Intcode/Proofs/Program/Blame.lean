import Intcode.Proofs.Machine.Abort
import Intcode.Proofs.Machine.Confinement
import Intcode.Proofs.Machine.Stop
import Intcode.Proofs.Program.Lifetime
import Intcode.Proofs.Program.Use

namespace Intcode

namespace Machine

variable {m m' : Machine} {e : Failure}

theorem not_negativeAddress {cause : Cause} (h : cause.IsHazard) (addr : Int)
    : cause ≠ .negativeAddress addr := by
  rintro rfl
  exact h

theorem Ready.raised_of_step (ready : m.Ready) (failed : m.step = .error e m')
    : m'.ip = m.ip
      ∧ (m.Unrecordable ∧ e = .unwritable
        ∨ ∃ fault : Fault, e = fault.raised ∧ fault.ip = some m.ip
          ∧ ∀ addr, fault.cause ≠ .negativeAddress addr) := by
  obtain ⟨addrs, left⟩ := left_of_failed ready.start failed
  refine ⟨by rw [left], ?_⟩
  obtain unrecordable | ⟨cause, hazard, raised⟩ :=
    Machine.raised_of_step ready.start ready.proper failed
  . exact .inl unrecordable
  . exact .inr ⟨_, raised, rfl, not_negativeAddress hazard⟩

theorem Ready.ip_of_step {fault : Fault} (ready : m.Ready)
    (failed : m.step = .error (.fault fault) m')
    : fault.ip = some m.ip ∧ m'.ip = m.ip ∧ ∀ addr, fault.cause ≠ .negativeAddress addr := by
  obtain ⟨still, ⟨-, absurd⟩ | ⟨_, raised, here, known⟩⟩ := ready.raised_of_step failed
  . contradiction
  . obtain ⟨-, rfl⟩ := Fault.raised_eq_fault_iff.mp raised.symm
    exact ⟨here, still, known⟩

end Machine

namespace Program

open Machine

def Blocked (p : Program) (fault : Fault) (p' : Program) : Prop :=
  ∃ n, Machine.Reachable p.machine n ∧ fault.ip = some n.ip ∧ p'.machine.ip = n.ip
    ∧ ((∃ n', n.step = .error fault n' ∧ p'.machine = n'.record (.faulted p'.name n'.ip))
      ∨ n.step = .ok (some .needInput) n ∧ fault.cause = .inputExhausted ∧ p'.machine = n)

variable {fuel : Nat} {p q : Program}

theorem faulted_of_nextOutput {e : Failure} {inputs : List Int} (h : p.Coherent)
    (free : p.obstacle? = none) (failed : p.nextOutput fuel inputs = .error e q)
    (other : ∀ ip, e ≠ .fault { cause := .inputExhausted, ip })
    : e = .outOfFuel ∨ e = .unwritable
      ∨ ∃ fault, e = .fault fault ∧ fault.cause.IsHazard ∧ fault.ip = some q.machine.ip
          ∧ q.state = .faulted := by
  have ready := h.ready.push inputs
  cases nextOutput_cases free fuel inputs with
  | inr out =>
    obtain ⟨n, -, out⟩ := out
    rw [out] at failed
    cases failed
    exact .inl rfl
  | inl stopped =>
    obtain ⟨k, n, result, path, stops, settled⟩ := stopped
    have ready := path.ready ready
    rw [settled] at failed
    cases result with
    | ok reason n' =>
      cases reason with
      | output | halt => cases failed
      | needInput =>
        cases failed
        exact absurd rfl (other _)
    | error e' n' =>
      obtain rfl | ⟨cause, hazard, rfl⟩ := Machine.fault_of_step ready.start ready.proper stops
      . cases failed
        exact .inr (.inl rfl)
      . obtain ⟨ip, still, -⟩ := ready.ip_of_step stops
        cases failed
        refine .inr (.inr ⟨_, rfl, hazard, ?_, rfl⟩)
        rw [ip, ← still]
        rfl

theorem Lives.ready (lived : Lives p q) (ready : p.machine.Ready) : q.machine.Ready := by
  refine Lives.keeps (I := fun p => p.machine.Ready) ?_ ?_ ready lived
  . intro values p ready
    unfold feed
    split
    . exact ready
    . exact ready.push values
  . intro fuel inputs p ready
    exact nextOutput_ready inputs ready

theorem nextOutput_reachable {inputs : List Int} {value : Int}
    (h : p.nextOutput fuel inputs = .ok (some value) q)
    : Machine.Reachable p.machine q.machine := by
  cases nextOutput_cases (free_of_nextOutput h) fuel inputs with
  | inl stopped =>
    obtain ⟨k, n, result, path, stops, settled⟩ := stopped
    rw [settled] at h
    have stopped := (path.reachable (.push inputs .start)).step
    cases result with
    | ok reason n' =>
      rw [show step n = _ from stops] at stopped
      cases reason with
      | output =>
        injection h with _ same
        rw [← same]
        exact stopped.take
      | halt => cases h
      | needInput => cases h
    | error e n' =>
      cases e with
      | fault _ => cases h
      | _ => cases h
  | inr out =>
    obtain ⟨n, -, out⟩ := out
    rw [out] at h
    cases h

theorem Gives.reachable (h : Gives fuel p q) : Machine.Reachable p.machine q.machine := by
  induction h with
  | refl p => exact .start
  | next given _ ih => exact (nextOutput_reachable given).trans ih

theorem Gives.ready (h : Gives fuel p q) (ready : p.machine.Ready) : q.machine.Ready :=
  ready.reachable h.reachable

theorem Gives.blocked {p' : Program} {fault : Fault} (h : Gives fuel p p')
    (blocked : p'.Blocked fault q) : p.Blocked fault q := by
  obtain ⟨n, reached, blocked⟩ := blocked
  exact ⟨n, h.reachable.trans reached, blocked⟩

theorem nextOutput_blocked {inputs : List Int} {e : Failure} (ready : p.machine.Ready)
    (free : p.obstacle? = none) (failed : p.nextOutput fuel inputs = .error e q)
    : e = .outOfFuel ∨ e = .unwritable ∨ ∃ fault, e = .fault fault ∧ p.Blocked fault q := by
  cases nextOutput_cases free fuel inputs with
  | inr out =>
    obtain ⟨n, -, out⟩ := out
    rw [out] at failed
    cases failed
    exact .inl rfl
  | inl stopped =>
    obtain ⟨k, n, result, path, stops, settled⟩ := stopped
    have reached := path.reachable (.push inputs .start)
    have ready := path.ready (ready.push inputs)
    rw [settled] at failed
    apply Or.inr
    cases result with
    | ok reason n' =>
      cases reason with
      | output => cases failed
      | halt => cases failed
      | needInput =>
        have same : n' = n := eq_of_needInput ready.start stops
        subst same
        cases failed
        exact .inr ⟨_, rfl, n', reached, rfl, rfl, .inr ⟨stops, rfl, rfl⟩⟩
    | error e' n' =>
      obtain rfl | ⟨cause, -, rfl⟩ := Machine.fault_of_step ready.start ready.proper stops
      . cases failed
        exact .inl rfl
      . obtain ⟨ip, still, -⟩ := ready.ip_of_step stops
        cases failed
        exact .inr ⟨_, rfl, n, reached, ip, still, .inl ⟨n', stops, rfl⟩⟩

theorem Use.perform_blocked {use : Use} {e : Failure} (ready : p.machine.Ready)
    (failed : use.perform fuel p = (some e, q))
    : e = .outOfFuel ∨ e = .unwritable
      ∨ ∃ fault, e = .fault fault ∧ (p.obstacle? = some fault ∧ q = p ∨ p.Blocked fault q) := by
  obtain spent | ⟨values, called⟩ | ⟨p', inputs, gives, called⟩ := Use.perform_failure failed
  . exact .inl spent
  . unfold Program.feed at called
    split at called
    . next fault obstacle =>
      cases called
      exact .inr (.inr ⟨fault, rfl, .inl ⟨obstacle, rfl⟩⟩)
    . contradiction
  . cases free : p'.obstacle? with
    | none =>
      obtain spent | unwritten | ⟨fault, rfl, blocked⟩ :=
        nextOutput_blocked (gives.ready ready) free called
      . exact .inl spent
      . exact .inr (.inl unwritten)
      . exact .inr (.inr ⟨fault, rfl, .inr (gives.blocked blocked)⟩)
    | some fault =>
      -- A program that has given an output can be resumed, so this is the first call.
      cases gives.free with
      | inr free' =>
        rw [free] at free'
        contradiction
      | inl same =>
        subst same
        unfold nextOutput at called
        rw [free] at called
        cases called
        exact .inr (.inr ⟨fault, rfl, .inl ⟨free, rfl⟩⟩)

theorem ip_of_obstacle {fault : Fault} (h : p.obstacle? = some fault)
    : fault.ip = some p.machine.ip ∧ ∀ addr, fault.cause ≠ .negativeAddress addr := by
  unfold obstacle? at h
  split at h
  . cases h
    exact ⟨rfl, fun _ => nofun⟩
  . cases h
    exact ⟨rfl, fun _ => nofun⟩
  . contradiction

/--
Whatever a caller does with a program, its machine stays at an address, no step reads or writes at a
negative one, for which the memory would have a fault of its own, and a use that faults says where
the program is. Unless the program has come to its end before, that is at the instruction that could
not be executed.
-/
theorem failure_names_instruction {image inputs : List Int} {config : Config} {name : String}
    (proper : config.width.Proper) (loaded : load image inputs config name = .ok p)
    (lived : Lives p q)
    : (∀ n, Machine.Reachable q.machine n
        → 0 ≤ n.ip
          ∧ ∀ e n', n.step = .error e n'
              → n'.ip = n.ip
                ∧ (n.Unrecordable ∧ e = .unwritable
                  ∨ ∃ fault : Fault, e = fault.raised ∧ fault.ip = some n.ip
                    ∧ ∀ addr, fault.cause ≠ .negativeAddress addr))
      ∧ (∀ (n : Machine) (addr value : Int), addr < 0
        → readCell addr n = .error (Fault.raised { cause := .negativeAddress addr }) n
          ∧ writeCell addr value n = .error (Fault.raised { cause := .negativeAddress addr }) n)
      ∧ ∀ fuel use e q', Use.perform fuel use q = (some e, q')
        → e = .outOfFuel ∨ e = .unwritable
          ∨ ∃ fault, e = .fault fault ∧ fault.ip = some q'.machine.ip
              ∧ (∀ addr, fault.cause ≠ .negativeAddress addr)
              ∧ (q.obstacle? = some fault ∧ q' = q ∨ q.Blocked fault q') := by
  obtain ⟨m, fresh, rfl⟩ := load_iff.mp loaded
  have ready := lived.ready ((ready_of_load proper fresh).push inputs)
  refine ⟨?_, ?_, ?_⟩
  . intro n reached
    have ready := ready.reachable reached
    exact ⟨ready.start, fun _ _ failed => ready.raised_of_step failed⟩
  . intro n addr value neg
    constructor
    . simp only [readCell, Memory.read, if_pos neg]
    . simp only [writeCell, Memory.write, if_pos neg]
  . intro fuel use e q' failed
    obtain spent | unwritten | ⟨fault, rfl, refused | blocked⟩ := Use.perform_blocked ready failed
    . exact .inl spent
    . exact .inr (.inl unwritten)
    . obtain ⟨ip, known⟩ := ip_of_obstacle refused.1
      rw [refused.2]
      exact .inr (.inr ⟨fault, rfl, ip, known, .inl ⟨refused.1, rfl⟩⟩)
    . refine .inr (.inr ⟨fault, rfl, ?_, ?_, .inr blocked⟩)
      . obtain ⟨n, -, ip, still, -⟩ := blocked
        rw [ip, still]
      . obtain ⟨n, reached, -, -, ⟨n', failed, -⟩ | ⟨-, exhausted, -⟩⟩ := blocked
        . exact ((ready.reachable reached).ip_of_step failed).2.2
        . rw [exhausted]
          intro addr same
          contradiction

theorem failure_names_instruction_jump
    : let image := [3, 9, 4, 9, 1105, 1, -1]
      let config : Config := { width := .bits 12 }
      let p : Program := { name := "p", machine := { width := .bits 12, memory := .ofImage image } }
      let fault : Fault := { cause := .negativeJump (-1), ip := some 4 }
      config.width.Proper ∧ load image [] config "p" = .ok p
        ∧ ∃ q q', Lives p q ∧ Use.perform 9 (.next []) q = (some (.fault fault), q')
            ∧ q'.machine.ip = 4 ∧ q.Blocked fault q' := by
  intro image config p fault
  have proper : config.width.Proper := by decide
  have loaded : load image [] config "p" = .ok p := rfl
  -- The program finds no input, is given one and is left when it has given its output.
  have lived := Lives.use 9 (.iterate 1) (.use 9 (.feed [5]) (.use 9 (.drain []) (.start (p := p))))
  generalize seen : (Use.perform 9 (.iterate 1) _).2 = q at lived
  have failed : (Use.perform 9 (.next []) q).1 = some (.fault fault) := by
    rw [← seen]
    decide +kernel
  have free : q.obstacle? = none := by
    rw [← seen]
    decide +kernel
  obtain ⟨-, -, blamed⟩ := failure_names_instruction proper loaded lived
  refine ⟨proper, loaded, q, _, lived, Prod.ext failed rfl, ?_⟩
  obtain spent | unwritten | ⟨_, same, ip, -, refused | blocked⟩ :=
    blamed 9 _ _ _ (Prod.ext failed rfl)
  . contradiction
  . contradiction
  . rw [free] at refused
    exact absurd refused.1 nofun
  . cases same
    exact ⟨Option.some.inj ip.symm, blocked⟩

end Program

end Intcode
