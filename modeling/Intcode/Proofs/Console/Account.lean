import Intcode.Proofs.Console.Exchange
import Intcode.Proofs.Program.Intake
import Intcode.Proofs.Program.Schedule

namespace Intcode

inductive Port.Carries {π : Type} [Port π] : π → List Int → List Int → π → Prop where
  | none (port : π) : Carries port [] [] port
  | write {port port' port'' : π} {value : Int} {written read : List Int}
    : Numeral.Short value → Port.write (Port.encode value) port = (.ok (), port')
      → Carries port' written read port'' → Carries port (value :: written) read port''
  | read {port port' port'' : π} {value : Int} {written read : List Int}
    : Port.next port = (some value, port') → Carries port' written read port''
      → Carries port written (value :: read) port''

theorem not_isHazard_of_failure {e : PortError} {cause : String → Cause} {fault : Fault}
    (other : ∀ reason, ¬ (cause reason).IsHazard) (failed : e.failure cause = .fault fault)
    : ¬ fault.cause.IsHazard := by
  cases e with
  | refused reason =>
    cases failed
    exact other reason
  | mishap m => cases failed

theorem Port.not_isHazard_of_objection {π : Type} [Port π] {ip : Int} {port : π} {fault : Fault}
    (h : Port.objection ip port = .fault fault) : ¬ fault.cause.IsHazard := by
  unfold Port.objection at h
  split at h
  . exact not_isHazard_of_failure (fun _ => id) h
  . cases h
    exact id
  . cases h
    exact id

namespace Console

open Program Machine

variable {π : Type}

structure Progress (c : Console π) (states : List Machine) (d : Console π) (written read : List Int)
    (replies : List Reply) : Prop where
  sent : d.sent = c.sent ++ written
  received : d.received = c.received ++ read
  ahead : ∀ {rest : List Int} {a : Program}, Ahead (read ++ rest) c.program a
    → ∃ a', Yields a replies a' ∧ Ahead rest d.program a'
  intake : c.program.machine.inputs ++ read = states.filterMap intake? ++ d.program.machine.inputs
  dry : read ≠ [] ∨ c.program.Dry → d.program.Dry

structure Smooth (states : List Machine) (read : List Int) : Prop where
  completed : (states.filterMap intake?).length = (states.filter completesInput).length
  starved : states.countP isStarved = read.length

variable {fuel : Nat} {c d d' : Console π} {p : Program} {states states' : List Machine}
  {written written' read read' : List Int} {replies replies' : List Reply}

theorem Smooth.append (first : Smooth states read) (second : Smooth states' read')
    : Smooth (states ++ states') (read ++ read') := by
  constructor
  . simp only [List.filterMap_append, List.filter_append, List.length_append, first.completed,
      second.completed]
  . simp only [List.countP_append, List.length_append, first.starved, second.starved]

theorem Progress.trans (first : Progress c states d written read replies)
    (second : Progress d states' d' written' read' replies')
    : Progress c (states ++ states') d' (written ++ written') (read ++ read')
        (replies ++ replies') := by
  refine ⟨?_, ?_, ?_, ?_, ?_⟩
  . rw [second.sent, first.sent, List.append_assoc]
  . rw [second.received, first.received, List.append_assoc]
  . intro rest a h
    rw [List.append_assoc] at h
    obtain ⟨a', yields, h⟩ := first.ahead h
    obtain ⟨a'', yields', h⟩ := second.ahead h
    exact ⟨a'', yields.append yields', h⟩
  . rw [← List.append_assoc, first.intake, List.append_assoc, second.intake,
      List.filterMap_append, List.append_assoc]
  . intro h
    apply second.dry
    by_cases more : read' = []
    . rw [more, List.append_nil] at h
      exact .inr (first.dry h)
    . exact .inl more

theorem progress_of_call {reply : Reply} (h : c.program.Coherent)
    (called : Reply.ofResult (c.program.nextOutput fuel []) = (reply, p))
    (returned : reply ≠ .failed .outOfFuel) (written : List Int) (port : π) (journal : Array Event)
    : Progress c (c.visits fuel)
        { c with program := p.collect.2, port, sent := c.sent ++ written, journal }
        written [] ([reply].filter (·.isTelling)) := by
  have ends : p = endState (c.program.nextOutput fuel []) := by
    rw [← Reply.snd_ofResult, called]
  refine ⟨rfl, (List.append_nil _).symm, ?_, ?_, ?_⟩
  . intro rest a ahead
    have ahead : Ahead ((if reply.isRefusal then [] else []) ++ rest) c.program a := by
      rw [ite_self]
      exact ahead
    have called : Call.perform fuel (.next []) c.program = (reply, p) := called
    obtain ⟨⟨a', yields, ahead⟩, -⟩ := perform_ahead h.ready called returned ahead
    exact ⟨a', yields, ahead.collect⟩
  . rw [List.append_nil, ends]
    exact inputs_of_nextOutput h.ready fuel
  . intro dry
    have dry : c.program.Dry := dry.resolve_left fun more => more rfl
    apply Or.inl
    rw [ends]
    apply dry.inputs_of_nextOutput h
    intro p' spent
    rw [spent] at called
    cases called
    exact returned rfl

theorem progress_of_quiet_call {reply : Reply} (h : c.program.Coherent)
    (called : Reply.ofResult (c.program.nextOutput fuel []) = (reply, p))
    (returned : reply ≠ .failed .outOfFuel) (port : π) (journal : Array Event)
    : Progress c (c.visits fuel) { c with program := p.collect.2, port, journal } [] []
        ([reply].filter (·.isTelling)) := by
  have progress := progress_of_call h called returned [] port journal
  rwa [List.append_nil] at progress

theorem Progress.receive (h : Progress c states d written read replies)
    (awaiting : d.program.state = .awaitingInput) (empty : d.program.machine.inputs = [])
    (value : Int) (port : π) (journal : Array Event)
    : Progress c states
        { d with
          program := { d.program with machine := d.program.machine.push [value] }
          port
          received := d.received ++ [value]
          journal }
        written (read ++ [value]) replies := by
  refine ⟨h.sent, ?_, ?_, ?_, ?_⟩
  . rw [h.received, List.append_assoc]
  . intro rest a ahead
    rw [List.append_assoc] at ahead
    obtain ⟨a', yields, ahead⟩ := h.ahead ahead
    exact ⟨a', yields, ahead.push⟩
  . rw [← List.append_assoc, h.intake, List.append_assoc]
    rfl
  . intro _
    refine .inr ⟨awaiting, value, ?_⟩
    show d.program.machine.inputs ++ [value] = _
    rw [empty]
    rfl

theorem Progress.inputs_eq_nil (h : Progress c states d written read replies)
    (halted : d.program.state = .halted) (more : read ≠ []) : d.program.machine.inputs = [] := by
  obtain empty | ⟨awaiting, -⟩ := h.dry (.inl more)
  . exact empty
  . exact absurd (halted.symm.trans awaiting) nofun

theorem Progress.length_read (h : Progress c states d written read replies)
    (smooth : Smooth states read) (halted : d.program.state = .halted)
    : read.length = (states.filter completesInput).length - c.program.machine.inputs.length := by
  have count := congrArg List.length h.intake
  rw [List.length_append, List.length_append, smooth.completed] at count
  by_cases more : read = []
  . rw [more, List.length_nil] at count ⊢
    omega
  . rw [h.inputs_eq_nil halted more, List.length_nil] at count
    omega

theorem smooth_of_call {reply : Reply} {read : List Int} (h : c.program.Coherent)
    (called : Reply.ofResult (c.program.nextOutput fuel []) = (reply, p))
    (unfailed : ∀ e, reply = .failed e → ∃ ip, e = .fault { cause := .inputExhausted, ip })
    (starved : (match outcome (c.program.nextOutput fuel []) with
      | .error (.fault { cause := .inputExhausted, .. }) => 1
      | _ => 0) = read.length)
    : Smooth (c.visits fuel) read := by
  constructor
  . apply length_of_visits h.ready
    show ∀ e, (Reply.ofResult (c.program.nextOutput fuel [])).1 = _ → _
    rw [called]
    exact unfailed
  . rw [← starved]
    exact starved_of_visits h.ready fuel []

section

variable [Port π]

def Settles (port : π) (written read : List Int) (replies : List Reply)
    : EStateM.Result Failure (Console π) Bool → Prop
  | .ok true d => replies = written.map .gave ∧ Port.Carries port written read d.port
  | .ok false d => written = [] ∧ read = [] ∧ replies = [.ended] ∧ d.port = port
  | .error e d =>
    written = [] ∧ read = []
      ∧ ∀ fault, e = .fault fault → fault.cause.IsHazard → replies = [.failed e] ∧ d.port = port

theorem exchange_progress {result : EStateM.Result Failure (Console π) Bool}
    (h : c.program.Coherent) (first : exchange fuel c = result)
    (returned : ∀ d, result ≠ .error .outOfFuel d)
    : ∃ written read replies,
        Progress c (c.visits fuel) (endState result) written read replies
          ∧ (∀ going d, result = .ok going d → Smooth (c.visits fuel) read)
          ∧ Settles c.port written read replies result := by
  have turn := exchange_turn fuel h
  rw [first] at turn
  cases turn with
  | @ended p journal ended =>
    have called : Reply.ofResult (c.program.nextOutput fuel []) = (.ended, p) :=
      congrArg Reply.ofResult ended
    have progress := progress_of_quiet_call h called nofun c.port journal
    refine ⟨[], [], _, progress, ?_, rfl, rfl, rfl, rfl⟩
    intro _ _ _
    apply smooth_of_call h called nofun
    rw [ended]
    rfl
  | @sent p value port journal gave short write =>
    have called : Reply.ofResult (c.program.nextOutput fuel []) = (.gave value, p) :=
      congrArg Reply.ofResult gave
    have progress := progress_of_call h called nofun [value] port journal
    refine ⟨[value], [], _, progress, ?_, rfl, .write short write (.none _)⟩
    intro _ _ _
    apply smooth_of_call h called nofun
    rw [gave]
    rfl
  | @unsent p value port e journal gave _ _ =>
    have called : Reply.ofResult (c.program.nextOutput fuel []) = (.gave value, p) :=
      congrArg Reply.ofResult gave
    have progress := progress_of_quiet_call h called nofun port journal
    refine ⟨[], [], _, progress, fun _ _ ok => absurd ok error_ne_ok, rfl, rfl, ?_⟩
    intro fault failed hazard
    exact absurd hazard (not_isHazard_of_failure (fun _ => id) failed)
  | @unwritten p value journal gave _ =>
    have called : Reply.ofResult (c.program.nextOutput fuel []) = (.gave value, p) :=
      congrArg Reply.ofResult gave
    have progress := progress_of_quiet_call h called nofun c.port journal
    refine ⟨[], [], _, progress, fun _ _ ok => absurd ok error_ne_ok, rfl, rfl, ?_⟩
    rintro fault ⟨⟩
  | @received p ip value port journal exhausted next =>
    obtain ⟨awaiting, empty, -⟩ := awaiting_of_nextOutput h exhausted
    have called : Reply.ofResult (c.program.nextOutput fuel [])
        = (.failed (.fault { cause := .inputExhausted, ip }), p) :=
          congrArg Reply.ofResult exhausted
    have progress := progress_of_quiet_call h called nofun c.port #[]
    have progress := progress.receive awaiting empty value port journal
    refine ⟨[], [value], _, progress, ?_, rfl, .read next (.none _)⟩
    intro _ _ _
    apply smooth_of_call h called
    . rintro e ⟨⟩
      exact ⟨ip, rfl⟩
    . rw [exhausted]
      rfl
  | @unread p ip port journal exhausted next =>
    have called : Reply.ofResult (c.program.nextOutput fuel [])
        = (.failed (.fault { cause := .inputExhausted, ip }), p) :=
          congrArg Reply.ofResult exhausted
    have progress := progress_of_quiet_call h called nofun port journal
    refine ⟨[], [], _, progress, fun _ _ ok => absurd ok error_ne_ok, rfl, rfl, ?_⟩
    intro fault failed hazard
    exact absurd hazard (Port.not_isHazard_of_objection failed)
  | @failed p e journal failed other =>
    have called : Reply.ofResult (c.program.nextOutput fuel []) = (.failed e, p) :=
      congrArg Reply.ofResult failed
    have returned : Reply.failed e ≠ .failed .outOfFuel := by
      rintro ⟨⟩
      exact returned _ rfl
    have progress := progress_of_quiet_call h called returned c.port journal
    refine ⟨[], [], _, progress, fun _ _ ok => absurd ok error_ne_ok, rfl, rfl, ?_⟩
    rintro fault rfl hazard
    rw [List.filter_cons_of_pos (isTelling_of_isHazard hazard)]
    exact ⟨rfl, rfl⟩

theorem carries_trans {port port' port'' : π} (first : Port.Carries port written read port')
    (second : Port.Carries port' written' read' port'')
    : Port.Carries port (written ++ written') (read ++ read') port'' := by
  induction first with
  | none port => exact second
  | write short one _ ih => exact .write short one (ih second)
  | read one _ ih => exact .read one (ih second)

def Closes (port : π) (written : List Int) (replies : List Reply)
    : EStateM.Result Failure (Console π) Unit → Prop
  | .ok _ d => replies = written.map .gave ++ [.ended] ∧ d.port = port
  | .error e d =>
    ∀ fault, e = .fault fault → fault.cause.IsHazard
      → replies = written.map .gave ++ [.failed e] ∧ d.port = port

theorem Serves.progress {result : EStateM.Result Failure (Console π) Unit}
    (h : c.program.Coherent) (served : Serves fuel c states result)
    (returned : ∀ d, result ≠ .error .outOfFuel d)
    : ∃ written read replies port, Progress c states (endState result) written read replies
        ∧ (∀ d, result = .ok () d → Smooth states read)
        ∧ Port.Carries c.port written read port ∧ Closes port written replies result := by
  induction served with
  | @ended c d first =>
    obtain ⟨written, read, replies, progress, smooth, rfl, rfl, told, port⟩ :=
      exchange_progress h first fun _ => ok_ne_error
    exact ⟨[], [], replies, c.port, progress, fun _ _ => smooth _ _ rfl, .none _, told, port⟩
  | @failed c d e first =>
    obtain ⟨written, read, replies, progress, -, rfl, rfl, told⟩ :=
      exchange_progress h first (error_ne_error returned)
    exact ⟨[], [], replies, c.port, progress, fun _ ok => absurd ok error_ne_ok, .none _, told⟩
  | @more c c' states result first _ ih =>
    obtain ⟨written, read, replies, progress, smooth, rfl, carries⟩ :=
      exchange_progress h first fun _ => ok_ne_error
    have h : c'.program.Coherent := by
      have kept := (exchange_turn fuel h).coherent h
      rw [first] at kept
      exact kept
    obtain ⟨written', read', replies', port, progress', smooth', carries', closes⟩ := ih h returned
    refine ⟨_, _, _, port, progress.trans progress', ?_, carries_trans carries carries', ?_⟩
    . intro d ended
      exact (smooth _ _ rfl).append (smooth' d ended)
    . cases result with
      | ok _ d =>
        obtain ⟨rfl, same⟩ := closes
        refine ⟨?_, same⟩
        rw [List.map_append, List.append_assoc]
      | error e d =>
        intro fault failed hazard
        obtain ⟨rfl, same⟩ := closes fault failed hazard
        refine ⟨?_, same⟩
        rw [List.map_append, List.append_assoc]

end

end Console

end Intcode
