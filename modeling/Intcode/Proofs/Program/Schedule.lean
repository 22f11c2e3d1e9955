import Intcode.Proofs.Machine.Load
import Intcode.Proofs.Machine.Stop
import Intcode.Proofs.Machine.Supply
import Intcode.Proofs.Program.Session

/-!
Schedules: what a program does depends on the inputs that it gets in the end, not on when it gets
them. A program that is fed bit by bit is compared with one that has all inputs from the start.
-/
namespace Intcode

namespace Machine

theorem Supplied.push {values rest : List Int} {m n : Machine} (h : Supplied (values ++ rest) m n)
    : Supplied rest (m.push values) n := by
  obtain ⟨journal, rfl⟩ := h
  refine ⟨journal, ?_⟩
  unfold Machine.push
  rw [List.append_assoc]

end Machine

namespace Program

open Machine

/--
The second program is where the first will be with the rest of the inputs. While the first one waits
for an input, the second has still to get to that point.
-/
def Ahead (rest : List Int) (b a : Program) : Prop :=
  match b.state with
  | .awaitingInput =>
    a.obstacle? = none ∧ ∃ k n, Path k a.machine n ∧ Supplied rest b.machine n
  | state => a.state = state ∧ Supplied rest b.machine a.machine

variable {rest : List Int} {a b : Program}

theorem Ahead.path (h : Ahead rest b a) (free : b.obstacle? = none)
    : a.obstacle? = none ∧ ∃ k n, Path k a.machine n ∧ Supplied rest b.machine n := by
  unfold Ahead at h
  unfold obstacle? at free
  cases state : b.state with
  | running | suspended =>
    rw [state] at h
    refine ⟨?_, 0, a.machine, .refl _, h.2⟩
    unfold obstacle?
    rw [h.1]
  | awaitingInput =>
    rw [state] at h
    exact h
  | halted | faulted =>
    rw [state] at free
    contradiction

theorem Ahead.of_going (h : Ahead rest b a) (going : b.state = .running ∨ b.state = .suspended)
    : a.state = b.state ∧ Supplied rest b.machine a.machine := by
  unfold Ahead at h
  cases going with
  | inl state =>
    rw [state] at h ⊢
    exact h
  | inr state =>
    rw [state] at h ⊢
    exact h

theorem Ahead.imp {rest' : List Int} {b' : Program} (h : Ahead rest b a)
    (state : b'.state = b.state)
    (supplied : ∀ n, Supplied rest b.machine n → Supplied rest' b'.machine n)
    : Ahead rest' b' a := by
  unfold Ahead at h ⊢
  rw [state]
  generalize b.state = state at h ⊢
  cases state with
  | awaitingInput =>
    obtain ⟨free, k, n, path, h⟩ := h
    exact ⟨free, k, n, path, supplied n h⟩
  | _ => exact ⟨h.1, supplied _ h.2⟩

theorem Ahead.push {values : List Int} (h : Ahead (values ++ rest) b a)
    : Ahead rest { b with machine := b.machine.push values } a :=
  h.imp rfl fun _ supplied => supplied.push

theorem Ahead.collect (h : Ahead rest b a) : Ahead rest b.collect.2 a :=
  h.imp rfl fun _ supplied => supplied

theorem yields_of_stops {k : Nat} {n : Machine} {reply : Reply} {a' : Program}
    {result : EStateM.Result Failure Machine StopReason} (free : a.obstacle? = none)
    (path : Path k a.machine n) (stops : Stops n result)
    (settled : Reply.ofResult (settle a.name result) = (reply, a')) : Yields a [reply] a' := by
  refine ⟨k + 1, ?_⟩
  intro fuel enough
  have ran : run fuel a.machine = result := run_of_path path stops enough
  simp only [List.length_singleton, List.replicate_one, session, Call.perform,
    nextOutput_of_free free, push_nil, ran, settled]

theorem isTelling_of_isHazard {cause : Cause} {ip : Option Int} (h : cause.IsHazard)
    : (Reply.failed (.fault { cause, ip })).isTelling = true := by
  cases cause with
  | inputExhausted | alreadyHalted | faultedEarlier => contradiction
  | _ => rfl

theorem settle_ahead {m : Machine} {result result' : EStateM.Result Failure Machine StopReason}
    (ready : m.Ready) (stops : Stops m result) (going : result ≠ .ok .needInput m)
    (related : Related Exact (Supplied rest) result result') (name name' : String)
    : ∃ reply b' a', Reply.ofResult (settle name result) = (reply, b')
        ∧ Reply.ofResult (settle name' result') = (reply, a')
        ∧ reply.isTelling = true ∧ Ahead rest b' a' ∧ b'.machine.Ready := by
  have moved := stops.ready ready
  cases result with
  | ok reason m' =>
    obtain ⟨n', rfl, journal, rfl⟩ := related.of_ok
    cases reason with
    | output =>
      obtain ⟨value, pending⟩ := pending_of_output ready.start stops
      simp only [settle, takeOutput, pending]
      exact ⟨.gave value, _, _, rfl, rfl, rfl, ⟨rfl, journal, rfl⟩, moved.start, moved.proper⟩
    | halt => exact ⟨.ended, _, _, rfl, rfl, rfl, ⟨rfl, _, rfl⟩, moved.start, moved.proper⟩
    | needInput =>
      have : m' = m := eq_of_needInput ready.start stops
      rw [this] at going
      contradiction
  | error e m' =>
    obtain ⟨n', rfl, journal, rfl⟩ := related.of_error
    obtain rfl | ⟨cause, hazard, rfl⟩ := fault_of_step ready.start ready.proper stops
    . exact ⟨_, _, _, rfl, rfl, rfl, ⟨rfl, _, rfl⟩, moved.start, moved.proper⟩
    . refine ⟨_, _, _, rfl, rfl, isTelling_of_isHazard hazard, ⟨rfl, _, rfl⟩, ?_⟩
      exact ⟨moved.start, moved.proper⟩

theorem nextOutput_ahead {inputs : List Int} (ready : b.machine.Ready) (free : b.obstacle? = none)
    (h : Ahead (inputs ++ rest) b a) {fuel : Nat} {reply : Reply} {b' : Program}
    (called : Reply.ofResult (b.nextOutput fuel inputs) = (reply, b'))
    (returned : reply ≠ .failed .outOfFuel)
    : (∃ a', Yields a ([reply].filter (·.isTelling)) a' ∧ Ahead rest b' a')
      ∧ reply.isRefusal = false ∧ b'.machine.Ready := by
  have ready := ready.push inputs
  obtain ⟨free', k, n, path, supplied⟩ := h.push.path free
  cases nextOutput_cases free fuel inputs with
  | inr out =>
    obtain ⟨m', -, out⟩ := out
    rw [out] at called
    cases called
    contradiction
  | inl stopped =>
    obtain ⟨j, m', result, path', stops, settled⟩ := stopped
    rw [settled] at called
    have ready' := path'.ready ready
    obtain ⟨n', path'', supplied'⟩ := path'.supplied ready supplied
    have path := path.trans path''
    -- A stalled program has told nothing, and the other one has not been resumed.
    by_cases stalled : result = .ok .needInput m'
    . rw [stalled] at called
      cases called
      exact ⟨⟨a, .nil a, free', _, n', path, supplied'⟩, rfl, ready'⟩
    . have related := (stops.supplied ready'.start supplied').resolve_left stalled
      obtain ⟨result', stops', related⟩ := related
      obtain ⟨reply', b'', a', settled, settled', telling, ahead, ready''⟩ :=
        settle_ahead ready' stops stalled related b.name a.name
      rw [settled] at called
      cases called
      refine ⟨⟨a', ?_, ahead⟩, Reply.isRefusal_of_isTelling telling, ready''⟩
      rw [List.filter_cons_of_pos telling]
      exact yields_of_stops free' path stops' settled'

theorem ahead_push (b : Program) (inputs : List Int)
    : Ahead (inputs ++ []) b { b with machine := b.machine.push inputs } := by
  have supplied : Supplied (inputs ++ []) b.machine (b.machine.push inputs) := by
    rw [List.append_nil]
    exact ⟨b.machine.journal, rfl⟩
  unfold Ahead
  cases state : b.state with
  | awaitingInput => exact ⟨rfl, 0, _, .refl _, supplied⟩
  | _ => exact ⟨rfl, supplied⟩

theorem ahead_of_push (m : Machine) (early rest : List Int) (name name' : String)
    : Ahead rest { name, machine := m.push early }
        { name := name', machine := m.push (early ++ rest) } := by
  refine ⟨rfl, m.journal, ?_⟩
  simp only [Machine.push, List.append_assoc]

theorem perform_ahead {fuel : Nat} {call : Call} {reply : Reply} {b' : Program}
    (ready : b.machine.Ready) (called : call.perform fuel b = (reply, b'))
    (returned : reply ≠ .failed .outOfFuel)
    (h : Ahead ((if reply.isRefusal then [] else call.values) ++ rest) b a)
    : (∃ a', Yields a ([reply].filter (·.isTelling)) a' ∧ Ahead rest b' a')
      ∧ b'.machine.Ready := by
  cases free : b.obstacle? with
  | some fault =>
    obtain ⟨same, refused⟩ := perform_of_obstacle free fuel call
    rw [same] at called
    cases called
    rw [if_pos refused] at h
    refine ⟨⟨a, ?_, h⟩, ready⟩
    have untelling : ¬ (Reply.failed fault).isTelling = true := by
      intro telling
      rw [Reply.isRefusal_of_isTelling telling] at refused
      contradiction
    rw [List.filter_cons_of_neg untelling]
    exact .nil a
  | none =>
    cases call with
    | feed values =>
      simp only [Call.perform, feed, free] at called
      cases called
      exact ⟨⟨a, .nil a, h.push⟩, ready.push values⟩
    | next inputs =>
      have accepted : reply.isRefusal = false :=
        (nextOutput_ahead ready free (ahead_push b inputs) called returned).2.1
      rw [accepted] at h
      obtain ⟨ahead, -, ready⟩ := nextOutput_ahead ready free h called returned
      exact ⟨ahead, ready⟩

theorem session_ahead {fuel : Nat} {calls : List Call} {replies : List Reply} {b' : Program}
    (ready : b.machine.Ready) (driven : session fuel calls b = (replies, b'))
    (returned : .failed .outOfFuel ∉ replies) (h : Ahead (accepted calls replies ++ rest) b a)
    : ∃ a', Yields a (replies.filter (·.isTelling)) a' ∧ Ahead rest b' a' := by
  induction calls generalizing a b replies with
  | nil =>
    cases driven
    exact ⟨a, .nil a, h⟩
  | cons call calls ih =>
    obtain ⟨reply, b₁, replies', called, driven', rfl⟩ := session_cons driven
    rw [List.mem_cons, not_or] at returned
    -- What the first call feeds is set apart from what the others do.
    have h : Ahead ((if reply.isRefusal then [] else call.values)
        ++ (accepted calls replies' ++ rest)) b a := by
      rw [← List.append_assoc]
      exact h
    obtain ⟨⟨a₁, yields, h⟩, ready⟩ := perform_ahead ready called (Ne.symm returned.1) h
    obtain ⟨a', yields', h⟩ := ih ready driven' returned.2 h
    refine ⟨a', ?_, h⟩
    rw [← List.singleton_append, List.filter_append]
    exact yields.append yields'

/--
A program that is fed bit by bit, resumed at any time and retried when it found no input tells what
one does that is given all inputs at once, and comes to the same state.
-/
theorem session_schedule {image : List Int} {config : Config} {name name' : String}
    {early rest : List Int} {fuel : Nat} {calls : List Call} {replies : List Reply} {b' : Program}
    (proper : config.width.Proper) (loaded : load image early config name = .ok b)
    (driven : session fuel calls b = (replies, b')) (returned : .failed .outOfFuel ∉ replies)
    : ∃ a a', load image (early ++ accepted calls replies ++ rest) config name' = .ok a
        ∧ Yields a (replies.filter (·.isTelling)) a' ∧ Ahead rest b' a' := by
  obtain ⟨m, fresh, rfl⟩ := load_iff.mp loaded
  have ready := ready_of_load proper fresh
  -- The other program has been given all that the calls are going to feed, and more.
  have h := ahead_of_push m early (accepted calls replies ++ rest) name name'
  rw [← List.append_assoc] at h
  obtain ⟨a', yields, ahead⟩ := session_ahead (ready.push early) driven returned h
  exact ⟨_, a', load_iff.mpr ⟨m, fresh, rfl⟩, yields, ahead⟩

theorem session_schedule_echo
    : let image := [3, 9, 4, 9, 3, 9, 4, 9, 99, 0]
      let config : Config := { width := .bits 8, tracing := true }
      let calls : List Call := [.next [], .feed [5], .next [], .next [], .next [-7, 2], .next [],
        .next [1]]
      let b : Program :=
        { name := "b"
          machine := { width := .bits 8, memory := .ofImage image, tracing := true } }
      let replies : List Reply :=
        [.failed (.fault { cause := .inputExhausted, ip := some 0 }), .fed, .gave 5,
          .failed (.fault { cause := .inputExhausted, ip := some 4 }), .gave (-7), .ended,
          .failed (.fault { cause := .alreadyHalted "b", ip := some 8 })]
      config.width.Proper ∧ load image [] config "b" = .ok b
        ∧ .failed .outOfFuel ∉ replies
        ∧ ∃ b' a a', session 5 calls b = (replies, b')
            ∧ load image [5, -7, 2, 6] config "a" = .ok a
            ∧ Yields a [.gave 5, .gave (-7), .ended] a' ∧ Ahead [6] b' a' := by
  intro image config calls b replies
  have proper : config.width.Proper := by decide
  have loaded : load image [] config "b" = .ok b := rfl
  have replied : (session 5 calls b).1 = replies := by decide +kernel
  have driven : session 5 calls b = (replies, (session 5 calls b).2) := Prod.ext replied rfl
  have returned : .failed .outOfFuel ∉ replies := by decide
  refine ⟨proper, loaded, returned, (session 5 calls b).2, ?_⟩
  obtain ⟨a, a', scheduled⟩ :=
    @session_schedule b image config "b" "a" [] [6] 5 calls replies _ proper loaded driven returned
  exact ⟨a, a', driven, scheduled⟩

end Program

end Intcode
