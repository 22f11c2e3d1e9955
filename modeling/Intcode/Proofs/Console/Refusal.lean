import Mathlib.Data.List.Enum
import Intcode.Proofs.Console.Pursuit
import Intcode.Proofs.Program.Pace

/-!
Refusals: a write that fails loses the value that was to be written, and nothing else. Who serves
again after every failure of the link has an attempt made for each output, once and in order.
-/
namespace Intcode

namespace Script

def kept (script : Script) (values : List Int) : List Int :=
  ((values.zipIdx script.attempts).filter fun (_, attempt) =>
    !script.refused.contains attempt).map (·.1)

structure Leads (script script' : Script) (values read : List Int) : Prop where
  refused : script'.refused = script.refused
  attempts : script'.attempts = script.attempts + values.length
  written : script'.written = script.written ++ (script.kept values).map Port.encode
  items : ∃ items, script.lines = items ++ script'.lines ∧ numbers items = read

variable {script script' script'' : Script} {values values' read read' : List Int} {value : Int}

theorem Leads.kept_append (h : Leads script script' values read) (values' : List Int)
    : script.kept (values ++ values') = script.kept values ++ script'.kept values' := by
  unfold kept
  rw [List.zipIdx_append, List.filter_append, List.map_append, h.refused, h.attempts]

theorem Leads.trans (first : Leads script script' values read)
    (second : Leads script' script'' values' read')
    : Leads script script'' (values ++ values') (read ++ read') := by
  refine ⟨second.refused.trans first.refused, ?_, ?_, ?_⟩
  . rw [second.attempts, first.attempts, List.length_append, Nat.add_assoc]
  . rw [second.written, first.written, first.kept_append, List.map_append, List.append_assoc]
  . obtain ⟨items, lines, rfl⟩ := first.items
    obtain ⟨items', lines', rfl⟩ := second.items
    refine ⟨items ++ items', ?_, ?_⟩
    . rw [lines, lines', List.append_assoc]
    . exact List.filterMap_append

theorem Leads.refl (script : Script) : Leads script script [] [] :=
  ⟨rfl, rfl, (List.append_nil _).symm, [], rfl, rfl⟩

theorem leads_of_write (h : Port.write (Port.encode value) script = (.ok (), script'))
    : script.kept [value] = [value] ∧ Leads script script' [value] [] := by
  simp only [Port.write] at h
  split at h
  . cases h
  . next willing =>
    cases h
    have kept : script.kept [value] = [value] := by
      unfold kept
      rw [List.zipIdx_singleton, List.filter_cons_of_pos (by simpa using willing)]
      rfl
    exact ⟨kept, rfl, rfl, by rw [kept]; rfl, [], rfl, rfl⟩

theorem leads_of_refusal {e : PortError}
    (h : Port.write (Port.encode value) script = (.error e, script'))
    : script.kept [value] = [] ∧ Leads script script' [value] [] := by
  simp only [Port.write] at h
  split at h
  . next unwilling =>
    cases h
    have kept : script.kept [value] = [] := by
      unfold kept
      rw [List.zipIdx_singleton, List.filter_cons_of_neg (by simpa using unwilling)]
      rfl
    exact ⟨kept, rfl, rfl, by rw [kept]; exact (List.append_nil _).symm, [], rfl, rfl⟩
  . cases h

theorem leads_of_next {number : Option Int} (h : Port.next script = (number, script'))
    : Leads script script' [] number.toList := by
  cases lines : script.lines with
  | nil =>
    rw [next_nil lines] at h
    cases h
    exact .refl script
  | cons item rest =>
    rw [next_cons lines] at h
    cases h
    exact ⟨rfl, rfl, (List.append_nil _).symm, [item], lines, numbers_singleton item⟩

theorem kept_eq_iff
    : script.kept values = values ↔ ∀ i < values.length, script.attempts + i ∉ script.refused := by
  have all : script.kept values = values
      ↔ ∀ pair ∈ values.zipIdx script.attempts, (!script.refused.contains pair.2) = true := by
    unfold kept
    constructor
    . intro same
      have length := congrArg List.length same
      rw [List.length_map] at length
      apply List.length_filter_eq_length_iff.mp
      rw [length, List.length_zipIdx]
    . intro none
      rw [List.filter_eq_self.mpr none, List.zipIdx_map_fst]
  rw [all, List.forall_mem_zipIdx]
  simp

end Script

namespace Program

open Machine

variable {fuel fuel' bound : Nat} {rest values : List Int} {a a' b b' : Program}

theorem Ahead.replies {reply reply' : Reply} (ahead : Ahead rest b a) (ready : b.machine.Ready)
    (free : b.obstacle? = none) (called : Reply.ofResult (b.nextOutput fuel []) = (reply, b'))
    (returned : reply ≠ .failed .outOfFuel)
    (called' : Reply.ofResult (a.nextOutput fuel' []) = (reply', a'))
    (returned' : reply' ≠ .failed .outOfFuel)
    : (reply = reply' ∧ Ahead rest b' a')
      ∨ (∃ ip, reply = .failed (.fault { cause := .inputExhausted, ip })) ∧ Ahead rest b' a := by
  have yields := yields_of_nextOutput called returned
  obtain ⟨⟨a'', told, ahead'⟩, accepted⟩ := yields.ahead ready free ahead returned
  cases telling : reply.isTelling with
  | true =>
    rw [List.filter_cons_of_pos telling] at told
    obtain ⟨rfl, rfl⟩ := told.unique (yields_of_nextOutput called' returned')
    exact .inl ⟨rfl, ahead'⟩
  | false =>
    rw [List.filter_cons_of_neg (by rw [telling]; exact Bool.false_ne_true)] at told
    obtain rfl := told.eq_of_nil
    refine .inr ⟨?_, ahead'⟩
    unfold Reply.isTelling at telling
    split at telling
    . cases result : b.nextOutput fuel [] with
      | error e p =>
        rw [result] at called
        cases called
      | ok out p =>
        rw [result] at called
        cases out <;> cases called
    . exact ⟨_, rfl⟩
    . rw [accepted] at telling
      contradiction

theorem outputsUpTo_cases (given : a.outputsUpTo fuel (bound + 1) [] = .ok values a')
    : ∃ reply a₁, Reply.ofResult (a.nextOutput fuel []) = (reply, a₁)
        ∧ (reply = .ended
          ∨ ∃ value rest, reply = .gave value ∧ a₁.outputsUpTo fuel bound [] = .ok rest a'
              ∧ values = value :: rest) := by
  rw [outputsUpTo_succ] at given
  cases called : a.nextOutput fuel [] with
  | error e a₁ =>
    rw [called] at given
    cases given
  | ok out a₁ =>
    cases out with
    | none => exact ⟨_, a₁, rfl, .inl rfl⟩
    | some value =>
      rw [called] at given
      dsimp only at given
      cases more : a₁.outputsUpTo fuel bound [] with
      | error e p =>
        rw [more] at given
        cases given
      | ok rest p =>
        rw [more] at given
        cases given
        exact ⟨_, a₁, rfl, .inr ⟨value, rest, rfl, more, rfl⟩⟩

end Program

namespace Console

open Program Machine

variable {fuel : Nat} {c c' d : Console Script} {e : Failure}

def Tells (c d : Console Script) (values read : List Int) (last : List Reply) : Prop :=
  ∃ states, Progress c states d (c.port.kept values) read (values.map .gave ++ last)
    ∧ Script.Leads c.port d.port values read

theorem Tells.trans {values values' read read' : List Int} {last : List Reply}
    (first : Tells c c' values read []) (second : Tells c' d values' read' last)
    : Tells c d (values ++ values') (read ++ read') last := by
  obtain ⟨states, progress, leads⟩ := first
  obtain ⟨states', progress', leads'⟩ := second
  refine ⟨states ++ states', ?_, leads.trans leads'⟩
  rw [List.append_nil] at progress
  rw [leads.kept_append, List.map_append, List.append_assoc]
  exact progress.trans progress'

theorem Tells.of_opened {values read : List Int} {last : List Reply}
    (h : Tells c.opened d values read last) : Tells c d values read last := by
  obtain ⟨states, progress, leads⟩ := h
  exact ⟨states, ⟨progress.sent, progress.received, progress.ahead, progress.intake, progress.dry⟩,
    leads⟩

theorem tells_of_ended (h : c.program.Coherent) (ended : exchange fuel c = .ok false d)
    : Tells c d [] [] [.ended] := by
  obtain ⟨_, _, _, progress, -, rfl, rfl, rfl, port⟩ :=
    exchange_progress h ended fun _ => ok_ne_error
  refine ⟨_, progress, ?_⟩
  rw [port]
  exact .refl c.port

theorem tells_of_going (h : c.program.Coherent) (going : exchange fuel c = .ok true d)
    : ∃ values read, Tells c d values read [] := by
  have turn := exchange_turn fuel h
  rw [going] at turn
  cases turn with
  | @sent p value port journal gave _ write =>
    obtain ⟨kept, leads⟩ := Script.leads_of_write write
    have called : Reply.ofResult (c.program.nextOutput fuel []) = (.gave value, p) :=
      congrArg Reply.ofResult gave
    refine ⟨[value], [], c.visits fuel, ?_, leads⟩
    rw [kept]
    exact progress_of_call h called nofun [value] port journal
  | @received p ip value port journal exhausted next =>
    obtain ⟨awaiting, empty, -⟩ := awaiting_of_nextOutput h exhausted
    have called : Reply.ofResult (c.program.nextOutput fuel [])
        = (.failed (.fault { cause := .inputExhausted, ip }), p) :=
          congrArg Reply.ofResult exhausted
    have progress := progress_of_quiet_call h called nofun c.port #[]
    exact ⟨[], [value], _, progress.receive awaiting empty value port journal,
      Script.leads_of_next next⟩

theorem tells_of_linked (h : c.program.Coherent) (failed : exchange fuel c = .error e d)
    (linked : e.isLink = true) : ∃ values, Tells c d values [] [] := by
  have turn := exchange_turn fuel h
  rw [failed] at turn
  cases turn with
  | @unsent p value port e journal gave _ write =>
    obtain ⟨kept, leads⟩ := Script.leads_of_refusal write
    have called : Reply.ofResult (c.program.nextOutput fuel []) = (.gave value, p) :=
      congrArg Reply.ofResult gave
    refine ⟨[value], c.visits fuel, ?_, leads⟩
    rw [kept]
    exact progress_of_quiet_call h called nofun port journal
  | @unread p ip port journal exhausted next =>
    have called : Reply.ofResult (c.program.nextOutput fuel [])
        = (.failed (.fault { cause := .inputExhausted, ip }), p) :=
          congrArg Reply.ofResult exhausted
    exact ⟨[], _, progress_of_quiet_call h called nofun port journal, Script.leads_of_next next⟩
  | unwritten _ _ => contradiction
  | failed called other =>
    rw [isLink_of_nextOutput h called other] at linked
    contradiction

def insistsOn (e : Failure) (_ : Console Script) : Bool :=
  e.isLink

def insist (fuel : Nat) : EStateM Failure (Console Script) (List Int) :=
  retryUpTo insistsOn fuel fuel

theorem Pursues.tells {result : EStateM.Result Failure (Console Script) Unit}
    (pursued : Pursues insistsOn fuel c result) (h : c.program.Coherent) (ended : result = .ok () d)
    : ∃ values read, Tells c d values read [.ended] := by
  induction pursued with
  | ended first =>
    cases ended
    exact ⟨[], [], tells_of_ended h first⟩
  | failed _ _ => cases ended
  | more first _ ih =>
    obtain ⟨values, read, tells⟩ := tells_of_going h first
    obtain ⟨values', read', tells'⟩ := ih (exchange_coherent h first) ended
    exact ⟨_, _, tells.trans tells'⟩
  | retried first called _ ih =>
    obtain ⟨values, tells⟩ := tells_of_linked h first called
    obtain ⟨values', read', tells'⟩ := ih (exchange_coherent h first) ended
    exact ⟨_, _, tells.trans tells'.of_opened⟩

def Returns (c : Console Script) : Prop :=
  ∃ fuel d, Pursues insistsOn fuel c (.ok () d)

theorem Returns.more (first : exchange fuel c = .ok true c') (h : c'.Returns) : c.Returns := by
  obtain ⟨fuel', d, rest⟩ := h
  refine ⟨max fuel fuel', d, .more ?_ (rest.mono (Nat.le_max_right _ _) (fun _ => rfl) ?_)⟩
  . exact exchange_mono (Nat.le_max_left _ _) first fun _ => ok_ne_error
  . exact fun _ => ok_ne_error

theorem Returns.retried (first : exchange fuel c = .error e c') (linked : e.isLink = true)
    (h : c'.opened.Returns) : c.Returns := by
  obtain ⟨fuel', d, rest⟩ := h
  have rest := rest.mono (Nat.le_max_right fuel fuel') (fun _ => rfl) fun _ => ok_ne_error
  refine ⟨max fuel fuel', d, .retried ?_ linked rest⟩
  apply exchange_mono (Nat.le_max_left _ _) first
  rintro _ ⟨⟩
  contradiction

/-- The program goes on, and the other one is where it will be when all the lines have been read. -/
structure Behind (c : Console Script) (a : Program) : Prop where
  coherent : c.program.Coherent
  free : c.program.obstacle? = none
  ahead : Ahead (Script.numbers c.port.lines) c.program a

namespace Behind

variable {fuel' : Nat} {a a' : Program} {reply : Reply} {port : Script} {ip : Option Int}

theorem replies {reply' : Reply} (h : Behind c a)
    (called : Reply.ofResult (a.nextOutput fuel []) = (reply, a'))
    (returned : ∀ e, reply ≠ .failed e)
    (called' : Reply.ofResult (c.program.nextOutput fuel' []) = (reply', p))
    (returned' : reply' ≠ .failed .outOfFuel)
    : (reply' = reply ∧ Ahead (Script.numbers c.port.lines) p a')
      ∨ (∃ ip, reply' = .failed (.fault { cause := .inputExhausted, ip }))
          ∧ Ahead (Script.numbers c.port.lines) p a :=
  h.ahead.replies h.coherent.ready h.free called' returned' called (returned _)

theorem opened (h : Behind c a) : Behind c.opened a :=
  ⟨h.coherent, h.free, h.ahead⟩

theorem gave {value : Int} (h : Behind c a)
    (called : Reply.ofResult (a.nextOutput fuel []) = (reply, a'))
    (returned : ∀ e, reply ≠ .failed e)
    (gave : c.program.nextOutput fuel' [] = .ok (some value) p)
    (lines : port.lines = c.port.lines) (sent : List Int) (journal : Array Event)
    : reply = .gave value ∧ Behind { c with program := p.collect.2, port, sent, journal } a' := by
  have coherent := nextOutput_keeps_coherent fuel' [] c.program h.coherent
  rw [gave] at coherent
  obtain ⟨same, ahead⟩ | ⟨⟨_, stall⟩, _⟩ := h.replies called returned (congrArg _ gave) nofun
  . have free : p.obstacle? = none := free_of_gave gave
    refine ⟨same.symm, coherent.collect, free, ?_⟩
    show Ahead (Script.numbers port.lines) p.collect.2 a'
    rw [lines]
    exact ahead.collect
  . cases stall

theorem stalled (h : Behind c a) (called : Reply.ofResult (a.nextOutput fuel []) = (reply, a'))
    (returned : ∀ e, reply ≠ .failed e)
    (exhausted : c.program.nextOutput fuel' [] = .error (.fault { cause := .inputExhausted, ip }) p)
    : p.Coherent ∧ p.obstacle? = none ∧ Ahead (Script.numbers c.port.lines) p a := by
  have coherent := nextOutput_keeps_coherent fuel' [] c.program h.coherent
  rw [exhausted] at coherent
  obtain ⟨awaiting, -⟩ := awaiting_of_nextOutput h.coherent exhausted
  obtain ⟨rfl, _⟩ | ⟨_, ahead⟩ :=
    h.replies called returned (congrArg Reply.ofResult exhausted) nofun
  . exact absurd rfl (returned _)
  . refine ⟨coherent, ?_, ahead⟩
    rw [obstacle?, awaiting]

theorem received {value : Int} (h : Behind c a)
    (called : Reply.ofResult (a.nextOutput fuel []) = (reply, a'))
    (returned : ∀ e, reply ≠ .failed e)
    (exhausted : c.program.nextOutput fuel' [] = .error (.fault { cause := .inputExhausted, ip }) p)
    (next : Port.next c.port = (some value, port)) (received : List Int) (journal : Array Event)
    : port.lines.length < c.port.lines.length
      ∧ Behind
          { c with
            program := { p.collect.2 with machine := p.collect.2.machine.push [value] }
            port
            received
            journal }
          a := by
  obtain ⟨coherent, free, ahead⟩ := h.stalled called returned exhausted
  obtain ⟨item, rest, lines, readable, rfl⟩ := Script.lines_of_next next
  rw [lines, Script.numbers_cons_of_some readable] at ahead
  have ahead : Ahead ([value] ++ Script.numbers rest) p.collect.2 a := ahead.collect
  refine ⟨?_, coherent.collect.push [value], free, ahead.push⟩
  rw [lines]
  exact Nat.lt_succ_self _

theorem unread (h : Behind c a) (called : Reply.ofResult (a.nextOutput fuel []) = (reply, a'))
    (returned : ∀ e, reply ≠ .failed e)
    (exhausted : c.program.nextOutput fuel' [] = .error (.fault { cause := .inputExhausted, ip }) p)
    (next : Port.next c.port = (none, port)) (journal : Array Event)
    : port.lines.length < c.port.lines.length
      ∧ Behind { c with program := p.collect.2, port, journal } a := by
  obtain ⟨coherent, free, ahead⟩ := h.stalled called returned exhausted
  obtain ⟨awaiting, empty, -⟩ := awaiting_of_nextOutput h.coherent exhausted
  cases lines : c.port.lines with
  | nil =>
    rw [lines] at ahead
    obtain ⟨fuel'', a'', starved⟩ := ahead.starved coherent awaiting empty
    have yields := yields_of_nextOutput (congrArg Reply.ofResult starved) nofun
    obtain ⟨rfl, -⟩ := yields.unique (yields_of_nextOutput called (returned _))
    exact absurd rfl (returned _)
  | cons item rest =>
    rw [Script.next_cons lines] at next
    obtain ⟨unreadable, rfl⟩ := Prod.mk.inj next
    rw [lines, Script.numbers_cons_of_none unreadable] at ahead
    exact ⟨Nat.lt_succ_self _, coherent.collect, free, ahead.collect⟩

theorem exhausted_of_failed {e : Failure} (h : Behind c a)
    (called : Reply.ofResult (a.nextOutput fuel []) = (reply, a'))
    (returned : ∀ e, reply ≠ .failed e) (failed : c.program.nextOutput fuel' [] = .error e p)
    (unspent : e ≠ .outOfFuel) : ∃ ip, e = .fault { cause := .inputExhausted, ip } := by
  obtain ⟨rfl, _⟩ | ⟨⟨ip, stall⟩, _⟩ :=
    h.replies called returned (congrArg Reply.ofResult failed) (mt Reply.failed.inj unspent)
  . exact absurd rfl (returned _)
  . exact ⟨ip, Reply.failed.inj stall⟩

theorem stops (h : Behind c a) (called : Reply.ofResult (a.nextOutput fuel []) = (reply, a'))
    (returned : ∀ e, reply ≠ .failed e)
    : ∃ fuel', ∀ p, c.program.nextOutput fuel' [] ≠ .error .outOfFuel p := by
  apply h.ahead.returns h.coherent h.free
  intro p spent
  rw [spent] at called
  cases called
  exact returned _ rfl

theorem returns (h : Behind c a) (called : Reply.ofResult (a.nextOutput fuel []) = (reply, a'))
    (returned : ∀ e, reply ≠ .failed e) (short : ∀ value, reply = .gave value → Numeral.Short value)
    (gave : ∀ value c', reply = .gave value → Behind c' a' → c'.Returns)
    (stalled : ∀ c', c'.port.lines.length < c.port.lines.length → Behind c' a → c'.Returns)
    : c.Returns := by
  obtain ⟨fuel', stops⟩ := h.stops called returned
  have turn := exchange_turn fuel' h.coherent
  cases first : exchange fuel' c with
  | ok going d =>
    rw [first] at turn
    cases turn with
    | ended _ => exact ⟨fuel', _, .ended first⟩
    | sent gave' _ write =>
      obtain ⟨same, behind⟩ := h.gave called returned gave' (Script.lines_of_write write) _ _
      exact .more first (gave _ _ same behind)
    | received exhausted next =>
      obtain ⟨fewer, behind⟩ := h.received called returned exhausted next _ _
      exact .more first (stalled _ fewer behind)
  | error e d =>
    rw [first] at turn
    cases turn with
    | @unsent p value port e journal gave' _ write =>
      obtain ⟨same, behind⟩ := h.gave called returned gave' (Script.lines_of_write write) _ journal
      exact .retried first (e.isLink_failure fun _ => rfl) (gave value _ same behind.opened)
    | unwritten gave' long =>
      obtain ⟨same, -⟩ := h.gave called returned gave' rfl [] #[]
      exact absurd (short _ same) long
    | @unread p ip port journal exhausted next =>
      obtain ⟨fewer, behind⟩ := h.unread called returned exhausted next journal
      exact .retried first (Port.isLink_objection _ _) (stalled _ fewer behind.opened)
    | @failed p e journal failed other =>
      have unspent : e ≠ .outOfFuel := by
        rintro rfl
        exact stops p failed
      obtain ⟨ip, same⟩ := h.exhausted_of_failed called returned failed unspent
      exact absurd same (other ip)

end Behind

theorem Behind.returns_of_outputs {bound : Nat} {values : List Int} {a a' : Program}
    (h : Behind c a) (given : a.outputsUpTo fuel bound [] = .ok values a')
    (short : ∀ v ∈ values, Numeral.Short v) : c.Returns := by
  induction bound generalizing values a c with
  | zero => cases given
  | succ bound gave =>
    obtain ⟨reply, a₁, called, replied⟩ := outputsUpTo_cases given
    induction count : c.port.lines.length using Nat.strongRecOn generalizing c with
    | ind count stalled =>
      apply h.returns called
      . rintro e rfl
        obtain ended | ⟨_, _, gave, -⟩ := replied
        . cases ended
        . cases gave
      . rintro value rfl
        obtain ended | ⟨_, _, ⟨⟩, _, rfl⟩ := replied
        . cases ended
        . exact short value List.mem_cons_self
      . rintro value c' rfl behind
        obtain ended | ⟨_, _, _, more, rfl⟩ := replied
        . cases ended
        . exact gave behind more (List.forall_mem_cons.mp short).2
      . intro c' fewer behind
        exact stalled _ (count ▸ fewer) behind rfl

/--
A value of which the writing fails is not written again, however often the client serves again, and
nothing else is lost: when it gets to the end, exactly the outputs whose attempts were not refused
have been sent and written. These are all of them just when no attempt was refused.
-/
theorem insist_sends_unrefused {image inputs : List Int} {config : Config} {name : String}
    {p : Program} {script : Script} (proper : config.width.Proper)
    (loaded : load image inputs config name = .ok p)
    : let start : Console Script := { program := p, port := script }
      (∀ fuel values c, insist fuel start = .ok values c
        → ∃ outputs,
            (∃ enough, ∀ fuel' ≥ enough,
              (runToCompletion fuel' image (inputs ++ c.received) config).result = .ok outputs)
            ∧ values = c.sent
            ∧ c.sent = script.kept outputs
            ∧ c.port.written = script.written ++ c.sent.map Port.encode
            ∧ c.port.attempts = script.attempts + outputs.length
            ∧ (c.sent = outputs ↔ ∀ i < outputs.length, script.attempts + i ∉ script.refused)
            ∧ ∃ items, script.lines = items ++ c.port.lines ∧ Script.numbers items = c.received)
      ∧ ∀ fuel outputs,
          (runToCompletion fuel image (inputs ++ Script.numbers script.lines) config).result
            = .ok outputs
          → (∀ v ∈ outputs, Numeral.Short v)
          → ∃ values c enough, ∀ fuel' ≥ enough, insist fuel' start = .ok values c := by
  intro start
  have coherent : start.opened.program.Coherent := coherent_of_load proper loaded
  obtain ⟨m, fresh, rfl⟩ := load_iff.mp loaded
  constructor
  . intro fuel values c served
    obtain ⟨result, pursued, closes⟩ :=
      pursues_of_retryUpTo (fun _ => rfl) served fun _ => ok_ne_error
    cases result with
    | error e d => cases closes
    | ok _ d =>
      cases closes
      obtain ⟨outputs, read, states, progress, leads⟩ := pursued.tells coherent rfl
      have sent : d.sent = script.kept outputs := progress.sent
      obtain rfl : d.received = read := progress.received
      obtain ⟨a', yields, -⟩ := progress.ahead (ahead_of_push m inputs _ name "program")
      rw [List.append_nil] at yields
      have runs := runToCompletion_of_yields (load_iff.mpr ⟨m, fresh, rfl⟩) yields
      refine ⟨outputs, runs, rfl, sent, ?_, leads.attempts, ?_, leads.items⟩
      . show d.port.written = script.written ++ d.sent.map Port.encode
        rw [sent]
        exact leads.written
      . show d.sent = outputs ↔ _
        rw [sent]
        exact Script.kept_eq_iff
  . intro fuel outputs runs short
    let a : Program :=
      { name := "program", machine := m.push (inputs ++ Script.numbers script.lines) }
    rw [result_runToCompletion, load_iff.mpr ⟨m, fresh, rfl⟩] at runs
    have given : a.outputs fuel = .ok outputs _ := eq_of_outcome_ok runs
    have behind : Behind start.opened a := ⟨coherent, rfl, ahead_of_push m inputs _ name "program"⟩
    obtain ⟨fuel', d, pursued⟩ := behind.returns_of_outputs given short
    obtain ⟨enough, same⟩ := pursued.retriesTo (fun _ => rfl) fun _ => ok_ne_error
    exact ⟨_, _, enough, fun fuel' more => same fuel' more fuel' more⟩

theorem insist_sends_unrefused_echo
    : let image := [3, 9, 4, 9, 1005, 9, 0, 99]
      let config : Config := { width := .bits 12 }
      let p : Program :=
        { name := "p", machine := { width := .bits 12, memory := .ofImage image, inputs := [5] } }
      let script : Script :=
        { lines := [some [0x37, 0x0A], none, some [0x30, 0x0A]], refused := [0] }
      config.width.Proper ∧ load image [5] config "p" = .ok p
        ∧ (∃ c, insist 9 { program := p, port := script } = .ok [7, 0] c ∧ c.received = [7, 0]
          ∧ ∃ outputs, script.kept outputs = [7, 0]
            ∧ ∃ enough, ∀ fuel ≥ enough,
                (runToCompletion fuel image [5, 7, 0] config).result = .ok outputs)
        ∧ ∃ values c enough, ∀ fuel ≥ enough,
            insist fuel { program := p, port := script } = .ok values c := by
  intro image config p script
  have proper : config.width.Proper := by decide
  have loaded : load image [5] config "p" = .ok p := rfl
  obtain ⟨sends, returns⟩ := @insist_sends_unrefused image [5] config "p" p script proper loaded
  have outcome : outcome (insist 9 { program := p, port := script }) = .ok [7, 0] := by
    decide +kernel
  have served := eq_of_outcome_ok outcome
  have received : (endState (insist 9 { program := p, port := script })).received = [7, 0] := by
    decide +kernel
  have runs : (runToCompletion 9 image [5, 7, 0] config).result = .ok [5, 7, 0] := by
    decide +kernel
  have short : ∀ v ∈ [5, 7, 0], Numeral.Short v := by decide +kernel
  obtain ⟨outputs, same, sent, kept, -⟩ := sends _ _ _ served
  rw [received] at same
  exact ⟨proper, loaded, ⟨_, served, received, outputs, by rw [← kept, ← sent], same⟩,
    returns 9 _ runs short⟩

theorem insist_loses_output
    : let image := [104, 1, 104, 2, 99]
      let p : Program :=
        { name := "p", machine := { width := .unbounded, memory := .ofImage image } }
      let script : Script := { lines := [], refused := [0] }
      load image [] {} "p" = .ok p
        ∧ (∃ c, insist 9 { program := p, port := script } = .ok [2] c ∧ c.sent = [2]
          ∧ c.received = [] ∧ c.port.written = [[0x32, 0x0A]])
        ∧ (runToCompletion 9 image [] {}).result = .ok [1, 2] := by
  intro image p script
  have outcome : outcome (insist 9 { program := p, port := script }) = .ok [2] := by
    decide +kernel
  have left : (endState (insist 9 { program := p, port := script })).sent = [2]
      ∧ (endState (insist 9 { program := p, port := script })).received = []
      ∧ (endState (insist 9 { program := p, port := script })).port.written = [[0x32, 0x0A]] := by
    decide +kernel
  exact ⟨rfl, ⟨_, eq_of_outcome_ok outcome, left⟩, by decide +kernel⟩

end Console

end Intcode
