import Intcode.Console
import Intcode.Proofs.Program.History
import Intcode.Proofs.Program.Lifetime

/-!
Exchanges: to serve a program is to resume it again and again, and to write or to read one line each
time. What a single exchange can do is said once, and a service is a series of them.
-/
namespace Intcode

namespace Port

variable {π : Type} [Port π]

def next (port : π) : Option Int × π :=
  match readLine port with
  | (.ok (b :: line), port) => ((Numeral.read (decode (b :: line))).toOption, port)
  | (_, port) => (none, port)

def objection (ip : Int) (port : π) : Failure :=
  match (readLine port).1 with
  | .error e => e.failure .readFailed
  | .ok [] => .fault { cause := .readTimedOut, ip := some ip }
  | .ok line =>
    .fault { cause := .unreadableLine (String.ofList (decode line)), ip := some ip }

end Port

namespace Console

open Program

variable {π : Type} [Port π]

def exchange (fuel : Nat) : EStateM Failure (Console π) Bool := fun c =>
  match onProgram (nextOutput fuel) c with
  | .ok none c => .ok false c
  | .ok (some value) c =>
    match send value c with
    | .ok () c => .ok true c
    | .error e c => .error e c
  | .error (.fault { cause := .inputExhausted, .. }) c =>
    match receive c with
    | .error e c => .error e c
    | .ok value c =>
      match onProgram (feed [value]) c with
      | .ok () c => .ok true c
      | .error e c => .error e c
  | .error e c => .error e c

def visits (fuel : Nat) (c : Console π) : List Machine :=
  Call.visits fuel (.next []) c.program

/-- A series of exchanges up to the last, the steps made on the way, and what comes of it. -/
inductive Serves (fuel : Nat)
    : Console π → List Machine → EStateM.Result Failure (Console π) Unit → Prop where
  | ended {c d : Console π}
    : exchange fuel c = .ok false d → Serves fuel c (c.visits fuel) (.ok () d)
  | failed {c d : Console π} {e : Failure}
    : exchange fuel c = .error e d → Serves fuel c (c.visits fuel) (.error e d)
  | more {c c' : Console π} {states : List Machine}
      {result : EStateM.Result Failure (Console π) Unit}
    : exchange fuel c = .ok true c' → Serves fuel c' states result
      → Serves fuel c (c.visits fuel ++ states) result

inductive Turn (fuel : Nat) (c : Console π)
    : EStateM.Result Failure (Console π) Bool → Prop where
  | ended {p : Program} {journal : Array Event}
    : c.program.nextOutput fuel [] = .ok none p
      → Turn fuel c (.ok false { c with program := p.collect.2, journal })
  | sent {p : Program} {value : Int} {port : π} {journal : Array Event}
    : c.program.nextOutput fuel [] = .ok (some value) p → Numeral.Short value
      → Port.write (Port.encode value) c.port = (.ok (), port)
      → Turn fuel c
          (.ok true { c with program := p.collect.2, port, sent := c.sent ++ [value], journal })
  | unsent {p : Program} {value : Int} {port : π} {e : PortError} {journal : Array Event}
    : c.program.nextOutput fuel [] = .ok (some value) p → Numeral.Short value
      → Port.write (Port.encode value) c.port = (.error e, port)
      → Turn fuel c
          (.error (e.failure .writeFailed) { c with program := p.collect.2, port, journal })
  | unwritten {p : Program} {value : Int} {journal : Array Event}
    : c.program.nextOutput fuel [] = .ok (some value) p → ¬ Numeral.Short value
      → Turn fuel c (.error .unwritable { c with program := p.collect.2, journal })
  | received {p : Program} {ip : Option Int} {value : Int} {port : π} {journal : Array Event}
    : c.program.nextOutput fuel [] = .error (.fault { cause := .inputExhausted, ip }) p
      → Port.next c.port = (some value, port)
      → Turn fuel c
          (.ok true
            { c with
              program := { p.collect.2 with machine := p.collect.2.machine.push [value] }
              port
              received := c.received ++ [value]
              journal })
  | unread {p : Program} {ip : Option Int} {port : π} {journal : Array Event}
    : c.program.nextOutput fuel [] = .error (.fault { cause := .inputExhausted, ip }) p
      → Port.next c.port = (none, port)
      → Turn fuel c
          (.error (Port.objection p.machine.ip c.port)
            { c with program := p.collect.2, port, journal })
  | failed {p : Program} {e : Failure} {journal : Array Event}
    : c.program.nextOutput fuel [] = .error e p
      → (∀ ip, e ≠ .fault { cause := .inputExhausted, ip })
      → Turn fuel c (.error e { c with program := p.collect.2, journal })

variable {fuel : Nat} {c d : Console π} {p : Program} {ip : Option Int} {value : Int} {port : π}

theorem receive_of_next (h : Port.next c.port = (some value, port))
    : ∃ journal, receive c
        = .ok value { c with port, received := c.received ++ [value], journal } := by
  unfold Port.next at h
  split at h
  . next b line port' found =>
    cases read : Numeral.read (Port.decode (b :: line)) with
    | error e =>
      rw [read] at h
      cases h
    | ok value' =>
      rw [read] at h
      cases h
      unfold receive
      rw [found]
      dsimp only
      rw [read]
      exact ⟨_, rfl⟩
  . cases h

theorem receive_of_none (h : Port.next c.port = (none, port))
    : receive c = .error (Port.objection c.program.machine.ip c.port) { c with port } := by
  unfold Port.next at h
  unfold receive Port.objection
  cases found : Port.readLine c.port with
  | mk line port' =>
    rw [found] at h
    cases line with
    | error e =>
      cases h
      rfl
    | ok line =>
      cases line with
      | nil =>
        cases h
        rfl
      | cons b line =>
        cases read : Numeral.read (Port.decode (b :: line)) with
        | ok value =>
          simp only [read] at h
          cases h
        | error e =>
          simp only [read] at h
          cases h
          dsimp only
          rw [read]

theorem exchange_of_ended (h : c.program.nextOutput fuel [] = .ok none p)
    : ∃ journal, exchange fuel c = .ok false { c with program := p.collect.2, journal } := by
  simp only [exchange, onProgram, h]
  exact ⟨_, rfl⟩

theorem writing_encode_of_short (short : Numeral.Short value)
    : writing [value] (Port.encode value) = .ok (Port.encode value) :=
  writing_of_short (List.forall_mem_singleton.mpr short) _

theorem writing_encode_of_long (long : ¬ Numeral.Short value)
    : writing [value] (Port.encode value) = .error .unwritable :=
  writing_of_long (mt List.forall_mem_singleton.mp long) _

theorem exchange_of_sent (h : c.program.nextOutput fuel [] = .ok (some value) p)
    (short : Numeral.Short value) (written : Port.write (Port.encode value) c.port = (.ok (), port))
    : ∃ journal, exchange fuel c
        = .ok true { c with program := p.collect.2, port, sent := c.sent ++ [value], journal } := by
  simp only [exchange, onProgram, h, collectProgram, send, writing_encode_of_short short, written]
  exact ⟨_, rfl⟩

theorem exchange_of_unsent {e : PortError} (h : c.program.nextOutput fuel [] = .ok (some value) p)
    (short : Numeral.Short value)
    (refused : Port.write (Port.encode value) c.port = (.error e, port))
    : ∃ journal, exchange fuel c
        = .error (e.failure .writeFailed) { c with program := p.collect.2, port, journal } := by
  simp only [exchange, onProgram, h, collectProgram, send, writing_encode_of_short short, refused]
  exact ⟨_, rfl⟩

theorem exchange_of_unwritten (h : c.program.nextOutput fuel [] = .ok (some value) p)
    (long : ¬ Numeral.Short value)
    : ∃ journal, exchange fuel c
        = .error .unwritable { c with program := p.collect.2, journal } := by
  simp only [exchange, onProgram, h, collectProgram, send, writing_encode_of_long long]
  exact ⟨_, rfl⟩

theorem exchange_of_received (coherent : c.program.Coherent)
    (h : c.program.nextOutput fuel [] = .error (.fault { cause := .inputExhausted, ip }) p)
    (read : Port.next c.port = (some value, port))
    : ∃ journal, exchange fuel c
        =
      .ok true
        { c with
          program := { p.collect.2 with machine := p.collect.2.machine.push [value] }
          port
          received := c.received ++ [value]
          journal } := by
  have awaiting := (awaiting_of_nextOutput coherent h).1
  have free : p.collect.2.obstacle? = none := by
    unfold obstacle?
    rw [show p.collect.2.state = .awaitingInput from awaiting]
  obtain ⟨journal, received⟩ :=
    @receive_of_next π _ ({ c with program := p }.collectProgram) value port read
  simp only [exchange, onProgram, h, received]
  have free : ({ c with program := p }.collectProgram).program.obstacle? = none := free
  simp only [feed, free]
  exact ⟨_, rfl⟩

theorem exchange_of_unread
    (h : c.program.nextOutput fuel [] = .error (.fault { cause := .inputExhausted, ip }) p)
    (unread : Port.next c.port = (none, port))
    : ∃ journal, exchange fuel c
        =
      .error (Port.objection p.machine.ip c.port)
        { c with program := p.collect.2, port, journal } := by
  have received := @receive_of_none π _ ({ c with program := p }.collectProgram) port unread
  simp only [exchange, onProgram, h, received]
  exact ⟨_, rfl⟩

theorem exchange_of_failed {e : Failure} (h : c.program.nextOutput fuel [] = .error e p)
    (other : ∀ ip, e ≠ .fault { cause := .inputExhausted, ip })
    : ∃ journal, exchange fuel c = .error e { c with program := p.collect.2, journal } := by
  refine ⟨({ c with program := p }.collectProgram).journal, ?_⟩
  simp only [exchange, onProgram, h]
  rfl

theorem exchange_turn (fuel : Nat) (coherent : c.program.Coherent)
    : Turn fuel c (exchange fuel c) := by
  cases called : c.program.nextOutput fuel [] with
  | ok out p =>
    cases out with
    | none =>
      obtain ⟨journal, same⟩ := exchange_of_ended called
      rw [same]
      exact .ended called
    | some value =>
      by_cases short : Numeral.Short value
      . cases written : Port.write (Port.encode value) c.port with
        | mk outcome port =>
          cases outcome with
          | ok _ =>
            obtain ⟨journal, same⟩ := exchange_of_sent called short written
            rw [same]
            exact .sent called short written
          | error e =>
            obtain ⟨journal, same⟩ := exchange_of_unsent called short written
            rw [same]
            exact .unsent called short written
      . obtain ⟨journal, same⟩ := exchange_of_unwritten called short
        rw [same]
        exact .unwritten called short
  | error e p =>
    by_cases exhausted : ∃ ip, e = .fault { cause := .inputExhausted, ip }
    . obtain ⟨ip, rfl⟩ := exhausted
      cases read : Port.next c.port with
      | mk value port =>
        cases value with
        | some value =>
          obtain ⟨journal, same⟩ := exchange_of_received coherent called read
          rw [same]
          exact .received called read
        | none =>
          obtain ⟨journal, same⟩ := exchange_of_unread called read
          rw [same]
          exact .unread called read
    . rw [not_exists] at exhausted
      obtain ⟨journal, same⟩ := exchange_of_failed called exhausted
      rw [same]
      exact .failed called exhausted

theorem Turn.coherent {result : EStateM.Result Failure (Console π) Bool}
    (h : c.program.Coherent) (turn : Turn fuel c result) : (endState result).program.Coherent := by
  have kept := nextOutput_keeps_coherent fuel [] c.program h
  cases turn with
  | ended called | sent called _ _ | unsent called _ _ | unwritten called _ | unread called _
  | failed called _ =>
    rw [called] at kept
    exact kept.collect
  | received called _ =>
    rw [called] at kept
    exact kept.collect.push [_]

theorem exchange_mono {fuel' : Nat} {result : EStateM.Result Failure (Console π) Bool}
    (more : fuel ≤ fuel') (first : exchange fuel c = result)
    (returned : ∀ d, result ≠ .error .outOfFuel d) : exchange fuel' c = result := by
  have same : c.program.nextOutput fuel' [] = c.program.nextOutput fuel [] := by
    apply nextOutput_mono more
    intro p out
    obtain ⟨journal, spent⟩ := exchange_of_failed out nofun
    exact returned _ (first.symm.trans spent)
  have same : onProgram (nextOutput fuel') c = onProgram (nextOutput fuel) c := by
    unfold onProgram
    rw [same]
  unfold exchange at first ⊢
  rw [same]
  exact first

theorem exchange_returns (coherent : c.program.Coherent)
    (returned : ∀ p, c.program.nextOutput fuel [] ≠ .error .outOfFuel p) (d : Console π)
    : exchange fuel c ≠ .error .outOfFuel d := by
  have turn := exchange_turn fuel coherent
  intro spent
  rw [spent] at turn
  generalize failed : Failure.outOfFuel = e at turn
  cases turn with
  | @unsent _ _ _ e _ _ _ _ => cases e <;> cases failed
  | unwritten _ _ => cases failed
  | unread _ _ =>
    unfold Port.objection at failed
    split at failed
    . next e _ => cases e <;> cases failed
    . cases failed
    . cases failed
  | @failed p _ _ called _ =>
    subst failed
    exact returned p called

theorem Serves.mono {fuel' : Nat} {states : List Machine}
    {result : EStateM.Result Failure (Console π) Unit} (served : Serves fuel c states result)
    (more : fuel ≤ fuel') (returned : ∀ d, result ≠ .error .outOfFuel d)
    : ∃ states', Serves fuel' c states' result := by
  induction served with
  | ended first => exact ⟨_, .ended (exchange_mono more first fun _ => ok_ne_error)⟩
  | failed first => exact ⟨_, .failed (exchange_mono more first (error_ne_error returned))⟩
  | more first _ ih =>
    obtain ⟨states', served⟩ := ih returned
    exact ⟨_, .more (exchange_mono more first fun _ => ok_ne_error) served⟩

def serveFrom (fuel reads bound : Nat) (c : Console π) : EStateM.Result Failure (Console π) Unit :=
  match stepUpTo fuel reads c with
  | .error e c => .error e c
  | .ok none c => .ok () c
  | .ok (some value) c =>
    match send value c with
    | .error e c => .error e c
    | .ok () c => serveUpTo fuel bound c

theorem serveFrom_succ (fuel reads bound : Nat) (c : Console π)
    : match exchange fuel c with
      | .ok false d => serveFrom fuel (reads + 1) bound c = .ok () d
      | .ok true d =>
        serveFrom fuel (reads + 1) bound c = serveUpTo fuel bound d
          ∨ serveFrom fuel (reads + 1) bound c = serveFrom fuel reads bound d
      | .error e d => serveFrom fuel (reads + 1) bound c = .error e d := by
  unfold exchange serveFrom
  rw [stepUpTo]
  dsimp only
  cases onProgram (nextOutput fuel) c with
  | ok out c =>
    cases out with
    | none => rfl
    | some value =>
      dsimp only
      cases send value c with
      | ok _ c => exact .inl rfl
      | error e c => rfl
  | error e c =>
    by_cases exhausted : ∃ ip, e = .fault { cause := .inputExhausted, ip }
    . obtain ⟨ip, rfl⟩ := exhausted
      dsimp only
      cases receive c with
      | error e c => rfl
      | ok value c =>
        dsimp only
        cases onProgram (feed [value]) c with
        | ok _ c => exact .inr rfl
        | error e c => rfl
    . rw [not_exists] at exhausted
      simp [exhausted]

def Comes (fuel : Nat) (c : Console π) (result : EStateM.Result Failure (Console π) Unit) : Prop :=
  (∃ states, Serves fuel c states result) ∨ ∃ d, result = .error .outOfFuel d

theorem Comes.more {c' : Console π} {result : EStateM.Result Failure (Console π) Unit}
    (first : exchange fuel c = .ok true c') (h : Comes fuel c' result) : Comes fuel c result := by
  cases h with
  | inl served =>
    obtain ⟨states, served⟩ := served
    exact .inl ⟨_, .more first served⟩
  | inr spent => exact .inr spent

theorem comes_succ {reads bound : Nat}
    (sent : ∀ d : Console π, Comes fuel d (serveUpTo fuel bound d))
    (received : ∀ d : Console π, Comes fuel d (serveFrom fuel reads bound d)) (c : Console π)
    : Comes fuel c (serveFrom fuel (reads + 1) bound c) := by
  have turn := serveFrom_succ fuel reads bound c
  cases first : exchange fuel c with
  | error e d =>
    rw [first] at turn
    rw [turn]
    exact .inl ⟨_, .failed first⟩
  | ok going d =>
    rw [first] at turn
    cases going with
    | false =>
      rw [turn]
      exact .inl ⟨_, .ended first⟩
    | true =>
      cases turn with
      | inl same =>
        rw [same]
        exact (sent d).more first
      | inr same =>
        rw [same]
        exact (received d).more first

theorem comes_of_serveUpTo (bound : Nat) (c : Console π)
    : Comes fuel c (serveUpTo fuel bound c) := by
  induction bound generalizing c with
  | zero => exact .inr ⟨c, rfl⟩
  | succ bound sent =>
    -- An output that is sent uses up one of them, and all reads are left for the next one.
    suffices received : ∀ reads c, Comes fuel c (serveFrom fuel reads bound c) from
      received fuel c
    intro reads
    induction reads with
    | zero => exact fun c => .inr ⟨c, rfl⟩
    | succ reads received => exact comes_succ sent received

theorem Serves.exists_serveFrom {states : List Machine}
    {result : EStateM.Result Failure (Console π) Unit} (served : Serves fuel c states result)
    (returned : ∀ d, result ≠ .error .outOfFuel d)
    : ∃ enough ≥ fuel, ∀ fuel' ≥ enough, ∀ reads ≥ enough, ∀ bound ≥ enough,
        serveFrom fuel' reads bound c = result := by
  -- The bounds for the rest of the series do for the whole of it with one more.
  induction served with
  | @ended c d first =>
    refine ⟨fuel + 1, Nat.le_succ fuel, ?_⟩
    intro fuel' more reads enough bound _
    obtain ⟨reads, rfl⟩ : ∃ r, reads = r + 1 := ⟨reads - 1, by omega⟩
    have turn := serveFrom_succ fuel' reads bound c
    rw [exchange_mono (by omega) first fun _ => ok_ne_error] at turn
    exact turn
  | @failed c d e first =>
    refine ⟨fuel + 1, Nat.le_succ fuel, ?_⟩
    intro fuel' more reads enough bound _
    obtain ⟨reads, rfl⟩ : ∃ r, reads = r + 1 := ⟨reads - 1, by omega⟩
    have turn := serveFrom_succ fuel' reads bound c
    rw [exchange_mono (by omega) first (error_ne_error returned)] at turn
    exact turn
  | @more c c' states result first _ ih =>
    obtain ⟨enough, least, ih⟩ := ih returned
    refine ⟨enough + 1, by omega, ?_⟩
    intro fuel' more reads enough' bound enough''
    obtain ⟨reads, rfl⟩ : ∃ r, reads = r + 1 := ⟨reads - 1, by omega⟩
    obtain ⟨bound, rfl⟩ : ∃ b, bound = b + 1 := ⟨bound - 1, by omega⟩
    have turn := serveFrom_succ fuel' reads (bound + 1) c
    rw [exchange_mono (by omega) first fun _ => ok_ne_error] at turn
    cases turn with
    | inl same =>
      rw [same]
      exact ih fuel' (by omega) fuel' (by omega) bound (by omega)
    | inr same =>
      rw [same]
      exact ih fuel' (by omega) reads (by omega) (bound + 1) (by omega)

def opened (c : Console π) : Console π :=
  c.record (.serving c.program.name (Port.name c.port))

def closed : EStateM.Result Failure (Console π) Unit → EStateM.Result Failure (Console π) (List Int)
  | .ok _ c => .ok c.sent (c.record (.served c.program.name c.sent.length c.received.length))
  | .error e c => .error e c

theorem serve_eq (fuel : Nat) (c : Console π)
    : serve fuel c = closed (serveUpTo fuel fuel c.opened) := by
  unfold serve
  show EStateM.bind _ _ c = _
  unfold EStateM.bind
  show EStateM.bind _ _ c.opened = _
  unfold EStateM.bind
  cases serveUpTo fuel fuel c.opened with
  | ok _ c => rfl
  | error e c => rfl

theorem serves_of_serve (returned : ∀ d, serve fuel c ≠ .error .outOfFuel d)
    : ∃ states result, Serves fuel c.opened states result ∧ (∀ d, result ≠ .error .outOfFuel d)
        ∧ serve fuel c = closed result := by
  have spent (d : Console π) : serveUpTo fuel fuel c.opened ≠ .error .outOfFuel d := by
    intro spent
    rw [serve_eq, spent] at returned
    exact returned _ rfl
  obtain ⟨states, exchanges⟩ | ⟨d, out⟩ := comes_of_serveUpTo fuel c.opened
  . exact ⟨states, _, exchanges, spent, serve_eq fuel c⟩
  . exact absurd out (spent d)

theorem serves_of_ok {values : List Int} (served : serve fuel c = .ok values d)
    : ∃ states c', Serves fuel c.opened states (.ok () c') ∧ closed (.ok () c') = .ok values d := by
  obtain ⟨states, result, exchanges, -, same⟩ := serves_of_serve fun _ => served ▸ ok_ne_error
  rw [served] at same
  cases result with
  | ok _ c' => exact ⟨states, c', exchanges, same.symm⟩
  | error e c' => cases same

theorem serves_of_error {e : Failure} (failed : serve fuel c = .error e d)
    (returned : e ≠ .outOfFuel) : ∃ states, Serves fuel c.opened states (.error e d) := by
  have returned (d' : Console π) : serve fuel c ≠ .error .outOfFuel d' := by
    rw [failed]
    rintro ⟨⟩
    contradiction
  obtain ⟨states, result, exchanges, -, same⟩ := serves_of_serve returned
  rw [failed] at same
  cases result with
  | ok _ c' => cases same
  | error e' c' =>
    cases same
    exact ⟨states, exchanges⟩

theorem Serves.exists_serve {states : List Machine}
    {result : EStateM.Result Failure (Console π) Unit} (served : Serves fuel c.opened states result)
    (returned : ∀ d, result ≠ .error .outOfFuel d)
    : ∃ enough, ∀ fuel' ≥ enough, serve fuel' c = closed result := by
  obtain ⟨enough, -, same⟩ := served.exists_serveFrom returned
  refine ⟨enough + 1, ?_⟩
  intro fuel' more
  obtain ⟨bound, rfl⟩ : ∃ b, fuel' = b + 1 := ⟨fuel' - 1, by omega⟩
  rw [serve_eq, ← same (bound + 1) (by omega) (bound + 1) (by omega) bound (by omega)]
  rfl

end Console

end Intcode
