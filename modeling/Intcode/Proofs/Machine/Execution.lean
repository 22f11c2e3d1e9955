import Intcode.Proofs.Machine.Plan
import Intcode.Proofs.Memory.Growth

namespace Intcode.Machine

theorem bind_get (f : Machine → Execution α) (m : Machine) : (get >>= f) m = f m m := rfl

theorem bind_of_ok {m m' : Machine} {x : Execution α} {f : α → Execution β} {a : α}
    (h : x m = .ok a m') : (x >>= f) m = f a m' := by
  simp only [bind, EStateM.bind, h]

theorem bind_of_error {m m' : Machine} {x : Execution α} {f : α → Execution β} {e : Failure}
    (h : x m = .error e m') : (x >>= f) m = .error e m' := by
  simp only [bind, EStateM.bind, h]

theorem bind_eq_perform {x : Execution α} {f : α → Execution β} {cs ds : List Clause} {a : α}
    {b : β} {m : Machine} (hx : x m = perform cs a m)
    (hf : ∀ m', follow cs m = .ok () m' → f a m' = perform ds b m')
    : (x >>= f) m = perform (cs ++ ds) b m := by
  simp only [perform] at hx
  simp only [bind, EStateM.bind, hx, perform, follow_append]
  cases h : follow cs m with
  | error e m' => rfl
  | ok u m' =>
    dsimp only
    rw [hf m' h]
    rfl

theorem follow_forbid {m m' : Machine} {v : View} {p : Prop} [Decidable p] {cause : Cause}
    {cs : List Clause} (h : follow (v.forbid p cause :: cs) m = .ok () m')
    : ¬ p ∧ follow cs m = .ok () m' := by
  unfold View.forbid at h
  split at h
  . cases h
  . exact ⟨‹_›, h⟩

theorem view_of_follow_reading {m m' : Machine} {v : View} {mode : Nat → Mode} {param : Nat}
    (h : follow (v.reading mode param) m = .ok () m') : m'.view = m.view := by
  unfold View.reading at h
  simp only [follow] at h
  obtain ⟨-, h⟩ := follow_forbid h
  cases h
  rw [view_touch, view_touch]

theorem width_of_follow {m m' : Machine} {cs : List Clause} (h : follow cs m = .ok () m')
    : m'.width = m.width := by
  fun_induction follow cs m with
  | case1 => cases h; rfl
  | case2 action rest m ih =>
    rw [ih h]
    cases action with
    | count entry => cases entry <;> rfl
    | _ => rfl
  | case3 rest m ih => exact ih h
  | case4 => cases h

theorem readCell_eq (m : Machine) {addr : Int} (h : 0 ≤ addr)
    : readCell addr m = .ok (m.view.cell addr) ((Action.touch addr).apply m) := by
  simp only [readCell, Memory.read, if_neg (Int.not_lt.mpr h)]
  rfl

variable {m : Machine} {instr : Instruction}

theorem slot_nonneg (h : 0 ≤ m.ip) (param : Nat) : 0 ≤ m.view.slot param := by
  simp only [View.slot, view]
  omega

def effectiveAddress (m : Machine) (mode : Mode) (slot : Int) : Int :=
  if mode = .relative then m.memory.peek slot + m.base else m.memory.peek slot

theorem address_eq (mode : Mode) {slot : Int} (inside : 0 ≤ slot)
    : address mode slot m
        =
      if m.effectiveAddress mode slot < 0 then
        .error (m.view.fault (.negativeEffectiveAddress (m.effectiveAddress mode slot)))
          ((Action.touch slot).apply m)
      else
        .ok (m.effectiveAddress mode slot) ((Action.touch slot).apply m) := by
  unfold address
  rw [bind_of_ok (readCell_eq m inside), bind_get]
  show (if m.effectiveAddress mode slot < 0 then _ else _ : Execution Int) _ = _
  split
  . rfl
  . rfl

theorem address_eq_perform (h : 0 ≤ m.ip) {mode : Nat → Mode} {param : Nat}
    (direct : mode param ≠ .immediate)
    : address (mode param) (m.view.slot param) m
        =
      perform
        [.act (.touch (m.view.slot param)),
          m.view.forbid (m.view.location mode param < 0)
            (.negativeEffectiveAddress (m.view.location mode param))]
        (m.view.location mode param) m := by
  have target : m.effectiveAddress (mode param) (m.view.slot param)
      = m.view.location mode param := by
    unfold View.location effectiveAddress
    cases hm : mode param with
    | immediate => contradiction
    | _ => rfl
  rw [address_eq _ (slot_nonneg h param), target]
  simp only [perform, follow, View.forbid]
  split
  . rfl
  . rfl

theorem operand_eq_perform (h : 0 ≤ m.ip) (param : Nat)
    : operand instr param m
        =
      perform (m.view.reading instr.mode param) (m.view.operand instr.mode param) m := by
  show resolveRead (instr.mode param) (m.view.slot param) m = _
  unfold resolveRead
  by_cases immediate : instr.mode param = .immediate
  . have here : m.view.location instr.mode param = m.view.slot param := by
      simp only [View.location, immediate]
    have inside := slot_nonneg h param
    have twice : (Action.touch (m.view.slot param)).apply ((Action.touch (m.view.slot param)).apply m)
        = (Action.touch (m.view.slot param)).apply m := by
      simp only [Action.apply, Memory.grow_grow, Nat.max_self]
    simp only [if_pos immediate, readCell_eq m inside, perform, View.reading, View.forbid, follow,
      here, if_neg (Int.not_lt.mpr inside), twice, View.operand]
  . rw [if_neg immediate]
    apply bind_eq_perform (address_eq_perform h immediate)
    intro m' hm'
    simp only [follow] at hm'
    obtain ⟨inside, hm'⟩ := follow_forbid hm'
    cases hm'
    rw [readCell_eq _ (Int.not_lt.mp inside), view_touch]
    rfl

theorem requireFits_eq_perform (value : Int) (cause : Int → Cause)
    : requireFits value cause m = perform [m.view.confine m.width value cause] () m := by
  simp only [requireFits, perform, View.confine]
  cases m.width.fits value with
  | error e => rfl
  | ok fits => cases fits <;> rfl

theorem writeCell_eq (m : Machine) {addr : Int} (value : Int) (h : 0 ≤ addr)
    : writeCell addr value m = .ok () ((Action.put addr value).apply m) := by
  simp only [writeCell, Memory.write, if_neg (Int.not_lt.mpr h)]
  rfl

theorem store_eq_perform (h : 0 ≤ m.ip) (param : Nat) (value : Int)
    : store instr param value m
        =
      perform (m.view.writing m.width instr.mode param value) () m := by
  show (resolveWrite (instr.mode param) (m.view.slot param) >>= _) m = _
  unfold resolveWrite
  by_cases immediate : instr.mode param = .immediate
  . simp only [immediate, if_true, perform, View.writing, View.forbid, follow]
    rfl
  . rw [if_neg immediate]
    have open_writing : m.view.writing m.width instr.mode param value
        =
      m.view.forbid (instr.mode param = .immediate) .immediateDestination :: (
        [.act (.touch (m.view.slot param)),
          m.view.forbid (m.view.location instr.mode param < 0)
            (.negativeEffectiveAddress (m.view.location instr.mode param))]
        ++ ([m.view.confine m.width value
              (.cellOverflow value (m.view.location instr.mode param))]
          ++ [.act (.put (m.view.location instr.mode param) value)])) := rfl
    rw [open_writing]
    simp only [View.forbid, if_neg immediate]
    show _ = perform ([_, _] ++ _) () m
    apply bind_eq_perform (address_eq_perform h immediate)
    intro m₁ h₁
    simp only [follow] at h₁
    obtain ⟨inside, h₁⟩ := follow_forbid h₁
    cases h₁
    apply bind_eq_perform
    . rw [requireFits_eq_perform, view_touch]
      rfl
    . intro m₂ h₂
      rw [writeCell_eq _ _ (Int.not_lt.mp inside)]
      rfl

theorem ip_of_follow {m' : Machine} {cs : List Clause} (h : follow cs m = .ok () m')
    (still : ∀ ip, .act (.goto ip) ∉ cs) : m'.ip = m.ip := by
  fun_induction follow cs m with
  | case1 => cases h; rfl
  | case2 action rest m ih =>
    rw [ih h (fun ip mem => still ip (List.mem_cons_of_mem _ mem))]
    cases action with
    | goto ip => exact absurd List.mem_cons_self (still ip)
    | count entry => cases entry <;> rfl
    | _ => rfl
  | case3 rest m ih => exact ih h (fun ip mem => still ip (List.mem_cons_of_mem _ mem))
  | case4 => cases h

theorem ip_of_follow_writing {m' : Machine} {v : View} {width : Width} {mode : Nat → Mode}
    {param : Nat} {value : Int} (h : follow (v.writing width mode param value) m = .ok () m')
    : m'.ip = m.ip := by
  apply ip_of_follow h
  simp [View.writing, View.forbid, View.confine]

theorem advance_eq_perform {opcode : Opcode} {v : View} (same : instr.opcode = opcode)
    (h : m.ip = v.ip) (a : α)
    : (do advance instr; return a : Execution α) m
        =
      perform [.act (.goto (v.next opcode))] a m := by
  unfold View.next
  rw [← h, ← same]
  rfl

theorem binary_eq_perform (h : 0 ≤ m.ip) (f : Int → Int → Int)
    : binary instr f m
        =
      perform
        (m.view.binary m.width instr.mode instr.opcode
          (f (m.view.operand instr.mode 0) (m.view.operand instr.mode 1)))
        none m := by
  unfold binary View.binary
  apply bind_eq_perform (operand_eq_perform h 0)
  intro m₁ h₁
  have v₁ := view_of_follow_reading h₁
  have w₁ := width_of_follow h₁
  have ip₁ : m₁.ip = m.ip := congrArg View.ip v₁
  rw [← v₁, ← w₁]
  apply bind_eq_perform (operand_eq_perform (by omega) 1)
  intro m₂ h₂
  have v₂ := view_of_follow_reading h₂
  have w₂ := width_of_follow h₂
  have ip₂ : m₂.ip = m₁.ip := congrArg View.ip v₂
  rw [← v₂, ← w₂]
  apply bind_eq_perform (store_eq_perform (by omega) 2 _)
  intro m₃ h₃
  apply advance_eq_perform rfl
  exact ip_of_follow_writing h₃

theorem jump_eq_perform (target : Int)
    : jump target m
        =
      perform [m.view.forbid (target < 0) (.negativeJump target), .act (.goto target)] () m := by
  unfold jump
  simp only [perform, View.forbid]
  split
  . rfl
  . rfl

theorem jumpWhen_eq_perform (h : 0 ≤ m.ip) (condition : Int → Bool)
    : jumpWhen instr condition m
        =
      perform (m.view.jump instr.mode instr.opcode (condition (m.view.operand instr.mode 0)))
        none m := by
  unfold jumpWhen View.jump
  apply bind_eq_perform (operand_eq_perform h 0)
  intro m₁ h₁
  have v₁ := view_of_follow_reading h₁
  have ip₁ : m₁.ip = m.ip := congrArg View.ip v₁
  rw [← v₁]
  split
  . apply bind_eq_perform (operand_eq_perform (by omega) 1)
    intro m₂ h₂
    rw [← view_of_follow_reading h₂]
    show (jump _ >>= _) m₂ = perform ([_, _] ++ []) none m₂
    apply bind_eq_perform (jump_eq_perform _)
    intros
    rfl
  . apply advance_eq_perform rfl
    rfl

theorem dequeue_eq_perform {value : Int} {rest : List Int} (queue : m.inputs = value :: rest)
    : (modify fun m => { m with inputs := rest } : Execution PUnit) m
        =
      perform [.check none, .act .pop] () m := by
  simp only [perform, follow, Action.apply, queue, List.tail_cons]
  rfl

theorem input_eq_perform (h : 0 ≤ m.ip) (opcode : instr.opcode = .input)
    : input instr m = perform (m.view.input m.width instr.mode) (m.view.reason .input) m := by
  unfold input View.input View.reason
  by_cases immediate : instr.mode 0 = .immediate
  . simp only [immediate, if_true, perform, View.forbid, follow]
    rfl
  . rw [if_neg immediate, bind_get]
    simp only [View.forbid, if_neg immediate]
    cases queue : m.inputs with
    | nil =>
      have seen : m.view.inputs = [] := queue
      simp only [seen]
      rfl
    | cons value rest =>
      have seen : m.view.inputs = value :: rest := queue
      simp only [seen, List.isEmpty_cons, Bool.false_eq_true, if_false]
      show _
          =
        perform
          ([.check none, .act .pop] ++
            (m.view.writing m.width instr.mode 0 value ++ [.act (.goto (m.view.next .input))]))
          none m
      apply bind_eq_perform (dequeue_eq_perform queue)
      intro m₁ h₁
      cases h₁
      -- What is stored and where does not depend on the queue.
      have stored : store instr 0 value (Action.pop.apply m)
          = perform (m.view.writing m.width instr.mode 0 value) () (Action.pop.apply m) :=
        store_eq_perform (m := Action.pop.apply m) h 0 value
      apply bind_eq_perform stored
      intro m₂ h₂
      apply advance_eq_perform opcode
      rw [ip_of_follow_writing h₂]
      rfl

theorem modify_eq_perform (action : Action)
    : (modify action.apply : Execution PUnit) m = perform [.act action] () m := rfl

theorem execute_eq_perform (h : 0 ≤ m.ip)
    : execute instr m
        =
      perform (m.view.clauses m.width instr.mode instr.opcode) (m.view.reason instr.opcode) m := by
  have binary := @binary_eq_perform m instr h
  have jump := @jumpWhen_eq_perform m instr h
  unfold execute View.clauses
  cases opcode : instr.opcode with
  | add | multiply | lessThan | equals =>
    rw [opcode] at binary
    apply binary
  | jumpIfTrue | jumpIfFalse =>
    rw [opcode] at jump
    apply jump
  | input => exact input_eq_perform h opcode
  | output =>
    apply bind_eq_perform (operand_eq_perform h 0)
    intro m₁ h₁
    have ip₁ : m₁.ip = m.ip := congrArg View.ip (view_of_follow_reading h₁)
    show _ = perform ([.act (.emit _)] ++ [_]) _ m₁
    apply bind_eq_perform (modify_eq_perform (.emit (m.view.operand instr.mode 0)))
    intro m₂ h₂
    cases h₂
    apply advance_eq_perform opcode
    exact ip₁
  | adjustBase =>
    dsimp only
    rw [bind_get]
    apply bind_eq_perform (operand_eq_perform h 0)
    intro m₁ h₁
    have v₁ := view_of_follow_reading h₁
    have w₁ := width_of_follow h₁
    have base₁ : m.base = m₁.view.base := congrArg View.base v₁.symm
    rw [← v₁, ← w₁, base₁]
    show _ = perform ([_] ++ ([.act (.rebase _)] ++ [_])) none m₁
    apply bind_eq_perform (requireFits_eq_perform _ _)
    intro m₂ h₂
    have ip₂ : m₂.ip = m₁.ip := by
      apply ip_of_follow h₂
      simp [View.confine]
    apply bind_eq_perform (modify_eq_perform (.rebase _))
    intro m₃ h₃
    cases h₃
    apply advance_eq_perform opcode
    exact ip₂
  | halt => rfl

theorem fetch_eq (h : 0 ≤ m.ip) (inside : m.ip < m.memory.size)
    : fetch m
        =
      match Instruction.decode (m.view.cell m.view.ip) with
      | .ok instr => .ok instr m
      | .error cause => .error (m.view.fault cause) m := by
  have here : (Action.touch m.ip).apply m = m := by
    have : m.ip.toNat < m.memory.size := by omega
    simp only [Action.apply, Memory.grow_of_lt this]
  unfold fetch
  rw [bind_get]
  simp only [bind, EStateM.bind, readCell_eq m h, here]
  unfold Instruction.decodeAt
  rw [show m.view.ip = m.ip from rfl]
  cases Instruction.decode (m.view.cell m.ip) with
  | ok instr => rfl
  | error cause => rfl

theorem eq_of_follow_noting {m' : Machine} {v : View} {tracing : Bool}
    (h : follow [v.noting instr tracing] m = .ok () m') : m = m' := by
  unfold View.noting at h
  split at h
  . cases h
  . cases h
    rfl

theorem note_eq_perform
    : note instr m
        =
      perform [m.view.noting instr m.tracing]
        (if m.tracing then some (m.view.entry instr) else none) m := by
  unfold note View.noting
  cases m.tracing with
  | false => rfl
  | true =>
    have same : traceEntry instr m = m.view.entry instr := rfl
    by_cases writable : (m.view.entry instr).IsWritable
    . simp only [same, writing_of_short writable, if_true, perform, follow, true_and,
        not_true, if_false, writable]
    . rw [if_pos rfl, same]
      dsimp only
      rw [writing_of_long writable, if_pos ⟨rfl, writable⟩]
      rfl

theorem step_eq_perform (h : 0 ≤ m.ip) : step m = perform m.plan.clauses m.plan.reason m := by
  unfold step plan View.plan
  rw [bind_get, bind_get]
  by_cases outside : m.memory.size ≤ m.ip
  . rw [if_pos outside, if_pos (show m.memory.size ≤ m.view.ip from outside)]
    rfl
  . rw [if_neg outside, if_neg (show ¬ m.memory.size ≤ m.view.ip from outside)]
    have fetched := fetch_eq h (Int.not_le.mp outside)
    cases decoded : Instruction.decode (m.view.cell m.view.ip) with
    | error cause =>
      rw [decoded] at fetched
      rw [bind_of_error fetched]
      rfl
    | ok instr =>
      rw [decoded] at fetched
      rw [bind_of_ok fetched]
      show _ = perform ([_] ++ _) _ m
      apply bind_eq_perform note_eq_perform
      intro m₀ h₀
      obtain rfl := eq_of_follow_noting h₀
      apply bind_eq_perform (execute_eq_perform h)
      intro m₁ h₁
      dsimp only
      by_cases stalled : m.view.reason instr.opcode = some .needInput
      . rw [if_neg (fun ne => ne stalled), if_pos stalled]
        rfl
      . rw [if_pos stalled, if_neg stalled]
        rfl

def Unrecordable (m : Machine) : Prop :=
  m.tracing = true ∧ m.ip < m.memory.size
    ∧ ∃ instr, Instruction.decode (m.memory.peek m.ip) = .ok instr
      ∧ ¬ (traceEntry instr m).IsWritable

theorem step_of_unrecordable (h : 0 ≤ m.ip) (unrecordable : m.Unrecordable)
    : step m = .error .unwritable m := by
  obtain ⟨tracing, inside, instr, decoded, unwritable⟩ := unrecordable
  have fetched := fetch_eq h inside
  rw [show Instruction.decode (m.view.cell m.view.ip) = .ok instr from decoded] at fetched
  have noted : note instr m = .error .unwritable m := by
    unfold note
    rw [if_pos tracing]
    dsimp only
    rw [writing_of_long unwritable]
  unfold step
  rw [bind_get, bind_get, if_neg (Int.not_le.mpr inside), bind_of_ok fetched]
  exact bind_of_error noted

theorem step_of_recordable (h : 0 ≤ m.ip) (inside : m.ip < m.memory.size)
    (decoded : Instruction.decode (m.memory.peek m.ip) = .ok instr)
    (recordable : ¬ m.Unrecordable)
    : step m
        =
      perform
        (m.view.clauses m.width instr.mode instr.opcode
          ++ if m.view.reason instr.opcode = some .needInput then
              []
            else
              [.act (.count (if m.tracing then some (m.view.entry instr) else none))])
        (m.view.reason instr.opcode) m := by
  have written : ¬ (m.tracing = true ∧ ¬ (m.view.entry instr).IsWritable) :=
    fun unwritable => recordable ⟨unwritable.1, inside, instr, decoded, unwritable.2⟩
  rw [step_eq_perform h]
  unfold plan View.plan View.noting
  rw [if_neg (show ¬ m.memory.size ≤ m.view.ip from Int.not_le.mpr inside),
    show Instruction.decode (m.view.cell m.view.ip) = .ok instr from decoded]
  dsimp only
  rw [if_neg written]
  rfl

end Intcode.Machine
