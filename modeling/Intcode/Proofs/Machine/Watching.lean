import Intcode.Proofs.Machine.Load
import Intcode.Proofs.Machine.Overlook
import Intcode.Proofs.Machine.Writing
import Intcode.Proofs.Memory.Patch

namespace Intcode

def Event.sighting? : Event → Option Sighting
  | sighted sighting => some sighting
  | _ => none

namespace Memory

theorem grow_unwatched (m : Memory) (addr : Nat)
    : { m with watches := [] : Memory }.grow addr = { m.grow addr with watches := [] } := by
  unfold grow size
  split
  . rfl
  . rfl

end Memory

namespace Machine

def unwatched (m : Machine) : Machine :=
  { m with
    memory := { m.memory with watches := [] }
    journal := m.journal.filter fun event => event.sighting?.isNone }

def seen (tag : Nat) (m : Machine) : List Sighting :=
  (m.journal.toList.filterMap Event.sighting?).filter fun sighting => sighting.watch = tag

def reports (tag : Nat) (addr start : Int) (news : List Int) : List Sighting :=
  ((start :: news).zip news).map fun (old, new) => { watch := tag, addr, old, new }

variable {fuel : Nat} {m n : Machine}

theorem unwatched_complete (entry : Option TraceEntry)
    : (complete entry m).unwatched = complete entry m.unwatched := by
  cases entry with
  | none => rfl
  | some entry => simp [complete, record, unwatched, Event.sighting?]

theorem unwatched_apply {action : Action} (uncounted : ∀ entry, action ≠ .count entry)
    : (action.apply m).unwatched = action.apply m.unwatched := by
  cases action with
  | touch addr =>
    simp only [Action.apply, unwatched, Memory.grow_unwatched]
  | put addr value =>
    have dropped (seen : List Sighting)
        : (seen.toArray.map Event.sighted).filter (fun event => event.sighting?.isNone) = #[] := by
      rw [Array.filter_eq_empty_iff]
      intro event mem
      obtain ⟨sighting, -, rfl⟩ := Array.mem_map.mp mem
      simp [Event.sighting?]
    have unseen : { m.memory with watches := [] : Memory }.sightings addr value = [] := rfl
    simp only [Action.apply, unwatched, Array.filter_append, Array.size_append, dropped, unseen,
      Memory.set, Memory.grow_unwatched, Array.map_empty]
  | count entry => exact absurd rfl (uncounted entry)
  | _ => rfl

theorem overlooks_watches : Overlooks Exact Eq fun m n => n = m.unwatched where
  same := by
    rintro m _ rfl
    exact ⟨rfl, rfl, rfl, rfl, rfl, rfl⟩
  tracing := by
    rintro m _ rfl
    exact .inl rfl
  entry := by
    rintro m _ rfl _
    rfl
  count := by
    rintro m _ entry _ rfl rfl
    exact (unwatched_complete entry).symm
  apply := by
    rintro m _ action uncounted rfl
    exact (unwatched_apply uncounted).symm
  push := by
    rintro m _ values rfl
    rfl
  take := by
    rintro m _ rfl
    rfl

theorem drive_unwatched (ops : List Operation)
    : drive fuel (ops.filter fun op => !op.isWatch) m.unwatched
        =
      ((drive fuel ops m).1.filter fun answered => !answered.1.isWatch,
        (drive fuel ops m).2.unwatched) := by
  induction ops generalizing m with
  | nil => rfl
  | cons op ops ih =>
    show _ = (List.filter _ ((op, outcome _) :: (drive fuel ops _).1), (drive fuel ops _).2.unwatched)
    cases watch : op.isWatch with
    | true =>
      rw [List.filter_cons_of_neg (by simp [watch]), List.filter_cons_of_neg (by simp [watch]), ← ih]
      cases op with
      | watch addr => rfl
      | _ => contradiction
    | false =>
      rw [List.filter_cons_of_pos (by simp [watch]), List.filter_cons_of_pos (by simp [watch])]
      obtain ⟨answered, left⟩
          : outcome (op.perform fuel m.unwatched) = outcome (op.perform fuel m)
            ∧ endState (op.perform fuel m.unwatched) = (endState (op.perform fuel m)).unwatched := by
        cases trace : op.isTrace with
        | false => exact (overlooks_watches.perform rfl fuel watch trace).ends
        | true =>
          cases op with
          | enableTrace | clearTrace | readTrace => exact ⟨rfl, rfl⟩
          | _ => contradiction
      show ((op, outcome _) :: (drive fuel _ _).1, (drive fuel _ _).2) = _
      rw [answered, left, ih]

structure Watched (tag : Nat) (addr start : Int) (news : List Int) (m : Machine) : Prop where
  numbered : tag < m.memory.watches.length
  watch : m.memory.watches.filter (·.tag = tag) = [{ tag, addr }]
  seen : m.seen tag = reports tag addr start news
  now : m.memory.peek addr = news.getLastD start

theorem reports_concat (tag : Nat) (addr start : Int) (news : List Int) (value : Int)
    : reports tag addr start (news ++ [value])
        =
      reports tag addr start news
        ++ [{ watch := tag, addr, old := news.getLastD start, new := value }] := by
  induction news generalizing start with
  | nil => rfl
  | cons new news ih =>
    rw [List.getLastD_cons]
    exact congrArg ({ watch := tag, addr, old := start, new } :: ·) (ih new)

theorem seen_put (tag : Nat) (addr value : Int)
    : ((Action.put addr value).apply m).seen tag
        =
      m.seen tag ++ (m.memory.sightings addr value).filter (·.watch = tag) := by
  have sighted (seen : List Sighting)
      : (seen.map Event.sighted).filterMap Event.sighting? = seen := by
    rw [List.filterMap_map]
    exact List.filterMap_some
  simp only [Action.apply, seen, Array.toList_append, Array.toList_map, List.filterMap_append,
    sighted, List.filter_append]

theorem sightings_filter (memory : Memory) (tag : Nat) (addr value : Int)
    : (memory.sightings addr value).filter (·.watch = tag)
        =
      (memory.watches.filter (·.tag = tag)).filterMap fun watch =>
        if watch.addr = addr then
          some { watch := watch.tag, addr, old := memory.peek addr, new := value }
        else
          none := by
  unfold Memory.sightings
  induction memory.watches with
  | nil => rfl
  | cons watch rest ih =>
    by_cases here : watch.addr = addr
    . by_cases same : watch.tag = tag
      . simp [here, same, ih]
      . simp [here, same, ih]
    . by_cases same : watch.tag = tag
      . simp [here, same, ih]
      . simp [here, same, ih]

section

variable {tag : Nat} {addr start : Int} {news : List Int}

theorem Watched.put (h : Watched tag addr start news m) {a : Int} (inside : 0 ≤ a) (value : Int)
    : Watched tag addr start (news ++ valuesAt addr [(a, value)]) ((Action.put a value).apply m) := by
  have watches : (m.memory.set a.toNat value).watches = m.memory.watches := by
    unfold Memory.set
    exact Memory.watches_grow m.memory a.toNat
  have seen := seen_put (m := m) tag a value
  have now := m.memory.peek_set a.toNat value addr
  rw [sightings_filter, h.watch, h.seen] at seen
  rw [Int.toNat_of_nonneg inside] at now
  by_cases here : a = addr
  . -- The old value in the report is the last one that was written, so the reports stay chained.
    subst here
    have written : valuesAt a [(a, value)] = [value] := by simp [valuesAt]
    rw [written]
    refine ⟨watches ▸ h.numbered, watches ▸ h.watch, ?_, ?_⟩
    . rw [seen, reports_concat, ← h.now]
      simp
    . rw [List.getLastD_concat]
      exact now.trans (if_pos rfl)
  . have other : valuesAt addr [(a, value)] = [] := by simp [valuesAt, here]
    rw [other, List.append_nil]
    refine ⟨watches ▸ h.numbered, watches ▸ h.watch, ?_, ?_⟩
    . rw [seen]
      simp [Ne.symm here]
    . exact (now.trans (if_neg (Ne.symm here))).trans h.now

theorem Watched.touch (h : Watched tag addr start news m) (a : Int)
    : Watched tag addr start news ((Action.touch a).apply m) where
  numbered := by
    show tag < (m.memory.grow a.toNat).watches.length
    rw [Memory.watches_grow]
    exact h.numbered
  watch := by
    show (m.memory.grow a.toNat).watches.filter _ = _
    rw [Memory.watches_grow]
    exact h.watch
  seen := h.seen
  now := (m.memory.peek_grow a.toNat addr).trans h.now

theorem Watched.congr (h : Watched tag addr start news m) (memory : n.memory = m.memory)
    (seen : n.seen tag = m.seen tag) : Watched tag addr start news n where
  numbered := memory ▸ h.numbered
  watch := memory ▸ h.watch
  seen := seen.trans h.seen
  now := memory ▸ h.now

theorem Watched.complete (h : Watched tag addr start news m) (entry : Option TraceEntry)
    : Watched tag addr start news (complete entry m) := by
  cases entry with
  | none => exact h.congr rfl rfl
  | some entry =>
    have seen : (Machine.complete (some entry) m).seen tag = m.seen tag := by
      simp [Machine.complete, record, Machine.seen, Event.sighting?]
    exact h.congr rfl seen

theorem Watched.watch_other (h : Watched tag addr start news m) (a : Int)
    : Watched tag addr start news (m.watch m.memory.watches.length a) where
  numbered := by
    show tag < (m.memory.watches ++ [_]).length
    rw [List.length_append]
    exact Nat.lt_add_right 1 h.numbered
  watch := by
    have other : ¬ m.memory.watches.length = tag := Nat.ne_of_gt h.numbered
    show (m.memory.watches ++ [_]).filter _ = _
    rw [List.filter_append, h.watch, List.filter_cons_of_neg (by simpa using other)]
    rfl
  seen := h.seen
  now := h.now

theorem chronicle_watched
    : Chronicle fun before m => Watched tag addr start (valuesAt addr before) m where
  put inside value h := by
    rw [valuesAt_append]
    exact h.put inside value
  touch a h := h.touch a
  registers _ _ _ _ h := h.congr rfl rfl
  complete entry h := h.complete entry
  watch a h := h.watch_other a
  tracing _ _ h := h.congr rfl rfl

end

structure Numbered (m : Machine) : Prop where
  watches : ∀ watch ∈ m.memory.watches, watch.tag < m.memory.watches.length
  reports : ∀ sighting, .sighted sighting ∈ m.journal → sighting.watch < m.memory.watches.length

theorem Numbered.touch (h : m.Numbered) (addr : Int)
    : ((Action.touch addr).apply m).Numbered := by
  have watches := m.memory.watches_grow addr.toNat
  exact ⟨watches ▸ h.watches, watches ▸ h.reports⟩

theorem Numbered.put (h : m.Numbered) (addr value : Int)
    : ((Action.put addr value).apply m).Numbered := by
  have watches : (m.memory.set addr.toNat value).watches = m.memory.watches :=
    m.memory.watches_grow addr.toNat
  refine ⟨watches ▸ h.watches, ?_⟩
  intro sighting mem
  show _ < (m.memory.set addr.toNat value).watches.length
  rw [watches]
  cases Array.mem_append.mp mem with
  | inl before => exact h.reports sighting before
  | inr told =>
    obtain ⟨_, told, same⟩ := Array.mem_map.mp told
    cases same
    obtain ⟨watch, set, told⟩ := List.mem_filterMap.mp (List.mem_toArray.mp told)
    split at told
    . cases told
      exact h.watches watch set
    . contradiction

theorem Numbered.apply (h : m.Numbered) (action : Action) : (action.apply m).Numbered := by
  cases action with
  | touch addr => exact h.touch addr
  | put addr value => exact h.put addr value
  | count entry =>
    cases entry with
    | none => exact ⟨h.watches, h.reports⟩
    | some entry =>
      refine ⟨h.watches, ?_⟩
      intro sighting mem
      cases Array.mem_push.mp mem with
      | inl before => exact h.reports sighting before
      | inr same => contradiction
  | _ => exact ⟨h.watches, h.reports⟩

theorem Numbered.watch (h : m.Numbered) (addr : Int)
    : (m.watch m.memory.watches.length addr).Numbered := by
  have length : (m.watch m.memory.watches.length addr).memory.watches.length
      = m.memory.watches.length + 1 := List.length_append
  constructor
  . intro watch mem
    rw [length]
    cases List.mem_append.mp mem with
    | inl before => exact Nat.lt_succ_of_lt (h.watches watch before)
    | inr last =>
      cases List.mem_singleton.mp last
      exact Nat.lt_succ_self _
  . intro sighting mem
    rw [length]
    exact Nat.lt_succ_of_lt (h.reports sighting mem)

theorem lasting_numbered : Lasting Numbered where
  step m h := by
    by_cases start : 0 ≤ m.ip
    . exact step_ends (fun action m h _ => h.apply action) start h
    . rw [step_of_neg (Int.not_le.mp start)]
      exact h
  touch addr m h := h.touch addr
  put addr value m h := h.put addr value
  registers _ _ _ _ _ h := ⟨h.watches, h.reports⟩
  watch addr m h := h.watch addr
  tracing _ _ _ h := ⟨h.watches, h.reports⟩

theorem Numbered.watched (h : m.Numbered) (addr : Int)
    : Watched m.memory.watches.length addr (m.memory.peek addr) []
        (m.watch m.memory.watches.length addr) where
  numbered := by
    show _ < (m.memory.watches ++ [_]).length
    rw [List.length_append]
    exact Nat.lt_succ_self _
  watch := by
    have others : m.memory.watches.filter (·.tag = m.memory.watches.length) = [] := by
      rw [List.filter_eq_nil_iff]
      intro watch mem
      simpa using Nat.ne_of_lt (h.watches watch mem)
    show (m.memory.watches ++ [_]).filter _ = _
    rw [List.filter_append, others, List.filter_cons_of_pos (by simp)]
    rfl
  seen := by
    show m.seen m.memory.watches.length = []
    unfold seen
    rw [List.filter_eq_nil_iff]
    intro sighting mem
    obtain ⟨event, mem, told⟩ := List.mem_filterMap.mp mem
    cases event with
    | sighted sighting =>
      cases told
      simpa using Nat.ne_of_lt (h.reports sighting (Array.mem_toList_iff.mp mem))
    | _ => contradiction
  now := rfl

theorem writes_watches (addrs : List Int) : writes fuel (addrs.map .watch) m = [] := by
  induction addrs generalizing m with
  | nil => rfl
  | cons addr addrs ih => exact ih

section

variable {tag : Nat} {addr start : Int} {news : List Int}

theorem Watched.diff (h : Watched tag addr start news m) {before : Memory}
    (first : before.peek addr = start) {change : Memory.Change} (here : change.addr = addr)
    : change ∈ Memory.diff before.snapshot m.memory.snapshot
        ↔ (m.seen tag).head?.map (·.old) = some change.old
          ∧ (m.seen tag).getLast?.map (·.new) = some change.new
          ∧ change.old ≠ change.new := by
  rw [Memory.mem_diff, ← Memory.peek_eq_getD, ← Memory.peek_eq_getD, here, first, h.now, h.seen]
  obtain rfl | ⟨olds, last, split⟩ := List.eq_nil_or_concat news
  . constructor
    . rintro ⟨same, same', changed⟩
      exact absurd (same.symm.trans same') changed
    . rintro ⟨absurd, -⟩
      contradiction
  . rw [List.concat_eq_append] at split
    subst split
    have head : (reports tag addr start (olds ++ [last])).head?.map (·.old) = some start := by
      cases olds with
      | nil => rfl
      | cons old olds => rfl
    rw [head, reports_concat, List.getLast?_concat, List.getLastD_concat, Option.map_some,
      Option.some_inj, Option.some_inj]

end

theorem watched_of_set (numbered : m.Numbered) (fuel : Nat)
    {addrs : List Int} {i : Nat} {addr : Int} (here : addrs[i]? = some addr)
    (later : List Operation)
    : Watched (m.memory.watches.length + i) addr (m.memory.peek addr)
        (valuesAt addr (writes fuel later (drive fuel (addrs.map .watch) m).2))
        (drive fuel (addrs.map .watch ++ later) m).2 := by
  induction addrs generalizing m i with
  | nil => contradiction
  | cons a addrs ih =>
    cases i with
    | zero =>
      cases here
      -- Setting the other watches is the first thing that happens after this one is set.
      have set := numbered.watched addr
      have history := chronicle_watched.whole set fuel (addrs.map .watch ++ later)
      rw [writes_append, writes_watches] at history
      exact history
    | succ i =>
      have length : (m.watch m.memory.watches.length a).memory.watches.length
          = m.memory.watches.length + 1 := List.length_append
      have rest := ih (m := m.watch m.memory.watches.length a) (numbered.watch a) here
      rw [length, Nat.add_assoc, Nat.add_comm 1] at rest
      exact rest

/--
Watches make no difference to what becomes of a machine or to the answers that it gives. Of those
that are set together, each tells of the writes to its address since then, one by one, and what it
tells is what the difference to the memory as it was then has to say about that address.
-/
theorem watch_history {image : List Int} {config : Config} {m : Machine}
    (proper : config.width.Proper) (loaded : load image config = .ok m) (fuel : Nat)
    : (∀ ops : List Operation,
        drive fuel (ops.filter fun op => !op.isWatch) m
          =
        ((drive fuel ops m).1.filter fun answered => !answered.1.isWatch,
          (drive fuel ops m).2.unwatched))
      ∧ ∀ (earlier later : List Operation) (addrs : List Int),
        let before := (drive fuel earlier m).2
        let watching := (drive fuel (addrs.map .watch) before).2
        let q := (drive fuel (earlier ++ addrs.map .watch ++ later) m).2
        ∀ (i : Nat) (addr : Int), addrs[i]? = some addr
          → let seen := q.seen (before.memory.watches.length + i)
            let start := before.memory.peek addr
            let news := valuesAt addr (writes fuel later watching)
            seen = reports (before.memory.watches.length + i) addr start news
              ∧ q.memory.peek addr = news.getLastD start
              ∧ ∀ change : Memory.Change, change.addr = addr
                → (change ∈ Memory.diff before.memory.snapshot q.memory.snapshot
                    ↔ seen.head?.map (·.old) = some change.old
                      ∧ seen.getLast?.map (·.new) = some change.new
                      ∧ change.old ≠ change.new) := by
  have fresh := ((load_iff proper).mp loaded).1
  have numbered : m.Numbered := by
    rw [fresh]
    exact ⟨List.forall_mem_nil _, fun _ mem => absurd mem (Array.not_mem_empty _)⟩
  constructor
  . intro ops
    have unwatched : m.unwatched = m := by
      rw [fresh]
      rfl
    rw [← drive_unwatched, unwatched]
  . intro earlier later addrs before watching q i addr here
    have numbered := lasting_numbered.drive numbered fuel earlier
    have watched := watched_of_set numbered fuel here later
    have same : q = (drive fuel (addrs.map .watch ++ later) before).2 := by
      show (drive fuel (earlier ++ addrs.map .watch ++ later) m).2 = _
      rw [List.append_assoc, drive_append]
    rw [same]
    refine ⟨watched.seen, watched.now, ?_⟩
    intro change of_addr
    exact watched.diff rfl of_addr

theorem watch_history_sum
    : let image : List Int := [1101, 2, 3, 7, 3, 7, 99, 0]
      let config : Config := { width := .bits 12 }
      let m : Machine := { width := .bits 12, memory := .ofImage image }
      let later : List Operation := [.push [3000], .run, .write 7 9]
      let q := (drive 9 ([] ++ [7].map .watch ++ later) m).2
      config.width.Proper ∧ load image config = .ok m
        ∧ q.seen 0
            = [{ watch := 0, addr := 7, old := 0, new := 5 },
              { watch := 0, addr := 7, old := 5, new := 9 }]
        ∧ { addr := 7, old := 0, new := 9 } ∈ Memory.diff m.memory.snapshot q.memory.snapshot := by
  intro image config m later q
  have proper : config.width.Proper := by decide
  have loaded : load image config = .ok m := rfl
  obtain ⟨-, history⟩ := watch_history proper loaded 9
  obtain ⟨seen, -, diff⟩ := history [] later [7] 0 7 rfl
  have news : valuesAt 7 (writes 9 later (drive 9 ([7].map .watch) m).2) = [5, 9] := by
    decide +kernel
  have seen : q.seen 0 = reports 0 7 0 [5, 9] := news ▸ seen
  refine ⟨proper, loaded, seen, (diff _ rfl).mpr ?_⟩
  show (q.seen 0).head?.map _ = _ ∧ (q.seen 0).getLast?.map _ = _ ∧ _
  rw [seen]
  exact ⟨rfl, rfl, by decide⟩

end Machine

end Intcode
