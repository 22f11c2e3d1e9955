import Intcode.Memory.Diff
import Intcode.Memory.Dump
import Intcode.Proofs.Memory.Growth
import Mathlib.Algebra.Group.Int.Defs
import Mathlib.Data.List.Induction

namespace Intcode.Memory

inductive Request where
  | read (addr : Int)
  | write (addr value : Int)
  | peek (addr : Int)
  | snapshot
  | dump (start length perLine : Int)
  | diff (before after : Array Int)
  | watch (tag : Nat) (addr : Int)
  deriving Repr, DecidableEq

inductive Reply where
  | value (value : Int)
  | stored (seen : List Sighting)
  | cells (cells : Array Int)
  | text (text : String)
  | changes (changes : List Change)
  | watching
  | failed (e : Failure)
  deriving Repr, DecidableEq

namespace Request

def perform (m : Memory) : Request → Reply × Memory
  | read addr =>
    match m.read addr with
    | .ok (value, m) => (.value value, m)
    | .error fault => (.failed fault, m)
  | write addr value =>
    match m.write addr value with
    | .ok (seen, m) => (.stored seen, m)
    | .error fault => (.failed fault, m)
  | peek addr => (.value (m.peek addr), m)
  | snapshot => (.cells m.snapshot, m)
  | dump start length perLine =>
    match m.dump start length perLine with
    | .ok text => (.text text, m)
    | .error e => (.failed e, m)
  | diff before after => (.changes (Memory.diff before after), m)
  | watch tag addr => (.watching, m.watch tag addr)

def stores? (addr : Int) : Request → Option Int
  | write a value => if a = addr then some value else none
  | _ => none

def reach : Request → Nat
  | read addr | write addr _ => (addr + 1).toNat
  | _ => 0

def watch? : Request → Option Watch
  | watch tag addr => some { tag, addr }
  | _ => none

end Request

def follow (requests : List Request) (m : Memory) : Memory :=
  requests.foldl (fun m request => (request.perform m).2) m

/-- The value that was last written to an address, or else what the image has there. -/
def held (image : List Int) (history : List Request) (addr : Int) : Int :=
  (history.reverse.findSome? (·.stores? addr)).getD (image.getD addr.toNat 0)

def extent (image : List Int) (history : List Request) : Nat :=
  (history.map (·.reach)).foldl max image.length

variable {m : Memory} {addr : Int} {image : List Int} {history : List Request}

theorem read_of_neg (outside : addr < 0)
    : m.read addr = .error (Fault.raised { cause := .negativeAddress addr }) := by
  unfold read
  rw [if_pos outside]

theorem read_of_nonneg (inside : 0 ≤ addr)
    : m.read addr = .ok (m.peek addr, m.grow addr.toNat) := by
  unfold read
  rw [if_neg (Int.not_lt.mpr inside)]

theorem write_of_neg (outside : addr < 0) (value : Int)
    : m.write addr value = .error (Fault.raised { cause := .negativeAddress addr }) := by
  unfold write
  rw [if_pos outside]

theorem write_of_nonneg (inside : 0 ≤ addr) (value : Int)
    : m.write addr value = .ok (m.sightings addr value, m.set addr.toNat value) := by
  unfold write
  rw [if_neg (Int.not_lt.mpr inside)]

theorem watches_set (m : Memory) (addr : Nat) (value : Int)
    : (m.set addr value).watches = m.watches :=
  watches_grow m addr

namespace Request

theorem perform_read_of_neg (outside : addr < 0)
    : (read addr).perform m = (.failed (Fault.raised { cause := .negativeAddress addr }), m) := by
  unfold perform
  simp only [read_of_neg outside]

theorem perform_read_of_nonneg (inside : 0 ≤ addr)
    : (read addr).perform m = (.value (m.peek addr), m.grow addr.toNat) := by
  unfold perform
  simp only [read_of_nonneg inside]

theorem perform_write_of_neg (outside : addr < 0) (value : Int)
    : (write addr value).perform m
        = (.failed (Fault.raised { cause := .negativeAddress addr }), m) := by
  unfold perform
  simp only [write_of_neg outside]

theorem perform_write_of_nonneg (inside : 0 ≤ addr) (value : Int)
    : (write addr value).perform m
        = (.stored (m.sightings addr value), m.set addr.toNat value) := by
  unfold perform
  simp only [write_of_nonneg inside]

theorem snd_perform (m : Memory) (request : Request)
    : (request.perform m).2
        =
      match request with
      | read addr => if addr < 0 then m else m.grow addr.toNat
      | write addr value => if addr < 0 then m else m.set addr.toNat value
      | watch tag addr => m.watch tag addr
      | _ => m := by
  cases request with
  | read addr =>
    dsimp only
    split
    . next outside => rw [perform_read_of_neg outside]
    . next inside => rw [perform_read_of_nonneg (Int.not_lt.mp inside)]
  | write addr value =>
    dsimp only
    split
    . next outside => rw [perform_write_of_neg outside]
    . next inside => rw [perform_write_of_nonneg (Int.not_lt.mp inside)]
  | dump start length perLine =>
    simp only [perform]
    split
    . rfl
    . rfl
  | _ => rfl

theorem peek_perform (m : Memory) (request : Request) (inside : 0 ≤ addr)
    : (request.perform m).2.peek addr = (request.stores? addr).getD (m.peek addr) := by
  rw [snd_perform]
  cases request with
  | read a =>
    dsimp only
    split
    . rfl
    . rw [peek_grow]
      rfl
  | write a value =>
    simp only [stores?]
    split
    . next outside =>
      rw [if_neg (by omega)]
      rfl
    . rw [peek_set]
      by_cases same : a = addr
      . rw [if_pos same, if_pos (by omega)]
        rfl
      . rw [if_neg same, if_neg (by omega)]
        rfl
  | _ => rfl

theorem size_perform (m : Memory) (request : Request)
    : (request.perform m).2.size = max m.size request.reach := by
  rw [snd_perform]
  cases request with
  | read a =>
    simp only [reach]
    split
    . omega
    . rw [size_grow]
      omega
  | write a value =>
    simp only [reach]
    split
    . omega
    . rw [size_set]
      omega
  | _ => exact (Nat.max_zero _).symm

theorem watches_perform (m : Memory) (request : Request)
    : (request.perform m).2.watches = m.watches ++ request.watch?.toList := by
  rw [snd_perform]
  cases request with
  | read a =>
    dsimp only
    split
    . simp [watch?]
    . simp [watch?, watches_grow]
  | write a value =>
    dsimp only
    split
    . simp [watch?]
    . simp [watch?, watches_set]
  | watch tag addr => rfl
  | _ => exact (List.append_nil _).symm

end Request

theorem follow_append (history later : List Request) (m : Memory)
    : follow (history ++ later) m = follow later (follow history m) :=
  List.foldl_append

theorem size_le_follow (requests : List Request) (m : Memory)
    : m.size ≤ (follow requests m).size := by
  induction requests generalizing m with
  | nil => exact Nat.le_refl _
  | cons request requests ih =>
    apply Nat.le_trans _ (ih _)
    rw [Request.size_perform]
    omega

theorem held_concat (image : List Int) (history : List Request) (request : Request) (addr : Int)
    : held image (history ++ [request]) addr
        = (request.stores? addr).getD (held image history addr) := by
  unfold held
  rw [List.reverse_append, List.reverse_singleton, List.singleton_append, List.findSome?_cons]
  cases request.stores? addr with
  | none => rfl
  | some value => rfl

theorem peek_follow (image : List Int) (history : List Request) (inside : 0 ≤ addr)
    : (follow history (ofImage image)).peek addr = held image history addr := by
  induction history using List.reverseRecOn with
  | nil =>
    show (ofImage image).peek addr = image.getD addr.toNat 0
    unfold peek ofImage
    rw [if_neg (Int.not_lt.mpr inside)]
    simp
  | append_singleton history request ih =>
    rw [held_concat, ← ih, follow_append]
    exact Request.peek_perform _ request inside

theorem size_follow (image : List Int) (history : List Request)
    : (follow history (ofImage image)).size = extent image history := by
  induction history using List.reverseRecOn with
  | nil => rfl
  | append_singleton history request ih =>
    unfold extent at ih ⊢
    rw [List.map_append, List.foldl_append, ← ih, follow_append]
    exact Request.size_perform _ request

theorem watches_follow (image : List Int) (history : List Request)
    : (follow history (ofImage image)).watches = history.filterMap (·.watch?) := by
  induction history using List.reverseRecOn with
  | nil => rfl
  | append_singleton history request ih =>
    have set : [request].filterMap (·.watch?) = request.watch?.toList := by
      cases watched : request.watch? with
      | none => simp [watched]
      | some watch => simp [watched]
    rw [List.filterMap_append, set, ← ih, follow_append]
    exact Request.watches_perform _ request

theorem snapshot_eq (m : Memory)
    : m.snapshot.toList = (List.range m.size).map fun (i : Nat) => m.peek i := by
  apply List.ext_getElem
  . simp [snapshot, size]
  . intro i inside inside'
    have inside : i < m.cells.size := inside
    have nonneg : ¬ (i : Int) < 0 := by omega
    simp [snapshot, peek, inside, nonneg]

/--
A read gives what was last written to its address, or else what the image has there, and so does a
peek. The memory is as long as the image, or so long that it has all addresses that were read or
written, and nothing shortens it. An address below zero is refused to a read or a write, by a fault
that names it unless it is too long to be written; nothing changes then and no watch sees it, and a
peek finds 0 there. A snapshot gives what a peek gives at all addresses there are, and nothing but a
read or a write changes any cells.
-/
theorem zero_default_map (image : List Int) (history : List Request)
    : let m := follow history (ofImage image)
      (∀ addr, 0 ≤ addr →
          ((Request.read addr).perform m).1 = .value (held image history addr)
            ∧ ((Request.peek addr).perform m).1 = .value (held image history addr))
        ∧ m.size = extent image history
        ∧ (∀ later, m.size ≤ (follow (history ++ later) (ofImage image)).size)
        ∧ (∀ addr value, addr < 0 →
          ∃ e, (Numeral.Short addr → e = .fault { cause := .negativeAddress addr })
            ∧ (¬ Numeral.Short addr → e = .unwritable)
            ∧ (Request.read addr).perform m = (.failed e, m)
            ∧ (Request.write addr value).perform m = (.failed e, m)
            ∧ (Request.peek addr).perform m = (.value 0, m))
        ∧ (∀ addr value, 0 ≤ addr → ((Request.write addr value).perform m).1
          = .stored ((history.filterMap (·.watch?)).filterMap fun watch =>
              if watch.addr = addr then
                some { watch := watch.tag, addr, old := held image history addr, new := value }
              else
                none))
        ∧ (∃ cells, Request.snapshot.perform m = (.cells cells, m)
          ∧ cells.toList = (List.range m.size).map fun (i : Nat) => m.peek i)
        ∧ ∀ request : Request, (∀ addr, request ≠ .read addr)
          → (∀ addr value, request ≠ .write addr value)
          → (request.perform m).2.cells = m.cells := by
  intro m
  refine ⟨?_, size_follow image history, ?_, ?_, ?_, ⟨_, rfl, snapshot_eq m⟩, ?_⟩
  . intro addr inside
    have value : m.peek addr = held image history addr := peek_follow image history inside
    constructor
    . rw [Request.perform_read_of_nonneg inside, value]
    . exact congrArg Reply.value value
  . intro later
    rw [follow_append]
    exact size_le_follow later m
  . intro addr value outside
    refine ⟨_, ?_, ?_, Request.perform_read_of_neg outside,
      Request.perform_write_of_neg outside value, ?_⟩
    . intro short
      apply Fault.raised_of_writable
      simpa [Fault.IsWritable, Fault.numbers, Cause.numbers] using short
    . intro long
      apply Fault.raised_of_unwritable
      simpa [Fault.IsWritable, Fault.numbers, Cause.numbers] using long
    . simp only [Request.perform, peek, if_pos outside]
  . intro addr value inside
    rw [Request.perform_write_of_nonneg inside]
    unfold sightings
    rw [watches_follow, peek_follow image history inside]
  . intro request unread unwritten
    rw [Request.snd_perform]
    cases request with
    | read addr => exact absurd rfl (unread addr)
    | write addr value => exact absurd rfl (unwritten addr value)
    | _ => rfl

theorem read_of_long_address
    : (Request.read (-10 ^ 4300)).perform (ofImage [1]) = (.failed .unwritable, ofImage [1])
      ∧ Failure.unwritable ≠ .fault { cause := .negativeAddress (-10 ^ 4300) } := by
  refine ⟨?_, nofun⟩
  rw [Request.perform_read_of_neg (by decide +kernel), Fault.raised_of_unwritable]
  decide +kernel

end Intcode.Memory
