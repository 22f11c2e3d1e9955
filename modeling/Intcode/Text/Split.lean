namespace Intcode.Text

def splitAt (separator : Char) : List Char → List (List Char)
  | [] => [[]]
  | c :: rest =>
    if c = separator then
      [] :: splitAt separator rest
    else
      match splitAt separator rest with
      | [] => [[c]]
      | part :: more => (c :: part) :: more

theorem splitAt_ne_nil (separator : Char) (s : List Char) : splitAt separator s ≠ [] := by
  cases s with
  | nil => simp [splitAt]
  | cons c rest =>
    unfold splitAt
    split
    . simp
    . split <;> simp

theorem splitAt_length (separator : Char) (s : List Char)
    : (splitAt separator s).length = s.count separator + 1 := by
  induction s with
  | nil => rfl
  | cons c rest ih =>
    unfold splitAt
    split
    . simp_all
    . split
      . rename_i h
        exact absurd h (splitAt_ne_nil separator rest)
      . rename_i h _ _ _
        simp_all

theorem splitAt_of_break {separator : Char} {part : List Char} (whole : separator ∉ part)
    (rest : List Char)
    : splitAt separator (part ++ separator :: rest) = part :: splitAt separator rest := by
  induction part with
  | nil => exact if_pos rfl
  | cons c part ih =>
    rw [List.mem_cons, not_or] at whole
    rw [List.cons_append, splitAt, if_neg (Ne.symm whole.1), ih whole.2]

theorem append_cons_inj {α : Type} {start start' rest rest' : List α} {a a' : α}
    (same : start ++ a :: rest = start' ++ a' :: rest') (first : a' ∉ start) (first' : a ∉ start')
    : start = start' ∧ a = a' ∧ rest = rest' := by
  induction start generalizing start' with
  | nil =>
    cases start' with
    | nil => simpa using same
    | cons b start' =>
      cases same
      exact absurd List.mem_cons_self first'
  | cons b start ih =>
    cases start' with
    | nil =>
      cases same
      exact absurd List.mem_cons_self first
    | cons b' start' =>
      injection same with head tail
      rw [List.mem_cons, not_or] at first first'
      obtain ⟨starts, rest⟩ := ih tail first.2 first'.2
      exact ⟨by rw [head, starts], rest⟩

def lines (s : List Char) : List (List Char) :=
  let parts := splitAt '\n' s
  if parts.getLast? = some [] then parts.dropLast else parts

end Intcode.Text
