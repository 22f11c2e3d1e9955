namespace Intcode.Text

def padStart (width : Nat) (fill : Char) (s : List Char) : List Char :=
  List.replicate (width - s.length) fill ++ s

def padEnd (width : Nat) (fill : Char) (s : List Char) : List Char :=
  s ++ List.replicate (width - s.length) fill

theorem padStart_length (width : Nat) (fill : Char) (s : List Char)
    : (padStart width fill s).length = max width s.length := by
  simp [padStart]
  omega

theorem padEnd_length (width : Nat) (fill : Char) (s : List Char)
    : (padEnd width fill s).length = max width s.length := by
  simp [padEnd]
  omega

def joinLines (lines : List String) : String :=
  "\n".intercalate lines

end Intcode.Text
