import Intcode.Fault
import Intcode.Text.Split

namespace Intcode.Source

def readFields (index : Nat) : List (List Char) → Except Fault (List Int)
  | [] => .ok []
  | field :: rest =>
    let text := Text.trim Text.isBlank field
    if text.isEmpty then
      readFields (index + 1) rest
    else
      match Numeral.read text with
      | .error _ => .error { cause := .unreadableField index (String.ofList text) }
      | .ok v => (readFields (index + 1) rest).map (v :: ·)

def parse (text : String) : Except Fault (List Int) :=
  match readFields 0 (Text.splitAt ',' text.toList) with
  | .error fault => .error fault
  | .ok [] => .error { cause := .emptyProgram }
  | .ok image => .ok image

def format (image : List Int) : Except Failure String :=
  writing image (Numeral.renderList "," image)

end Intcode.Source
