import Intcode.Text.Split

namespace Intcode.CommandLine

structure Path where
  root : String
  parts : List String
  deriving Repr, DecidableEq

namespace Path

-- Two slashes at the front are a root of their own, more of them are as good as one.
def rootOf : List Char → String
  | '/' :: '/' :: '/' :: _ => "/"
  | '/' :: '/' :: _ => "//"
  | '/' :: _ => "/"
  | _ => ""

def partsOf (s : String) : List String :=
  ((Text.splitAt '/' s.toList).map String.ofList).filter (· ≠ "")

def ofString (s : String) : Path :=
  { root := rootOf s.toList, parts := (partsOf s).filter (· ≠ ".") }

def render (path : Path) : String :=
  if path.root.isEmpty ∧ path.parts.isEmpty then
    "."
  else
    path.root ++ "/".intercalate path.parts

def parent (path : Path) : Path :=
  { path with parts := path.parts.dropLast }

/-- Without the parts that a `..` behind them takes back. -/
def collapse (path : Path) : Path :=
  let step (kept : List String) (part : String) : List String :=
    if part ≠ ".." then kept ++ [part]
    else if kept.isEmpty ∨ kept.getLast? = some ".." then
      if path.root.isEmpty then kept ++ [part] else kept
    else kept.dropLast
  { path with parts := path.parts.foldl step [] }

def basename (s : String) : String :=
  String.ofList ((Text.splitAt '/' s.toList).getLastD [])

end Path

end Intcode.CommandLine
