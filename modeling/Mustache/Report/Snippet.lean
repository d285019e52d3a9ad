import Mustache.Text.Lines

set_option autoImplicit false

namespace Mustache

structure Snippet where
  lines : List (Nat × String)
  errorLine : Int
  column : Option Int
  deriving DecidableEq

namespace Snippet

def around (source : String) (errorLine : Int) (contextLines : Int) (column : Option Int) :
    Snippet :=
  let all := breakLines source.toList
  let first := (errorLine - 1 - contextLines).toNat
  let last := min (all.length : Int) (errorLine + contextLines)
  let shown := (all.drop first).take (last - first).toNat
  ⟨shown.mapIdx fun index line => (first + index + 1, String.ofList line), errorLine, column⟩

def lineLabel (number : Nat) : String :=
  let digits := Nat.toDigits 10 number
  String.ofList (List.replicate (3 - digits.length) ' ' ++ digits)

def caretLine (column : Int) : String :=
  "     | " ++ String.ofList (List.replicate column.toNat ' ') ++ "^"

def linesOf (snippet : Snippet) (number : Nat) (content : String) : List String :=
  if (number : Int) = snippet.errorLine then
    (">" ++ lineLabel number ++ " | " ++ content) ::
      (snippet.column.map caretLine).toList
  else [" " ++ lineLabel number ++ " | " ++ content]

def formatLines (snippet : Snippet) : List String :=
  "   |" :: snippet.lines.flatMap (fun (number, content) => snippet.linesOf number content) ++
    ["   |"]

def format (snippet : Snippet) : String :=
  String.intercalate "\n" snippet.formatLines

end Snippet

end Mustache
