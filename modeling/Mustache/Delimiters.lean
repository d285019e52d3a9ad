import Mustache.Text.Blank

set_option autoImplicit false

namespace Mustache

structure Delimiters where
  opening : List Char
  closing : List Char
  opening_ne_nil : opening ≠ []
  closing_ne_nil : closing ≠ []
  deriving DecidableEq

namespace Delimiters

def standard : Delimiters where
  opening := ['{', '{']
  closing := ['}', '}']
  opening_ne_nil := by simp
  closing_ne_nil := by simp

def ofPair? (opening closing : List Char) : Option Delimiters :=
  if filled : opening ≠ [] ∧ closing ≠ [] then some ⟨opening, closing, filled.1, filled.2⟩
  else none

def ofText (text : List Char) : Except (List (List Char)) Delimiters :=
  let words := (splitBlank text).take 2
  match words with
  | [opening, closing] =>
      match ofPair? opening closing with
      | some pair => .ok pair
      -- The words that do not give a pair are handed back.
      | none => .error words
  | _ => .error words

def toStrings (pair : Delimiters) : String × String :=
  (String.ofList pair.opening, String.ofList pair.closing)

end Delimiters

end Mustache
