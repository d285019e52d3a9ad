import Mustache.Bytes
import Mustache.Text.Occurrence
import Mustache.Value

set_option autoImplicit false

namespace Mustache

namespace Value

def allBytes? : List Value → Option (List Bytes)
  | [] => some []
  | bytes content :: rest => (allBytes? rest).map (content :: ·)
  | _ :: _ => none

def ofParts (parts : Bytes × Bytes × Bytes) : Value :=
  tuple [bytes parts.1, bytes parts.2.1, bytes parts.2.2]

end Value

namespace BytesFunction

def widthLimit : Int := Nat.pow 2 63

def fit (change : Nat → Bytes → Bytes) (content : Bytes) (width : Value) : Except HostFault Value :=
  match width.wholeNumber? with
  | none => .error .wrongType
  | some width =>
      if widthLimit ≤ width ∨ width < -widthLimit then .error .tooLarge
      else .ok (.bytes (change width.toNat content))

def applyAlone (content : Bytes) : BytesFunction → Except HostFault Value
  | capitalize => .ok (.bytes (Bytes.capitalize content))
  | lower => .ok (.bytes (content.map Bytes.toLower))
  | upper => .ok (.bytes (content.map Bytes.toUpper))
  | swapcase => .ok (.bytes (content.map Bytes.swapCase))
  | title => .ok (.bytes (Bytes.titleFrom false content))
  | expandtabs => .ok (.bytes (Bytes.expandTabs 0 content))
  | lstrip => .ok (.bytes (Bytes.stripLeft content))
  | rstrip => .ok (.bytes (Bytes.stripRight content))
  | strip => .ok (.bytes (Bytes.stripRight (Bytes.stripLeft content)))
  | split | rsplit => .ok (.list ((Bytes.words content).map .bytes))
  | splitlines => .ok (.list ((Bytes.lines content).map .bytes))
  | hex => .ok (.str (String.ofList (Bytes.hexOf content)))
  | decode =>
      match Encoding.utf8.decode? content with
      | some text => .ok (.str text)
      | none => .error .undecodable
  | isalnum => .ok (.bool (Bytes.areAll (fun b => Bytes.isLetter b || Bytes.isDigit b) content))
  | isalpha => .ok (.bool (Bytes.areAll Bytes.isLetter content))
  | isascii => .ok (.bool (content.all (· < 128)))
  | isdigit => .ok (.bool (Bytes.areAll Bytes.isDigit content))
  | isspace => .ok (.bool (Bytes.areAll Bytes.isBlank content))
  | islower => .ok (.bool (Bytes.areCased Bytes.isLower Bytes.isUpper content))
  | isupper => .ok (.bool (Bytes.areCased Bytes.isUpper Bytes.isLower content))
  | istitle =>
      .ok (.bool (content.any Bytes.isLetter && Bytes.isTitledFrom false content))
  | _ => .error .wrongArguments

def applyToBytes (content given : Bytes) : BytesFunction → Except HostFault Value
  | partition =>
      if given.isEmpty then .error .wrongValue
      else .ok <| .ofParts <| match aroundFirst? given content with
        | some (before, after) => (before, given, after)
        | none => (content, [], [])
  | rpartition =>
      if given.isEmpty then .error .wrongValue
      else .ok <| .ofParts <| match aroundLast? given content with
        | some (before, after) => (before, given, after)
        | none => ([], [], content)
  | removeprefix =>
      .ok (.bytes (if given.isPrefixOf content then content.drop given.length else content))
  | removesuffix =>
      .ok (.bytes
        (if given.isSuffixOf content then content.take (content.length - given.length)
        else content))
  | translate =>
      if given.length = 256 then .ok (.bytes (content.map fun b => given.getD b.toNat b))
      else .error .wrongValue
  | _ => .error .wrongType

def applyTo (content : Bytes) (argument : Value) : BytesFunction → Except HostFault Value
  | center => fit Bytes.center content argument
  | ljust => fit Bytes.justifyLeft content argument
  | rjust => fit Bytes.justifyRight content argument
  | zfill => fit Bytes.fillZeros content argument
  | join =>
      match argument.iterate?.bind Value.allBytes? with
      | some parts => .ok (.bytes (Bytes.joinWith content parts))
      | none => .error .wrongType
  | fromhex =>
      match argument with
      | .str digits =>
          match Bytes.ofHex? digits.toList with
          | some result => .ok (.bytes result)
          | none => .error .wrongValue
      | _ => .error .wrongType
  | function =>
      match function, argument with
      | translate, .null => .ok (.bytes content)
      | function, .bytes given => function.applyToBytes content given
      | _, _ => .error .wrongType

def apply (function : BytesFunction) (content : Bytes) : List Value → Except HostFault Value
  | [] => function.applyAlone content
  | [argument] => if function.takesOne then function.applyTo content argument
      else .error .wrongArguments
  | _ => .error .wrongArguments

end BytesFunction

end Mustache
