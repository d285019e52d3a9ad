import Mustache.Files
import Mustache.Report
import Mustache.Text.Quoted

set_option autoImplicit false

namespace Mustache

inductive ParseCause where
  | unclosedTag
  | unopenedSection (name : String)
  | mismatchedClose (opened closing : String)
  | unclosedSections (outermost : String) (inner : List String)
  deriving DecidableEq, Repr

structure ParseFault where
  cause : ParseCause
  offset : Nat
  source : String
  name : Option String := none
  deriving DecidableEq, Repr

inductive Missing where
  | noLoader
  | directories (paths : List String)
  | names (similar : Option String) (known : List String)
  | loaders (count : Nat)
  | unknown
  deriving DecidableEq, Repr

/-- Failures of the values that the host hands in, and of files, which have no report of their
own. -/
inductive HostFault where
  | raised
  | wrongArguments
  | wrongType
  | wrongCount
  | wrongValue
  | noAttribute
  | outOfRange
  | tooLarge
  | tooManyDigits
  | undecodable
  | unformattable
  | badPattern
  | file (refusal : Refusal)
  deriving DecidableEq, Repr

inductive Fault where
  | invalidTemplate (typeName : String) (rendering : Bool)
  | invalidTags (shown : String)
  | invalidPartials (typeName : String)
  | invalidPartialSource (name typeName : String)
  | invalidCache (typeName : String)
  | parse (fault : ParseFault)
  | missingSource
  | tooDeep (limit : Int) (refused : String) (templateName : Option String)
      (openPartials : List String)
  | notFound (name : String) (missing : Missing)
  | host (fault : HostFault)
  | exhausted
  deriving DecidableEq, Repr

def inQuotes (text : String) : String :=
  "\"" ++ text ++ "\""

namespace ParseFault

def message (fault : ParseFault) : String :=
  match fault.cause with
  | .unclosedTag => s!"Unclosed tag at {fault.offset}"
  | .unopenedSection name => s!"Unopened section {inQuotes name} at {fault.offset}"
  | .mismatchedClose opened _ => s!"Unclosed section {inQuotes opened} at {fault.offset}"
  | .unclosedSections outermost inner =>
      let names := String.intercalate ", " ((outermost :: inner).map inQuotes)
      s!"Unclosed section {inQuotes outermost} at {fault.offset}" ++
        (if inner.isEmpty then "" else " (open sections: " ++ names ++ ")")

def code (fault : ParseFault) : FaultCode :=
  match fault.cause with
  | .unclosedTag => .unclosedTag
  | .unopenedSection _ => .unopenedSection
  | .mismatchedClose _ _ | .unclosedSections _ _ => .unclosedSection

def tag? (fault : ParseFault) : Option String :=
  match fault.cause with
  | .unclosedTag => none
  | .unopenedSection name => some name
  | .mismatchedClose opened _ => some opened
  | .unclosedSections outermost _ => some outermost

def closing? (fault : ParseFault) : Option String :=
  match fault.cause with
  | .mismatchedClose _ closing => some closing
  | _ => none

def suggestion? (fault : ParseFault) : Option String :=
  match fault.cause with
  | .mismatchedClose opened closing =>
      some ("\"\x7b\x7b/" ++ closing ++ "\x7d\x7d\" closes " ++ inQuotes opened ++ "; close " ++
        inQuotes opened ++ " first")
  | _ => none

def report (fault : ParseFault) : SourceReport :=
  .atOffset fault.message
    { offset := fault.offset, tag := fault.tag?, closing := fault.closing?
      suggestion := fault.suggestion? }
    (some fault.source) fault.name (some fault.code)

end ParseFault

namespace Missing

def text : Missing → String
  | noLoader => ": no loader configured"
  | directories paths => " in: " ++ String.intercalate ", " paths
  | names (some similar) _ => ". Did you mean '" ++ similar ++ "'?"
  | names none known =>
      if known.isEmpty then ""
      else ". Available: " ++ String.intercalate ", " (known.take 10) ++
        (if known.length > 10 then s!" ... ({known.length} total)" else "")
  | loaders count => s!" in any of {count} loaders"
  | unknown => ""

end Missing

namespace Fault

def report? : Fault → Option Report
  -- Faults of the host have no report of their own.
  | invalidTemplate typeName rendering =>
      some (.configuration
        ("Invalid template! Template should be a \"str\" but " ++ inQuotes typeName ++
          " was given" ++
          if rendering then " as the first argument for render(template, view, partials)" else "")
        .invalidTemplate)
  | invalidTags shown => some (.configuration ("Invalid tags: " ++ shown) .invalidTags)
  | invalidPartials typeName =>
      some (.configuration
        ("Invalid partials: expected a mapping, loader or callable, got " ++ typeName)
        .invalidPartials)
  | invalidPartialSource name typeName =>
      some (.configuration ("Partial " ++ quoted name ++ " must be a string, got " ++ typeName)
        .invalidPartials)
  | invalidCache typeName =>
      some (.configuration
        ("Invalid cache: " ++ typeName ++ " must provide get(), set() and clear()") .invalidCache)
  | parse fault => some (.source fault.report)
  | missingSource =>
      some (.structural "Cannot use higher-order sections without the original template")
  | tooDeep limit refused templateName openPartials =>
      some (.runtime
        { message := s!"Maximum partial depth exceeded ({limit}) when rendering partial '" ++
            refused ++ "'"
          templateName
          partialStack := openPartials ++ [refused]
          suggestion := some "Check for recursive partials: A → B → A" })
  | notFound name missing =>
      some (.notFound ("Template '" ++ name ++ "' not found" ++ missing.text))
  | host _ | exhausted => none

end Fault

end Mustache
