import Mustache.Report.Code
import Mustache.Report.Snippet
import Mustache.Text.Blank
import Mustache.Text.Lines
import Mustache.Text.Occurrence

set_option autoImplicit false

namespace Mustache

def clampOffset (source : List Char) (offset : Int) : Nat :=
  min offset.toNat source.length

def position (source : List Char) (offset : Int) : Nat × Nat :=
  -- Only line feeds end a line here.
  let before := source.take (clampOffset source offset)
  (before.count '\n' + 1, (before.reverse.takeWhile (· ≠ '\n')).length)

structure MatchDetail where
  offset : Int
  tag : Option String := none
  closing : Option String := none
  suggestion : Option String := none

structure SourceReport where
  message : String
  line : Option Int := none
  name : Option String := none
  source : Option String := none
  column : Option Int := none
  code : Option FaultCode := some .unclosedTag
  detail : Option MatchDetail := none

structure RuntimeReport where
  message : String
  templateName : Option String := none
  partialStack : List String := []
  suggestion : Option String := none

inductive Report where
  | general (message : String)
  | configuration (message : String) (code : FaultCode)
  | source (report : SourceReport)
  | structural (message : String)
  | runtime (report : RuntimeReport)
  | notFound (message : String)

def nonEmpty? (text : Option String) : Option String :=
  text.filter (· ≠ "")

def formatPartialStack (stack : List String) : String :=
  if stack.isEmpty then ""
  else String.intercalate "\n" ("Partial stack:" :: stack.map ("  • " ++ ·))

namespace SourceReport

def atOffset (message : String) (detail : MatchDetail) (source name : Option String)
    (code : Option FaultCode) : SourceReport :=
  -- Without the source, the line is not known.
  let place := source.map fun text => position text.toList detail.offset
  { message, source, name, code, detail := some detail
    line := place.map fun p => (p.1 : Int)
    column := place.map fun p => (p.2 : Int) }

def title (report : SourceReport) : String :=
  (nonEmpty? report.name).getD "<template>"

def lineSuffix (report : SourceReport) : String :=
  match report.line.filter (· ≠ 0) with
  | none => ""
  | some line => s!":{line}"

def columnSuffix (report : SourceReport) : String :=
  match report.line.filter (· ≠ 0), report.column with
  | some _, some column => s!":{column}"
  | _, _ => ""

def snippet? (report : SourceReport) (contextLines : Int) : Option Snippet :=
  match nonEmpty? report.source, report.line with
  | some source, some line =>
      if 0 < line ∧ line ≤ (breakLines source.toList).length then
        some (Snippet.around source line contextLines report.column)
      else none
  | _, _ => none

def text (report : SourceReport) : String :=
  let header := "Parse Error: " ++ report.message ++ "\n  --> " ++ report.title ++
    report.lineSuffix ++ report.columnSuffix
  let excerpt := match report.snippet? 0 with
    | none => ""
    | some snippet => "\n" ++ snippet.format
  let hint := match report.detail.bind fun detail => nonEmpty? detail.suggestion with
    | none => ""
    | some suggestion => "\n\nSuggestion: " ++ suggestion
  header ++ excerpt ++ hint

def compact (report : SourceReport) : String :=
  (report.code.elim "" fun code => code.text ++ ": ") ++ report.message ++ "\n  --> " ++
    report.title ++ report.lineSuffix

end SourceReport

def RuntimeReport.text (report : RuntimeReport) : String :=
  let location := match nonEmpty? report.templateName with
    | none => []
    | some name => ["  Location: " ++ name]
  let stack :=
    if report.partialStack.isEmpty then [] else ["", formatPartialStack report.partialStack]
  let hint := match nonEmpty? report.suggestion with
    | none => []
    | some suggestion => ["\n  Suggestion: " ++ suggestion]
  String.intercalate "\n" (("Runtime Error: " ++ report.message) :: location ++ stack ++ hint)

namespace Report

def code? : Report → Option FaultCode
  | general _ => none
  | configuration _ code => some code
  | source report => report.code
  | structural _ => some .missingSource
  | runtime _ => some .partialDepth
  | notFound _ => some .templateNotFound

def text : Report → String
  | general message | configuration message _ | structural message | notFound message => message
  | source report => report.text
  | runtime report => report.text

def message? : Report → Option String
  | configuration message _ => some message
  | source report => some report.message
  | runtime report => some report.message
  | _ => none

def compact (report : Report) : String :=
  match report with
  | source report => report.compact
  | _ =>
      let header := trimBlank report.text.toList
      match report.code? with
      | some code =>
          -- The code comes first unless the text names it already.
          if occursIn code.text.toList header then String.ofList header
          else code.text ++ ": " ++ String.ofList header
      | none => String.ofList header

end Report

end Mustache
