set_option autoImplicit false

namespace Mustache

inductive FaultCode where
  | invalidTemplate
  | invalidTags
  | invalidPartials
  | invalidCache
  | unclosedTag
  | unopenedSection
  | unclosedSection
  | missingSource
  | partialDepth
  | templateNotFound
  deriving DecidableEq, Repr

namespace FaultCode

def all : List FaultCode :=
  [invalidTemplate, invalidTags, invalidPartials, invalidCache, unclosedTag, unopenedSection,
    unclosedSection, missingSource, partialDepth, templateNotFound]

def text : FaultCode → String
  | invalidTemplate => "S-CFG-001"
  | invalidTags => "S-CFG-002"
  | invalidPartials => "S-CFG-003"
  | invalidCache => "S-CFG-004"
  | unclosedTag => "S-PAR-001"
  | unopenedSection => "S-PAR-002"
  | unclosedSection => "S-PAR-003"
  | missingSource => "S-RUN-001"
  | partialDepth => "S-RUN-002"
  | templateNotFound => "S-TPL-001"

def category : FaultCode → String
  | invalidTemplate | invalidTags | invalidPartials | invalidCache => "configuration"
  | unclosedTag | unopenedSection | unclosedSection => "parser"
  | missingSource | partialDepth => "runtime"
  | templateNotFound => "template"

def ofText? (text : String) : Option FaultCode :=
  all.find? (·.text = text)

theorem ofText?_text (code : FaultCode) : ofText? code.text = some code := by
  cases code <;> decide

end FaultCode

end Mustache
