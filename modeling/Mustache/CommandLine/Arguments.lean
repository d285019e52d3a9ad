import Mustache.Text.Digit

/-!
The arguments of the command: one template and options. Long options may be shortened and may take
their value after an equals sign. Short ones may be run together and take their value at once. The
releases of the host's reader of arguments differ in what they make of two dashes and of equals
signs on options.
-/

set_option autoImplicit false

namespace Mustache.CommandLine

inductive Flag where
  | help
  | data
  | partials
  | tags
  | output
  | verbose
  deriving DecidableEq, Repr

def Flag.takesValue : Flag → Bool
  | help | verbose => false
  | _ => true

def flags : List (String × Flag) :=
  [("-h", .help), ("--help", .help), ("--data", .data), ("--partials", .partials),
    ("--tags", .tags), ("--output", .output), ("-o", .output), ("--verbose", .verbose),
    ("-v", .verbose)]

/-- How a release of the host reads arguments. -/
structure ArgumentRules where
  /-- Two dashes written onto an option are taken off, and leave it without a value. -/
  dropsDashes : Bool
  /-- Only an option that takes a value has an equals sign before it, and among short options that
  are run together, letters of no option are arguments in excess. -/
  strict : Bool
  deriving DecidableEq, Repr

def ArgumentRules.earlier : ArgumentRules := ⟨true, false⟩

def ArgumentRules.later : ArgumentRules := ⟨false, true⟩

/-- What is written onto an option: nothing, on a long one a value after an equals sign, and on a
short one the characters that follow it. -/
inductive Attached where
  | nothing
  | assigned (value : String)
  | joined (letters : String)
  deriving DecidableEq, Repr

inductive Word where
  | plain (text : String)
  | separator
  | option (flag : Flag) (attached : Attached)
  | unknown

def isShortName (name : String) : Bool :=
  name.toList[1]? ≠ some '-'

def splitEquals? (text : String) : Option (String × String) :=
  let s := text.toList
  match s.dropWhile (· ≠ '=') with
  | [] => none
  | _ :: value => some (String.ofList (s.takeWhile (· ≠ '=')), String.ofList value)

def candidates (text : String) : List Word :=
  if isShortName text then
    let name := String.ofList (text.toList.take 2)
    let letters := String.ofList (text.toList.drop 2)
    ((flags.lookup name).map fun flag => Word.option flag (.joined letters)).toList
  else
    let (name, attached) := match splitEquals? text with
      | some (name, value) => (name, Attached.assigned value)
      | none => (text, .nothing)
    -- A long option may be cut short.
    flags.filterMap fun (known, flag) =>
      if name.toList.isPrefixOf known.toList then some (.option flag attached) else none

def isDecimalDigit (c : Char) : Bool :=
  (digitValue? c).isSome

def dropLineFeed (s : List Char) : List Char :=
  if s.getLast? = some '\n' then s.dropLast else s

def isNegativeNumber (text : String) : Bool :=
  -- A minus sign before digits, perhaps with a point among them, and perhaps a line feed.
  match dropLineFeed text.toList with
  | '-' :: digits =>
      let afterWhole := digits.dropWhile isDecimalDigit
      let decimals := afterWhole.drop 1
      (!digits.isEmpty && afterWhole.isEmpty) ||
        (afterWhole.head? = some '.' && !decimals.isEmpty && decimals.all isDecimalDigit)
  | _ => false

def classify? (rules : ArgumentRules) (text : String) : Option Word :=
  let full := (flags.lookup text).map fun flag => Word.option flag .nothing
  let assigned := (splitEquals? text).bind fun (name, value) =>
    (flags.lookup name).map fun flag =>
      Word.option flag
        (if isShortName name && !rules.strict then .joined value else .assigned value)
  if text.toList.head? ≠ some '-' then some (.plain text)
  else if text = "--" then some .separator
  else match full with
    | some word => some word
    | none =>
        if text.length = 1 then some (.plain text)
        else match assigned with
          | some word => some word
          | none =>
              match candidates text with
              | [word] => some word
              -- Several options begin with it.
              | _ :: _ :: _ => none
              | [] =>
                  if isNegativeNumber text || text.toList.contains ' ' then some (.plain text)
                  else some .unknown

def classifyAll? (rules : ArgumentRules) : List String → Option (List Word)
  | [] => some []
  | text :: rest =>
      -- After two dashes alone, every argument is plain.
      if text = "--" then some (.separator :: rest.map Word.plain)
      else do
        let word ← classify? rules text
        let words ← classifyAll? rules rest
        some (word :: words)

/-- What an option word stands for: options without a value, then perhaps one more with the value
written onto it, or letters of no option. -/
structure Cluster where
  silent : List Flag := []
  last : Option (Flag × Option String) := none
  excess : Bool := false

def Cluster.asksHelp (cluster : Cluster) : Bool :=
  cluster.silent.contains .help

def clusterOf? (rules : ArgumentRules) : List Char → Option Cluster
  | [] => some {}
  | c :: rest =>
      match flags.lookup (String.ofList ['-', c]) with
      | none => if rules.strict && c ≠ '-' then some { excess := true } else none
      | some flag =>
          if rest.isEmpty then some { last := some (flag, none) }
          else if rules.strict && rest.head? = some '=' then
            if flag.takesValue then some { last := some (flag, some (String.ofList rest.tail)) }
            else none
          else if flag.takesValue then some { last := some (flag, some (String.ofList rest)) }
          else (clusterOf? rules rest).map fun cluster =>
            { cluster with silent := flag :: cluster.silent }

def spread? (rules : ArgumentRules) (flag : Flag) : Attached → Option Cluster
  | .nothing => some { last := some (flag, none) }
  -- An option that takes no value has none assigned to it.
  | .assigned value => if flag.takesValue then some { last := some (flag, some value) } else none
  | .joined letters =>
      if flag.takesValue then some { last := some (flag, some letters) }
      else if letters = "" then none
      else (clusterOf? rules letters.toList).map fun cluster =>
        { cluster with silent := flag :: cluster.silent }

inductive GivenData where
  | nothing
  | emptied
  | path (text : String)
  deriving DecidableEq, Repr

structure Options where
  template : String
  data : GivenData := .nothing
  partials : Option String := none
  tags : Option String := none
  output : Option String := none
  verbose : Bool := false
  deriving DecidableEq, Repr

inductive Arguments where
  | options (options : Options)
  | help
  | invalid
  deriving DecidableEq, Repr

/-- What has been read so far. Arguments that fit nowhere make the whole invalid at its end. -/
structure Reading where
  template : Option String := none
  options : Options := ⟨"", .nothing, none, none, none, false⟩
  excess : Bool := false

namespace Reading

def valueLeft (rules : ArgumentRules) (value : String) : Option String :=
  if rules.dropsDashes && value = "--" then none else some value

def setFlag (rules : ArgumentRules) (reading : Reading) (flag : Flag) (value : String) : Reading :=
  let options := reading.options
  let value := valueLeft rules value
  { reading with
    options := match flag with
      | .data => { options with data := (value.map GivenData.path).getD .emptied }
      | .partials => { options with partials := value }
      | .tags => { options with tags := value }
      | .output => { options with output := value }
      | .verbose => { options with verbose := true }
      | .help => options }

def setSilent (rules : ArgumentRules) (reading : Reading) (cluster : Cluster) : Reading :=
  let reading := { reading with excess := reading.excess || cluster.excess }
  cluster.silent.foldl (setFlag rules · · "") reading

def finish (reading : Reading) : Arguments :=
  match reading.template with
  | none => .invalid
  | some template =>
      if reading.excess then .invalid
      else .options { reading.options with template }

def readWords (rules : ArgumentRules) (reading : Reading) : List Word → Arguments
  | [] => reading.finish
  | .plain text :: rest =>
      match reading.template with
      | some _ => readWords rules { reading with excess := true } rest
      | none =>
          let reading := { reading with template := some text }
          match rest with
          -- A separator is passed over next to the template.
          | .separator :: rest => readWords rules reading rest
          | rest => readWords rules reading rest
  | .separator :: rest =>
      match reading.template, rest with
      | none, .plain _ :: _ => readWords rules reading rest
      | _, _ => readWords rules { reading with excess := true } rest
  | .unknown :: rest => readWords rules { reading with excess := true } rest
  | .option flag attached :: rest =>
      match spread? rules flag attached with
      | none => .invalid
      | some cluster =>
          let reading := setSilent rules reading cluster
          match cluster.last, rest with
          | none, rest => if cluster.asksHelp then .help else readWords rules reading rest
          | some (last, some value), rest =>
              if cluster.asksHelp then .help
              else readWords rules (setFlag rules reading last value) rest
          | some (last, none), rest =>
              if !last.takesValue then
                if cluster.asksHelp || last = .help then .help
                else readWords rules (setFlag rules reading last "") rest
              else match rest with
                | .plain text :: rest =>
                    if cluster.asksHelp then .help
                    else readWords rules (setFlag rules reading last text) rest
                | _ => .invalid

end Reading

def Arguments.read (rules : ArgumentRules) (args : List String) : Arguments :=
  match classifyAll? rules args with
  | none => .invalid
  | some words => Reading.readWords rules {} words

end Mustache.CommandLine
