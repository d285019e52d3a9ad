import Mustache.Bytes
import Mustache.Files.Search
import Mustache.Number.Binary64

/-!
Values: the data that views, partials and settings are made of. The functions of views are those
that can be written in a small expression language (`Expr`), and no others: what they do is data
too. Loaders and chains of views are values as well, and have functions of their own.
-/

set_option autoImplicit false

namespace Mustache

inductive Param where
  | required (positionalOnly : Bool)
  | optional
  | variadic
  | keywordRequired
  | keywordOptional
  | keywordVariadic
  deriving DecidableEq, Repr

inductive ScopeField where
  | templateName
  | partialDepth
  | partialStack
  | maxPartialDepth
  deriving DecidableEq, Repr

mutual

inductive Value where
  | null
  | bool (b : Bool)
  | int (n : Int)
  | float (x : Binary64)
  | str (s : String)
  | bytes (content : Bytes)
  | list (items : List Value)
  | tuple (items : List Value)
  | map (entries : List (Value × Value))
  | object (serial : Nat) (attrs : List (String × Value)) (methods : List (String × Code))
      (text : String)
  | callable (f : Closure)
  | loader (loader : Loader)
  | chain (views : List Value)

/-- Where templates come from by name: the entries of a mapping, files, the answers of a function,
or the first of several that knows the name. -/
inductive Loader where
  | names (mapping : Value)
  | files (search : FileSearch)
  | function (f : Closure)
  | choice (members : List Value)

inductive Code where
  | mk (site : Nat) (params : List Param) (inspectable : Bool) (body : Expr)

/-- A function as a value. A written one comes with its code, the activation that made it, the
object that it belongs to, and the arguments of the call that made it. Others belong to bytes, to a
loader or to a chain of views, and one is what a section hands to its lambda. -/
inductive Closure where
  | written (code : Code) (serial : Nat) (owner : Option Value) (outer : List Value)
  | ofBytes (function : BytesFunction) (content : Bytes)
  | listNames (loader : Loader)
  | getSource (loader : Loader)
  | pushView (views : List Value)
  | lookUpName (views : List Value)
  | sectionRender

inductive Expr where
  | const (value : Value)
  | arg (index : Nat)
  | outerArg (index : Nat)
  | self (name : String)
  | entry (subject key : Expr)
  | concat (parts : List Expr)
  | count
  | render (text : Expr)
  | upper (text : Expr)
  | length (subject : Expr)
  | lambda (code : Code)
  | scope (field : ScopeField)
  | raise (text : String)

end

instance : Inhabited Value := ⟨.null⟩

namespace Code

def site : Code → Nat | mk site _ _ _ => site
def params : Code → List Param | mk _ params _ _ => params
def inspectable : Code → Bool | mk _ _ inspectable _ => inspectable
def body : Code → Expr | mk _ _ _ body => body

def requiredCount (code : Code) : Nat :=
  code.params.countP fun param => match param with | .required _ => true | _ => false

def optionalCount (code : Code) : Nat :=
  code.params.countP (· = .optional)

def bind? (code : Code) (args : List Value) : Option (List Value) :=
  if !code.inspectable then some args
  else
    let most := code.requiredCount + code.optionalCount
    if args.length < code.requiredCount then none
    else if code.params.contains .keywordRequired then none
    else if args.length > most && !code.params.contains .variadic then none
    -- Optional arguments that are not given have a default.
    else some (args ++ List.replicate (most - args.length) (.str "dflt"))

end Code

namespace Closure

def takesView : Closure → Bool
  | written code _ _ _ => code.inspectable && code.requiredCount == 1
  | ofBytes function _ => function.takesOne
  | listNames _ => false
  | getSource _ | pushView _ | lookUpName _ | sectionRender => true

def typeName : Closure → String
  -- The methods of an object share its serial number.
  | written _ serial (some (.object owner _ _ _)) _ =>
      if serial = owner then "method" else "function"
  | ofBytes _ _ => "builtin_function_or_method"
  | written _ _ _ _ | sectionRender => "function"
  | _ => "method"

end Closure

def Loader.typeName : Loader → String
  | names _ => "DictLoader"
  | files _ => "FileSystemLoader"
  | function _ => "FunctionLoader"
  | choice _ => "ChoiceLoader"

namespace Value

mutual

/-- Renews the identity of every function in a value. A function that is made anew owns new copies
of the functions among its constants. -/
def renew (serial : Nat) : Value → Value
  | list items => list (renewItems serial items)
  | tuple items => tuple (renewItems serial items)
  | map entries => map (renewEntries serial entries)
  | object _ attrs methods text => object serial (renewAttrs serial attrs) methods text
  | callable f => callable (renewFunction serial f)
  | loader (.names mapping) => loader (.names (renew serial mapping))
  | loader (.function f) => loader (.function (renewFunction serial f))
  | loader (.choice members) => loader (.choice (renewItems serial members))
  | chain views => chain (renewItems serial views)
  | value => value

def renewFunction (serial : Nat) : Closure → Closure
  | .written code _ owner outer => .written code serial owner outer
  | f => f

def renewItems (serial : Nat) : List Value → List Value
  | [] => []
  | item :: rest => renew serial item :: renewItems serial rest

def renewEntries (serial : Nat) : List (Value × Value) → List (Value × Value)
  | [] => []
  | (key, value) :: rest => (key, renew serial value) :: renewEntries serial rest

def renewAttrs (serial : Nat) : List (String × Value) → List (String × Value)
  | [] => []
  | (name, value) :: rest => (name, renew serial value) :: renewAttrs serial rest

end

def typeName : Value → String
  | null => "NoneType"
  | bool _ => "bool"
  | int _ => "int"
  | float _ => "float"
  | str _ => "str"
  | bytes _ => "bytes"
  | list _ => "list"
  | tuple _ => "tuple"
  | map _ => "dict"
  | object _ _ _ _ => "View"
  | callable f => f.typeName
  | loader source => source.typeName
  | chain _ => "Context"

def isScalar : Value → Bool
  | bool _ | int _ | float _ | str _ => true
  | _ => false

def items? : Value → Option (List Value)
  | list items | tuple items => some items
  | _ => none

def isFalsy : Value → Bool
  | null => true
  | bool b => !b
  | int n => n == 0
  | float .notANumber => true
  | float x => x.isZero
  | str s => s == ""
  -- Containers are never falsy.
  | _ => false

def wholeNumber? : Value → Option Int
  | bool b => some (if b then 1 else 0)
  | int n => some n
  | _ => none

def wholeKey? : Value → Option Int
  | float x => x.toInt?
  | value => value.wholeNumber?

mutual

def canBeKey : Value → Bool
  | list _ | map _ => false
  | tuple items => canBeKeys items
  | _ => true

def canBeKeys : List Value → Bool
  | [] => true
  | item :: rest => canBeKey item && canBeKeys rest

end

mutual

def equals : Value → Value → Bool
  | null, null => true
  | str s, str t => s == t
  | bytes s, bytes t => s == t
  | tuple s, tuple t => equalItems s t
  | list s, list t => equalItems s t
  | a, b =>
      match a.wholeKey?, b.wholeKey? with
      | some m, some n => m == n
      | none, none => match a, b with
          | float x, float y => x == y && x != .notANumber
          | _, _ => false
      | _, _ => false

def equalItems : List Value → List Value → Bool
  | [], [] => true
  | a :: s, b :: t => equals a b && equalItems s t
  | _, _ => false

end

instance : BEq Value := ⟨equals⟩

def valueAt? (key : Value) : List (Value × Value) → Option Value
  | [] => none
  | (k, v) :: rest => if equals k key then some v else valueAt? key rest

def putEntry (key value : Value) : List (Value × Value) → List (Value × Value)
  | [] => [(key, value)]
  | (k, v) :: rest =>
      if equals k key then (k, value) :: rest else (k, v) :: putEntry key value rest

def mapOf (entries : List (Value × Value)) : Value :=
  .map (entries.foldl (fun done entry => putEntry entry.1 entry.2 done) [])

def innermost (views : List Value) : Value :=
  views.headD null

def outerChain : List Value → Value
  | [] | [_] => null
  | _ :: outer => chain outer

def attribute? (name : String) : Value → Option Value
  | object serial attrs methods text =>
      match attrs.lookup name with
      | some value => some value
      -- A function among the methods of an object is bound to the object.
      | none => (methods.lookup name).map fun code =>
          callable (.written code serial (some (object serial attrs methods text)) [])
  | bytes content => (BytesFunction.named.lookup name).map fun function =>
      callable (.ofBytes function content)
  | loader (.function f) =>
      if name = "get_source" then some (callable (.getSource (.function f))) else none
  | loader source =>
      if name = "get_source" then some (callable (.getSource source))
      else if name = "list_templates" then some (callable (.listNames source))
      else none
  | chain views =>
      match name with
      | "view" => some (innermost views)
      | "parent" => some (outerChain views)
      | "push" => some (callable (.pushView views))
      | "lookup" => some (callable (.lookUpName views))
      | _ => none
  | _ => none

def iterate? : Value → Option (List Value)
  | list items | tuple items => some items
  | str s => some (s.toList.map fun c => .str (String.singleton c))
  | bytes content => some (content.map fun byte => .int byte.toNat)
  | map entries => some (entries.map (·.1))
  | _ => none

end Value

end Mustache
