import Mustache.Partial

set_option autoImplicit false

namespace Mustache

namespace Delimiters

def refuse (value : Value) : Fault :=
  match value.literal with
  | .ok shown => .invalidTags shown
  | .error fault => .host fault

/-- The pair that a value stands for: a text of two words, or a sequence of two non-empty texts.
Null is the standard pair. -/
def ofValue : Value → Except Fault Delimiters
  | .null => .ok standard
  | .str text =>
      match ofText text.toList with
      | .ok pair => .ok pair
      | .error words => .error (.invalidTags (showWords words))
  | value =>
      match value.items? with
      | some [.str opening, .str closing] =>
          match ofPair? opening.toList closing.toList with
          | some pair => .ok pair
          | none => .error (refuse value)
      | _ => .error (refuse value)

end Delimiters

def parseSource (source : String) (tags : Value) (name : Option String := none) :
    Except Fault (List Node) :=
  -- The empty source has no nodes whatever the value is.
  if source = "" then .ok []
  else match Delimiters.ofValue tags with
    | .error fault => .error fault
    | .ok pair => parseTemplate source pair name

/-- A parsed template: its nodes, or what a cache of the host answered in place of them. -/
inductive Tree where
  | parsed (nodes : List Node)
  | foreign (answer : Value)

def Tree.nodes : Tree → Except HostFault (List Node)
  | parsed nodes => .ok nodes
  -- An answer of the host holds no nodes, so it has to be empty.
  | foreign answer =>
      match answer.iterate? with
      | none => .error .wrongType
      | some [] => .ok []
      | some _ => .error .noAttribute

/-- Where an engine keeps parsed templates: in a slot that keeps the first tree of a key, in one
that a cache of another kind works on, or in an object of the host. Slots may be shared. -/
inductive CacheHandle where
  | nothing
  | keepFirst (slot : Nat)
  | custom (cache : CustomCache) (slot : Nat)
  | host (value : Value)

namespace CacheHandle

def keepLast (slot : Nat) : CacheHandle :=
  custom .keepLast slot

def ofValue (value : Value) : Except Fault CacheHandle :=
  let serves := ["get", "set", "clear"].all fun name =>
    match value.attribute? name with
    | some (.callable _) => true
    | _ => false
  match value with
  | .null => .ok nothing
  | _ => if serves then .ok (host value) else .error (.invalidCache value.typeName)

def typeName : CacheHandle → String
  | nothing => "NullCache"
  | keepFirst _ => "TemplateCache"
  | custom cache _ => cache.typeName
  | host value => value.typeName

def find (key : String) : CacheHandle → Action (Option Tree)
  | nothing => pure none
  | keepFirst slot => do
      let session ← get
      let (tree, cache) := (session.cache slot).find key
      set (session.setCache slot cache)
      pure (tree.map .parsed)
  | custom cache slot => do
      let session ← get
      let (tree, cache) := cache.find (session.cache slot) key
      set (session.setCache slot cache)
      pure (tree.map .parsed)
  | host value => do
      match ← callAttribute Closure.call value "get" [.str key] with
      | .null => pure none
      | answer => pure (some (.foreign answer))

def hostNode (node : Node) : Value :=
  .object 0 [] [] node.token.describe

def insert (key : String) (tree : List Node) : CacheHandle → Action Unit
  | nothing => pure ()
  | keepFirst slot =>
      modify fun session => session.setCache slot ((session.cache slot).insert key tree)
  | custom cache slot =>
      modify fun session =>
        session.setCache slot (cache.insert (session.cache slot) key tree)
  | host value => do
      let _ ← callAttribute Closure.call value "set" [.str key, .tuple (tree.map hostNode)]

def clear : CacheHandle → Action Unit
  | nothing => pure ()
  | keepFirst slot => modify fun session => session.setCache slot {}
  | custom cache slot =>
      modify fun session => session.setCache slot (cache.clear (session.cache slot))
  | host value => do
      let _ ← callAttribute Closure.call value "clear" []

def size? (session : Session) : CacheHandle → Option Nat
  | nothing => some 0
  | keepFirst slot => some (session.cache slot).size
  | custom _ _ | host _ => none

def info : CacheHandle → Action Value
  | nothing => pure (counts {})
  | keepFirst slot => do pure (counts ((← get).cache slot))
  | custom _ _ => pure (.map [])
  | host value =>
      match value.attribute? "info" with
      | none | some .null => pure (.map [])
      | some _ => callAttribute Closure.call value "info" []
where
  counts (cache : TreeCache) : Value :=
    .map [(.str "size", .int cache.size), (.str "hits", .int cache.hits),
      (.str "misses", .int cache.misses)]

end CacheHandle

structure Engine where
  pair : Delimiters := .standard
  escaper : Escaper := .html
  cache : CacheHandle
  loader : Value := .null
  maxPartialDepth : Option Int := none

namespace Engine

def withTags (engine : Engine) (tags : Value) : Except Fault Engine :=
  (Delimiters.ofValue tags).map fun pair => { engine with pair }

def pairFor (engine : Engine) (tags : Value) : Except Fault Delimiters :=
  match tags with
  | .null => .ok engine.pair
  | tags => Delimiters.ofValue tags

def parse (engine : Engine) (source : String) (pair : Delimiters) (name : Option String := none) :
    Action Tree := do
  let key := pair.cacheKey source
  match ← engine.cache.find key with
  | some tree => do
      Action.record (.treeFound name source pair)
      pure tree
  | none => do
      Action.record (.treeMissing name source pair)
      let nodes ← Action.ofExcept (parseTemplate source pair name)
      engine.cache.insert key nodes
      pure (.parsed nodes)

def partialsFor (engine : Engine) (partials : Value) : Value :=
  match partials with
  | .null => engine.loader
  | partials => partials

def describe (engine : Engine) : String :=
  let (opening, closing) := engine.pair.toStrings
  s!"<Environment tags=({quoted opening}, {quoted closing}) cache={engine.cache.typeName}>"

end Engine

end Mustache
