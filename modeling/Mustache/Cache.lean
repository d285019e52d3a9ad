import Mustache.Tree

set_option autoImplicit false

namespace Mustache

def cacheKey (source : String) (tags : List String) : String :=
  source ++ ":" ++ String.intercalate ":" tags

def Delimiters.cacheKey (pair : Delimiters) (source : String) : String :=
  Mustache.cacheKey source [pair.toStrings.1, pair.toStrings.2]

/-- Trees by key, newest first, and how often one was asked for with and without success. -/
structure TreeCache where
  entries : List (String × List Node) := []
  hits : Nat := 0
  misses : Nat := 0

namespace TreeCache

def find (cache : TreeCache) (key : String) : Option (List Node) × TreeCache :=
  match cache.entries.lookup key with
  | some tree => (some tree, { cache with hits := cache.hits + 1 })
  | none => (none, { cache with misses := cache.misses + 1 })

def contains (cache : TreeCache) (key : String) : Bool :=
  (cache.entries.lookup key).isSome

def insert (cache : TreeCache) (key : String) (tree : List Node) : TreeCache :=
  if cache.contains key then cache
  else { cache with entries := (key, tree) :: cache.entries }

def replace (cache : TreeCache) (key : String) (tree : List Node) : TreeCache :=
  { cache with
    entries := (key, tree) :: cache.entries.filter fun entry => entry.1 ≠ key }

def size (cache : TreeCache) : Nat := cache.entries.length

end TreeCache

/-- A cache of another kind: how it finds and keeps a tree, and how it is cleared. A lookup may
change what it holds. -/
structure CustomCache where
  typeName : String
  find : TreeCache → String → Option (List Node) × TreeCache
  insert : TreeCache → String → List Node → TreeCache
  clear : TreeCache → TreeCache

def CustomCache.keepLast : CustomCache where
  typeName := "DictCache"
  find cache key := (cache.entries.lookup key, cache)
  insert := TreeCache.replace
  clear _ := {}

end Mustache
