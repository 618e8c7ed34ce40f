import Syntagm.Compiled.Basic

/-!
# A cache of compiled grammars

The cache finds a compiled grammar by the fingerprint of its grammar.  Grammars that share a
fingerprint share a bucket, and within it only an equal grammar counts, so the cache behaves
like a map with grammars as keys, whatever the fingerprint is; it is a parameter here.

Looking up and adding are separate steps (`lookup?`, `add`): grammars are compiled between
them, and adding looks once more, so a grammar that was added meanwhile is kept.  Every entry
has a number that tells it from all others, even from an earlier one for the same grammar.
-/

namespace Syntagm

/-- A compiled grammar and the number of its entry. -/
structure CacheEntry where
  number : Nat
  compiled : CompiledGrammar
  deriving Inhabited

/-- Compiled grammars in buckets, one for each fingerprint in use. -/
structure GrammarCache where
  buckets : List (UInt64 × List CacheEntry)
  /-- The number of the next entry. -/
  next : Nat
  deriving Inhabited

namespace GrammarCache

def empty : GrammarCache := ⟨[], 0⟩

/-- The bucket of a fingerprint. -/
def bucket (cache : GrammarCache) (key : UInt64) : List CacheEntry :=
  (cache.buckets.lookup key).getD []

/-- The cache with another bucket for a fingerprint.  Empty buckets are not kept. -/
def setBucket (cache : GrammarCache) (key : UInt64) (entries : List CacheEntry) : GrammarCache :=
  let others := cache.buckets.filter (·.1 != key)
  { cache with buckets := if entries.isEmpty then others else (key, entries) :: others }

/-- The number of entries. -/
def size (cache : GrammarCache) : Nat := (cache.buckets.flatMap (·.2)).length

def isEmpty (cache : GrammarCache) : Bool := cache.buckets.isEmpty

/-- Removes all entries. -/
def clear (cache : GrammarCache) : GrammarCache := { cache with buckets := [] }

variable (fingerprint : Grammar → UInt64)

/-- The entry of a grammar. -/
def lookup? (cache : GrammarCache) (grammar : Grammar) : Option CacheEntry :=
  (cache.bucket (fingerprint grammar)).find? (·.compiled.grammar == grammar)

/-- Adds a compiled grammar, unless an equal one is there.  Also returns the entry that is
there afterwards. -/
def add (cache : GrammarCache) (compiled : CompiledGrammar) : CacheEntry × GrammarCache :=
  match cache.lookup? fingerprint compiled.grammar with
  | some entry => (entry, cache)
  | none =>
    let key := fingerprint compiled.grammar
    let entry : CacheEntry := ⟨cache.next, compiled⟩
    let cache := cache.setBucket key (cache.bucket key ++ [entry])
    (entry, { cache with next := cache.next + 1 })

/-- The entry of a grammar, which is compiled if there is none. -/
def getOrCompile (cache : GrammarCache) (grammar : Grammar) :
    Except GrammarError CacheEntry × GrammarCache :=
  match cache.lookup? fingerprint grammar with
  | some entry => (.ok entry, cache)
  | none =>
    match grammar.compile with
    | .ok compiled =>
      let (entry, cache) := cache.add fingerprint compiled
      (.ok entry, cache)
    | .error error => (.error error, cache)

/-- Removes the entry of a grammar.  Also returns whether there was one. -/
def invalidate (cache : GrammarCache) (grammar : Grammar) : Bool × GrammarCache :=
  let key := fingerprint grammar
  let old := cache.bucket key
  let kept := old.filter (·.compiled.grammar != grammar)
  (kept.length < old.length, cache.setBucket key kept)

end GrammarCache

end Syntagm
