/-
  MessageCatalog.Cache.Store
  ────────────────────────────────
  **DICTIONARIES THAT ARE KEPT FOR LATER.**

  A cache keeps dictionaries under a key in a namespace.  A dictionary is kept
  with the conditions under which it is still good: a lifetime, and stamps of
  files, an absent file being one without a stamp.  It is looked at when it is
  read: one that is no longer good is dropped.  Tags allow several dictionaries
  to be dropped at once.

  Reading takes two steps, each of which is atomic: dropping a stale dictionary,
  and getting what is there.
-/
import MessageCatalog.Catalog.Dictionary
import MessageCatalog.Files.FileSystem

namespace MessageCatalog

/-! ## §1. Kept dictionaries. -/

/-- What ends the life of a kept dictionary. -/
structure CacheDependencies where
  /-- Its lifetime in seconds; without one it lives on. -/
  expire : Option Nat
  /-- Files whose change it does not survive. -/
  files : List String
  /-- The tags by which it can be dropped. -/
  tags : List String
  deriving DecidableEq, Repr

/-- A kept dictionary. -/
structure CachedDictionary where
  dictionary : Dictionary
  /-- The second in which it was written. -/
  cachedAt : Nat
  expire : Option Nat
  /-- Files, and what was to be seen of them when it was written. -/
  files : List (String × Option Stamp)
  tags : List String
  deriving DecidableEq

namespace CachedDictionary

/-- Whether its lifetime is over. -/
def isExpired (c : CachedDictionary) (now : Nat) : Bool :=
  match c.expire with
  | some seconds => seconds ≤ now - c.cachedAt
  | none => false

/-- Whether all its files are as they were. -/
def isUnchanged (c : CachedDictionary) (fs : FileSystem) : Bool :=
  c.files.all fun (path, stamp) => fs.stamp? path == stamp

/-- Whether it is still good. -/
def isValid (c : CachedDictionary) (fs : FileSystem) (now : Nat) : Bool :=
  !c.isExpired now && c.isUnchanged fs

end CachedDictionary

/-! ## §2. The cache. -/

/-- The kept dictionaries, each under its namespace and key. -/
structure CacheStore where
  entries : OrderedMap (String × String) CachedDictionary
  deriving DecidableEq

namespace CacheStore

/-- The cache that keeps nothing. -/
def empty : CacheStore :=
  ⟨.empty⟩

instance : Inhabited CacheStore :=
  ⟨empty⟩

/-- The number of kept dictionaries, good or not. -/
def size (c : CacheStore) : Nat :=
  c.entries.size

/-- Whether nothing is kept. -/
def isEmpty (c : CacheStore) : Bool :=
  c.entries.isEmpty

/-- Whether the dictionary under a key is there and no longer good. -/
def isStale (c : CacheStore) (fs : FileSystem) (now : Nat) (ns key : String) : Bool :=
  match c.entries.get? (ns, key) with
  | some cached => !cached.isValid fs now
  | none => false

/-- The first step of reading: a stale dictionary is dropped.  Tells whether there
was one. -/
def dropStale (c : CacheStore) (fs : FileSystem) (now : Nat) (ns key : String) :
    Bool × CacheStore :=
  if c.isStale fs now ns key then (true, ⟨c.entries.erase (ns, key)⟩) else (false, c)

/-- The second step of reading: what is under the key. -/
def current (c : CacheStore) (ns key : String) : Option Dictionary :=
  (c.entries.get? (ns, key)).map CachedDictionary.dictionary

/-- The good dictionary under a key, and the cache without a stale one. -/
def read (c : CacheStore) (fs : FileSystem) (now : Nat) (ns key : String) :
    Option Dictionary × CacheStore :=
  match c.dropStale fs now ns key with
  | (true, c) => (none, c)
  | (false, c) => (c.current ns key, c)

/-- The cache with a dictionary under a key. -/
def write (c : CacheStore) (fs : FileSystem) (now : Nat) (ns key : String) (d : Dictionary)
    (deps : CacheDependencies) : CacheStore :=
  ⟨c.entries.insert (ns, key)
    { dictionary := d
      cachedAt := now
      expire := deps.expire
      files := deps.files.map fun path => (path, fs.stamp? path)
      tags := deps.tags }⟩

/-- The cache without the dictionaries of a namespace that have one of the tags. -/
def clean (c : CacheStore) (ns : String) (tags : List String) : CacheStore :=
  ⟨c.entries.filter fun key cached => key.1 != ns || !cached.tags.any tags.contains⟩

end CacheStore

end MessageCatalog
