/-
  MessageCatalog.Cache.Manager
  ────────────────────────────────
  **THE DICTIONARY OF A LANGUAGE IN THE CACHE.**

  A manager keeps one dictionary for each language, with the language in its
  key and in its only tag.
-/
import MessageCatalog.Cache.Store

namespace MessageCatalog

/-- Keeps the dictionaries of a namespace in a cache. -/
structure CacheManager where
  /-- The namespace. -/
  ns : String
  /-- The lifetime of a dictionary in seconds. -/
  expire : Nat
  deriving DecidableEq, Repr

namespace CacheManager

/-- The key and the tag of a language's dictionary. -/
def key (lang : String) : String :=
  "dictionary-" ++ lang

/-- The dictionary of a language, and the cache after it was read. -/
def get (m : CacheManager) (c : CacheStore) (fs : FileSystem) (now : Nat) (lang : String) :
    Option Dictionary × CacheStore :=
  c.read fs now m.ns (key lang)

/-- The cache with the dictionary of a language, made from the given files. -/
def put (m : CacheManager) (c : CacheStore) (fs : FileSystem) (now : Nat) (lang : String)
    (d : Dictionary) (files : List String) : CacheStore :=
  c.write fs now m.ns (key lang) d ⟨some m.expire, files, [key lang]⟩

/-- The cache without the dictionary of a language. -/
def invalidate (m : CacheManager) (c : CacheStore) (lang : String) : CacheStore :=
  c.clean m.ns [key lang]

end CacheManager

end MessageCatalog
