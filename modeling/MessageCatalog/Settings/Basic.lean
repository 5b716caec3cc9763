/-
  MessageCatalog.Settings.Basic
  ────────────────────────────────
  **SETTINGS.**

  Settings say which sources a translator has, which language it starts with,
  and how it caches and logs.  Every one of them has a usual value.  Settings
  can be read although they make no sense, and are looked through afterwards;
  the first thing wrong is what is reported.
-/
import MessageCatalog.Text.Blank
import MessageCatalog.Translator.Basic

namespace MessageCatalog

open MessageCatalog.Text

/-! ## §1. Settings. -/

/-- What is logged, and how. -/
structure LogSettings where
  /-- The filter that records have to pass. -/
  level : String := "gettext_catalog=info,gettext_tool=info"
  /-- Whether a record is written as JSON. -/
  json : Bool := false
  deriving DecidableEq, Repr

/-- The settings of a translator and of the program around it. -/
structure Settings where
  lang : String := "en"
  /-- The directories of the sources under their identifiers. -/
  sources : OrderedMap String String := .empty
  productionMode : Bool := false
  ns : String := Translator.defaultNamespace
  /-- How many seconds a cached dictionary lasts. -/
  expireSeconds : Nat := Translator.defaultExpire
  log : LogSettings := {}
  deriving DecidableEq

/-! ## §2. What settings must not be. -/

/-- What makes settings senseless. -/
inductive Violation where
  | blankLanguage
  | blankNamespace
  | blankIdentifier (identifier : String)
  | zeroExpiry
  deriving DecidableEq, Repr

/-- The setting that is wrong. -/
def Violation.field : Violation → String
  | .blankLanguage => "lang"
  | .blankNamespace => "namespace"
  | .blankIdentifier _ => "files"
  | .zeroExpiry => "cache.expire_seconds"

/-- What is wrong with it. -/
def Violation.message : Violation → String
  | .blankLanguage => "language cannot be empty"
  | .blankNamespace => "namespace cannot be empty"
  | .blankIdentifier identifier => "file identifier '" ++ identifier ++ "' cannot be blank"
  | .zeroExpiry => "cache expiry must be positive"

/-- The first thing that is wrong with settings. -/
def Settings.violation? (s : Settings) : Option Violation :=
  if isBlank s.lang then some .blankLanguage
  else if isBlank s.ns then some .blankNamespace
  else
    match s.sources.keys.find? isBlank with
    | some identifier => some (.blankIdentifier identifier)
    | none => if s.expireSeconds = 0 then some .zeroExpiry else none

example : Settings.violation? {} = none := by decide
example : Settings.violation? { lang := " ", ns := "" } = some .blankLanguage := by decide

/-- Nothing is wrong with settings exactly if no name in them is blank and the
lifetime is positive. -/
theorem Settings.violation?_eq_none_iff {s : Settings} :
    s.violation? = none ↔
      isBlank s.lang = false ∧ isBlank s.ns = false
        ∧ (∀ identifier ∈ s.sources.keys, isBlank identifier = false) ∧ 0 < s.expireSeconds := by
  unfold Settings.violation?
  cases hl : isBlank s.lang <;> cases hn : isBlank s.ns <;>
    simp only [Bool.false_eq_true, if_true, if_false, reduceCtorEq, false_and, and_false, true_and]
  cases hf : s.sources.keys.find? isBlank with
  | some identifier =>
      have hp := List.find?_some hf
      have hm := List.mem_of_find?_eq_some hf
      simp only [reduceCtorEq, false_iff]
      exact fun h => by simp [h.1 identifier hm] at hp
  | none =>
      have ha : ∀ identifier ∈ s.sources.keys, isBlank identifier = false := by
        simpa using List.find?_eq_none.1 hf
      by_cases he : s.expireSeconds = 0
      · simp [he]
      · simp [he, Nat.pos_of_ne_zero he]
        exact ha

end MessageCatalog
