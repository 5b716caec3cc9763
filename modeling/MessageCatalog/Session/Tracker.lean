/-
  MessageCatalog.Session.Tracker
  ────────────────────────────────
  **RECORDING WHAT WAS NOT FOUND.**

  A tracker keeps the pending messages of one namespace in the session that it
  was given.  Where no session is available it still records as long as the
  response is open, and leaves it to the session what it keeps.

  Recording is one load from the session followed by one store into it, and
  clearing likewise.  A session value of another shape is reported, and left as
  it is.
-/
import MessageCatalog.Catalog.Error
import MessageCatalog.Session.Pending
import MessageCatalog.Session.Store

namespace MessageCatalog

open MessageCatalog.Text

/-- The session key of the pending messages. -/
def newStringsKey : String := "newStrings"

/-- Records the pending messages of a namespace. -/
structure Tracker where
  /-- The namespace. -/
  ns : String
  /-- Whether a session is available, as the session itself says. -/
  hasSession : Bool
  /-- Whether the response has been sent. -/
  responseSent : Bool
  deriving DecidableEq, Repr

namespace Tracker

/-! ## §1. The session value. -/

/-- The pending messages that a session value holds, none if there is no value. -/
def decode : Option Json → Except CatalogError Pending
  | none => .ok .empty
  | some value =>
      match Pending.ofJson value with
      | some p => .ok p
      | none => .error .serialization

/-- The value that the session has for the tracker. -/
def load (t : Tracker) (s : SessionStore) : Option Json :=
  s.load t.ns newStringsKey

/-- The session after another value was stored for the tracker. -/
def store (t : Tracker) (s : SessionStore) (p : Pending) : SessionStore :=
  s.store t.ns newStringsKey p.toJson

/-! ## §2. Operations. -/

/-- Whether messages can be recorded now: always with a session, otherwise only
while the response is open. -/
def canRecord (t : Tracker) : Bool :=
  t.hasSession || !t.responseSent

/-- Whether an original is one that is recorded now. -/
def accepts (t : Tracker) (original : String) : Bool :=
  !isBlank original && t.canRecord

/-- The forms of a message. -/
def forms (original : String) (plural : Option String) : List String :=
  original :: plural.toList

/-- The session after a message of a language was not found.  A message already
pending keeps its place and takes the new forms. -/
def record (t : Tracker) (s : SessionStore) (lang original : String) (plural : Option String) :
    Except CatalogError SessionStore :=
  if t.accepts original then do
    let p ← decode (t.load s)
    .ok (t.store s (p.record lang original (forms original plural)))
  else .ok s

/-- The pending messages of a language. -/
def pending (t : Tracker) (s : SessionStore) (lang : String) :
    Except CatalogError PendingStrings := do
  let p ← decode (t.load s)
  .ok (p.forLanguage lang)

/-- The forms of a pending message. -/
def get (t : Tracker) (s : SessionStore) (lang original : String) :
    Except CatalogError (Option (List String)) := do
  let p ← t.pending s lang
  .ok (p.get? original)

/-- The session without the pending messages of a language. -/
def clear (t : Tracker) (s : SessionStore) (lang : String) : Except CatalogError SessionStore := do
  let p ← decode (t.load s)
  .ok (if p.contains lang then t.store s (p.clear lang) else s)

end Tracker

end MessageCatalog
