/-
  MessageCatalog.Session.Store
  ────────────────────────────────
  **WHAT A SESSION KEEPS.**

  A session keeps JSON values under a key in a namespace, from one request to
  the next.  Not every store does: one that has no session behind it may drop
  what it is given.  Whether it keeps it is part of the store, and storing does
  not tell.
-/
import MessageCatalog.OrderedMap
import MessageCatalog.Text.Json

namespace MessageCatalog

open MessageCatalog.Text

/-- The values of a session, each under its namespace and key. -/
structure SessionStore where
  values : OrderedMap (String × String) Json
  /-- Whether a value that is stored is kept. -/
  keeps : Bool

namespace SessionStore

/-- The session that has nothing yet, and keeps what is stored. -/
def empty : SessionStore :=
  ⟨.empty, true⟩

/-- The store without a session behind it: it has nothing, and keeps nothing. -/
def unbacked : SessionStore :=
  ⟨.empty, false⟩

instance : Inhabited SessionStore :=
  ⟨empty⟩

/-- The value under a key. -/
def load (s : SessionStore) (ns key : String) : Option Json :=
  s.values.get? (ns, key)

/-- The session after a value was stored under a key. -/
def store (s : SessionStore) (ns key : String) (value : Json) : SessionStore :=
  if s.keeps then { s with values := s.values.insert (ns, key) value } else s

/-- The session without a value under a key. -/
def remove (s : SessionStore) (ns key : String) : SessionStore :=
  { s with values := s.values.erase (ns, key) }

theorem store_of_not_keeps {s : SessionStore} (h : s.keeps = false) (ns key : String)
    (value : Json) : s.store ns key value = s := by
  unfold store
  rw [h]
  rfl

theorem keeps_store (s : SessionStore) (ns key : String) (value : Json) :
    (s.store ns key value).keeps = s.keeps := by
  unfold store
  split <;> rfl

theorem load_store (s : SessionStore) (ns key ns' key' : String) (value : Json) :
    (s.store ns key value).load ns' key'
      = if s.keeps ∧ (ns, key) = (ns', key') then some value else s.load ns' key' := by
  unfold store
  cases hkeeps : s.keeps with
  | false => simp
  | true =>
      simp only [if_true, true_and]
      exact OrderedMap.get?_insert s.values (ns, key) (ns', key') value

end SessionStore

end MessageCatalog
