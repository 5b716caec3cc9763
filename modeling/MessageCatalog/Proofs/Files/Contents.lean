/-
  MessageCatalog.Proofs.Files.Contents
  ────────────────────────────────
  **WHAT A WRITE CHANGES.**

  Writing a file puts its bytes at one location of the tree and nothing else.  No
  directory comes or goes, so every path leads where it led before
  (`resolve_put_eq_ok_iff`), and what is read at a path changes only if the path leads
  to that location.
-/
import MessageCatalog.Files.FileSystem
import MessageCatalog.Proofs.Steps

namespace MessageCatalog.FileSystem

open MessageCatalog.Text

variable {fs : FileSystem} {path : String} {bytes : Bytes} {time : Int} {loc : Location}

/-! ## §1. Contents. -/

/-- The bytes of the file at a path, if there is one. -/
def content? (fs : FileSystem) (path : String) : Option Bytes :=
  match fs.lookup path with
  | .ok (.file bytes _) => some bytes
  | _ => none

theorem content?_eq_some_iff :
    fs.content? path = some bytes ↔ ∃ time, fs.lookup path = .ok (.file bytes time) := by
  unfold content?
  split
  next bytes' time h =>
    rw [h, Option.some.injEq]
    constructor
    · rintro rfl
      exact ⟨time, rfl⟩
    · rintro ⟨time', heq⟩
      cases heq
      rfl
  next h =>
    constructor
    · intro heq
      cases heq
    · rintro ⟨time, hlookup⟩
      exact absurd hlookup (h bytes time)

theorem isFile_eq : fs.isFile path = (fs.content? path).isSome := by
  unfold isFile content?
  cases fs.lookup path with
  | error fault => rfl
  | ok node => cases node <;> rfl

theorem read_of_content? (h : fs.content? path = some bytes) : fs.read path = .ok bytes := by
  obtain ⟨time, hlookup⟩ := content?_eq_some_iff.1 h
  unfold read
  rw [hlookup]
  rfl

/-- What is at a path: the node at the location that it leads to. -/
theorem lookup_eq_ok_iff {node : Node} :
    fs.lookup path = .ok node ↔ ∃ loc, fs.resolve path = .ok loc ∧ fs.node? loc = some node := by
  unfold lookup
  rw [bind_eq_ok_iff]
  refine exists_congr fun loc => and_congr_right fun _ => ?_
  split
  next node' h => rw [h, Except.ok.injEq, Option.some.injEq]
  next h => simp [h]

/-! ## §2. A file at a location. -/

/-- Outer locations are directories, so no other location is taken for one of them. -/
theorem isOuter_of_not_isDirectoryAt (h : fs.isDirectoryAt loc = false) : isOuter loc = false := by
  cases houter : isOuter loc with
  | false => rfl
  | true =>
      unfold isDirectoryAt node? at h
      rw [if_pos houter] at h
      exact absurd h (by decide)

theorem node?_put (h : isOuter loc = false) (node : Node) (l : Location) :
    (fs.put loc node).node? l = if loc = l then some node else fs.node? l := by
  have hget : (fs.put loc node).nodes.get? l
      = if loc = l then some node else fs.nodes.get? l := OrderedMap.get?_insert _ _ _ _
  unfold node?
  rw [hget]
  by_cases hl : loc = l
  · subst hl
    simp [h]
  · simp [hl]

section Put

variable (h : fs.isDirectoryAt loc = false) (bytes : Bytes) (time : Int)

include h

/-- A step leads where it led before the file was there. -/
theorem stepInto_put_eq_ok_iff {l next : Location} {part : List Char} :
    (fs.put loc (.file bytes time)).stepInto l part = .ok next
      ↔ fs.stepInto l part = .ok next := by
  unfold stepInto
  rw [node?_put (isOuter_of_not_isDirectoryAt h)]
  by_cases hl : loc = l
  · -- neither the file nor what was there before it can be entered
    subst hl
    rw [if_pos rfl]
    unfold isDirectoryAt at h
    cases hnode : fs.node? loc with
    | none => simp
    | some node =>
        cases node with
        | directory => rw [hnode] at h; exact absurd h (by decide)
        | file bytes' time' => simp
  · rw [if_neg hl]

theorem resolve_put_eq_ok_iff {path : String} {l : Location} :
    (fs.put loc (.file bytes time)).resolve path = .ok l ↔ fs.resolve path = .ok l := by
  have hwalk : ∀ (parts : List (List Char)) (start : Location),
      parts.foldlM (fs.put loc (.file bytes time)).stepInto start = .ok l
        ↔ parts.foldlM fs.stepInto start = .ok l :=
    fun parts start =>
      foldlM_eq_ok_iff_of_forall fun s part s' => stepInto_put_eq_ok_iff h bytes time
  unfold resolve
  simp only
  split
  · rfl
  split
  · rfl
  split
  · rfl
  split
  · exact hwalk _ _
  · exact hwalk _ _

/-- **The file is read through all paths that lead to it.** -/
theorem content?_put_of_resolve {path : String} (hpath : fs.resolve path = .ok loc) :
    (fs.put loc (.file bytes time)).content? path = some bytes := by
  rw [content?_eq_some_iff]
  refine ⟨time, lookup_eq_ok_iff.2 ⟨loc, (resolve_put_eq_ok_iff h bytes time).2 hpath, ?_⟩⟩
  rw [node?_put (isOuter_of_not_isDirectoryAt h), if_pos rfl]

/-- **Through all other paths what was read before is read again.** -/
theorem content?_put_of_not_resolve {path : String} (hpath : fs.resolve path ≠ .ok loc) :
    (fs.put loc (.file bytes time)).content? path = fs.content? path := by
  apply Option.ext
  intro bytes'
  rw [content?_eq_some_iff, content?_eq_some_iff]
  refine exists_congr fun time' => ?_
  rw [lookup_eq_ok_iff, lookup_eq_ok_iff]
  refine exists_congr fun l => ?_
  rw [resolve_put_eq_ok_iff h bytes time]
  refine and_congr_right fun hl => ?_
  have hne : loc ≠ l := by
    rintro rfl
    exact hpath hl
  rw [node?_put (isOuter_of_not_isDirectoryAt h), if_neg hne]

/-- A file that is dated with a time its location never had is told from what was there. -/
theorem content?_put_of_stamp?_eq (hnew : ∀ bytes', fs.node? loc ≠ some (.file bytes' time))
    {path : String} (hstamp : (fs.put loc (.file bytes time)).stamp? path = fs.stamp? path) :
    (fs.put loc (.file bytes time)).content? path = fs.content? path := by
  by_cases hpath : fs.resolve path = .ok loc
  · exfalso
    have hlookup : (fs.put loc (.file bytes time)).lookup path = .ok (.file bytes time) := by
      refine lookup_eq_ok_iff.2 ⟨loc, (resolve_put_eq_ok_iff h bytes time).2 hpath, ?_⟩
      rw [node?_put (isOuter_of_not_isDirectoryAt h), if_pos rfl]
    unfold stamp? at hstamp
    rw [hlookup] at hstamp
    cases hbefore : fs.lookup path with
    | error fault => rw [hbefore] at hstamp; cases hstamp
    | ok node =>
        obtain ⟨l, hl, hnode⟩ := lookup_eq_ok_iff.1 hbefore
        rw [hpath, Except.ok.injEq] at hl
        subst hl
        rw [hbefore] at hstamp
        cases node with
        | directory => cases hstamp
        | file bytes' time' =>
            cases hstamp
            exact hnew bytes' hnode
  · exact content?_put_of_not_resolve h bytes time hpath

end Put

/-! ## §3. Writing. -/

theorem write?_eq_some_iff {fs' : FileSystem} :
    fs.write? path bytes time = some fs'
      ↔ ∃ loc, fs.resolve path = .ok loc ∧ fs.isDirectoryAt loc = false
        ∧ fs.locked.contains loc = false ∧ fs' = fs.put loc (.file bytes time) := by
  unfold write?
  split
  next fault h => simp [h]
  next loc h =>
    rw [h]
    simp only [Except.ok.injEq]
    split
    next hrefused =>
      constructor
      · intro heq
        cases heq
      · rintro ⟨loc', rfl, hdir, hlocked, -⟩
        rw [hdir, hlocked] at hrefused
        exact absurd hrefused (by decide)
    next haccepted =>
      rw [Bool.not_eq_true, Bool.or_eq_false_iff] at haccepted
      rw [Option.some.injEq]
      constructor
      · rintro rfl
        exact ⟨loc, rfl, haccepted.1, haccepted.2, rfl⟩
      · rintro ⟨loc', rfl, -, -, rfl⟩
        rfl

theorem replace?_eq_some_iff {fs' : FileSystem} :
    fs.replace? path bytes time = some fs'
      ↔ fs.temporaryBytes path ≤ maxPathBytes ∧ fs.write? path bytes time = some fs' := by
  unfold replace?
  split
  next h => simp [Nat.not_le.2 h]
  next h => simp [Nat.not_lt.1 h]

/-- Two paths that never lead to one place. -/
def Apart (fs : FileSystem) (path other : String) : Prop :=
  ∀ loc, fs.resolve path = .ok loc → fs.resolve other ≠ .ok loc

/-- **What a file is replaced by is read back**, and all files apart from it stay as
they are. -/
theorem content?_of_replace? {fs' : FileSystem} (h : fs.replace? path bytes time = some fs') :
    fs'.content? path = some bytes
      ∧ (∀ other, fs.Apart path other → fs'.content? other = fs.content? other)
      ∧ ∀ other l, fs'.resolve other = .ok l ↔ fs.resolve other = .ok l := by
  obtain ⟨loc, hpath, hdir, -, rfl⟩ := write?_eq_some_iff.1 (replace?_eq_some_iff.1 h).2
  exact ⟨content?_put_of_resolve hdir bytes time hpath,
    fun other hapart => content?_put_of_not_resolve hdir bytes time (hapart loc hpath),
    fun other l => resolve_put_eq_ok_iff hdir bytes time⟩

end MessageCatalog.FileSystem
