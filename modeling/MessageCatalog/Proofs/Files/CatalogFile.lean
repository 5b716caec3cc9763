/-
  MessageCatalog.Proofs.Files.CatalogFile
  ────────────────────────────────
  **EVERY SOURCE HAS A FILE OF ITS OWN.**

  A path to a file in a directory leads to a location whose last name is the name of
  the file, whatever the directory is called (`exists_of_resolve_join`).  The names of
  catalogs differ from source to source, and a text form is called like no catalog;
  so, as long as no identifier and no language has a slash in it, all these files are
  apart from each other.  The two files of one source are apart in any case: they stand
  in one directory (`apart_of_siblings`), wherever that is.
-/
import MessageCatalog.Proofs.Files.Contents
import MessageCatalog.Proofs.Text.Search

namespace MessageCatalog

open MessageCatalog.Text

/-! ## §1. A name in a directory. -/

namespace Path

/-- A name of a file: not empty, without a slash, and none of the two names made of
dots that stand for directories. -/
structure IsName (name : List Char) : Prop where
  no_slash : '/' ∉ name
  ne_nil : name ≠ []
  ne_dot : name ≠ ['.']
  ne_up : name ≠ FileSystem.up

/-- The names made of dots have at most two of them. -/
theorem isName_of_length {name : List Char} (h : '/' ∉ name) (hlen : 2 < name.length) :
    IsName name := by
  refine ⟨h, ?_, ?_, ?_⟩ <;>
  · rintro rfl
    simp [FileSystem.up] at hlen

/-- What stands in front of the names in a directory. -/
def front (dir : String) : List Char :=
  if dir.isEmpty then []
  else if dir.toList.getLast? = some '/' then dir.toList
  else dir.toList ++ ['/']

/-- Nothing, or a text that ends in a slash. -/
theorem front_eq (dir : String) : front dir = [] ∨ ∃ rest, front dir = rest ++ ['/'] := by
  unfold front
  split
  · exact Or.inl rfl
  split
  next h => exact Or.inr (List.getLast?_eq_some_iff.1 h)
  next => exact Or.inr ⟨dir.toList, rfl⟩

theorem isAbsolute_eq_false {name : List Char} (h : '/' ∉ name) : isAbsolute name = false := by
  unfold isAbsolute
  cases name with
  | nil => rfl
  | cons c cs =>
      have hc : c ≠ '/' := by
        rintro rfl
        exact h List.mem_cons_self
      simpa using hc

theorem toList_join (dir : String) {name : String} (h : '/' ∉ name.toList) :
    (join dir name).toList = front dir ++ name.toList := by
  unfold join front
  rw [isAbsolute_eq_false h, Bool.false_or]
  split
  · rfl
  split
  · exact String.toList_append
  · rw [String.toList_append, String.toList_append]
    rfl

theorem isAbsolute_front_append (dir : String) {name : List Char} (h : '/' ∉ name) :
    isAbsolute (front dir ++ name) = isAbsolute (front dir) := by
  cases front dir with
  | nil => exact isAbsolute_eq_false h
  | cons c cs => rfl

/-- However a path is joined, it ends as it did. -/
theorem exists_toList_join (dir path : String) :
    ∃ before, (join dir path).toList = before ++ path.toList := by
  unfold join
  split
  · exact ⟨[], rfl⟩
  split
  · exact ⟨dir.toList, String.toList_append⟩
  · exact ⟨(dir ++ "/").toList, String.toList_append⟩

/-- The parts of a path to a name: those of its directory, and the name. -/
theorem parts_front_append (dir : String) {name : List Char} (h : '/' ∉ name) :
    parts (front dir ++ name) = (parts (front dir)).dropLast ++ [name] := by
  have hname : pieces (· == '/') name = [name] := by
    apply pieces_eq_singleton
    intro c hc
    have hne : c ≠ '/' := by
      rintro rfl
      exact h hc
    simpa using hne
  unfold parts
  rcases front_eq dir with hfront | ⟨rest, hfront⟩
  · rw [hfront]
    exact hname
  · rw [hfront, List.append_assoc]
    show pieces (· == '/') (rest ++ '/' :: name) = _
    rw [pieces_append_sep (by decide), pieces_append_sep (by decide), hname]
    show _ = (pieces (· == '/') rest ++ [[]]).dropLast ++ [name]
    rw [List.dropLast_concat]

/-- In front of the names in an absolute directory there is the empty part before the slash. -/
theorem dropLast_parts_front_ne_nil {dir : String} (h : isAbsolute (front dir) = true) :
    (parts (front dir)).dropLast ≠ [] := by
  rcases front_eq dir with hfront | ⟨rest, hfront⟩
  · rw [hfront] at h
    cases h
  · have hparts : parts (rest ++ '/' :: []) = pieces (· == '/') rest ++ [[]] :=
      pieces_append_sep (by decide) rest []
    rw [hfront, hparts, List.dropLast_concat]
    exact pieces_ne_nil _ _

end Path

/-! ## §2. Where such a path leads. -/

namespace FileSystem

variable {fs : FileSystem} {dir name : String} {loc : Location}

theorem eq_append_of_stepInto {l next : Location} {part : List Char} (hpart : Path.IsName part)
    (h : fs.stepInto l part = .ok next) : next = l ++ [part] := by
  unfold stepInto at h
  split at h
  next => cases h
  next => cases h
  next =>
    rw [if_neg (by simp [hpart.ne_nil, hpart.ne_dot]), if_neg hpart.ne_up] at h
    split at h
    next => cases h
    next =>
      cases h
      rfl

/-- The location in which the names in a directory are looked up. -/
def enter (fs : FileSystem) (dir : String) : Except FileFault Location :=
  let above := (Path.parts (Path.front dir)).dropLast
  if Path.isAbsolute (Path.front dir) then (above.drop 1).foldlM fs.stepInto [['/']]
  else above.foldlM fs.stepInto []

/-- A path to a name: the way to its directory, which is the same for all names in it, and one
step more. -/
theorem exists_enter_of_resolve_join (hslash : '/' ∉ name.toList)
    (h : fs.resolve (Path.join dir name) = .ok loc) :
    ∃ l, fs.enter dir = .ok l ∧ fs.stepInto l name.toList = .ok loc := by
  -- from wherever the walk starts, its last step is the one to the name
  have hwalk : ∀ (parts : List (List Char)) (start : Location),
      (parts ++ [name.toList]).foldlM fs.stepInto start = .ok loc →
        ∃ l, parts.foldlM fs.stepInto start = .ok l ∧ fs.stepInto l name.toList = .ok loc := by
    intro parts start hfold
    rw [List.foldlM_append, bind_eq_ok_iff] at hfold
    obtain ⟨l, hl, hlast⟩ := hfold
    rw [List.foldlM_cons, bind_eq_ok_iff] at hlast
    obtain ⟨next, hstep, hend⟩ := hlast
    cases hend
    exact ⟨l, hl, hstep⟩
  unfold resolve at h
  simp only [Path.toList_join dir hslash, Path.isAbsolute_front_append dir hslash,
    Path.parts_front_append dir hslash] at h
  split at h
  · cases h
  split at h
  · cases h
  split at h
  · cases h
  unfold enter
  simp only
  split at h
  next hab =>
    have hpos := List.length_pos_iff.2 (Path.dropLast_parts_front_ne_nil hab)
    rw [List.drop_append_of_le_length hpos] at h
    rw [if_pos hab]
    exact hwalk _ _ h
  next hab =>
    rw [if_neg hab]
    exact hwalk _ _ h

/-- A path to a name leads to a location with this name at its end. -/
theorem exists_of_resolve_join (hname : Path.IsName name.toList)
    (h : fs.resolve (Path.join dir name) = .ok loc) : ∃ above, loc = above ++ [name.toList] := by
  obtain ⟨l, -, hstep⟩ := exists_enter_of_resolve_join hname.no_slash h
  exact ⟨l, eq_append_of_stepInto hname hstep⟩

/-- Paths to different names are apart, in whichever directories. -/
theorem apart_of_ne {dir' name' : String} (hname : Path.IsName name.toList)
    (hname' : Path.IsName name'.toList) (hne : name ≠ name') :
    fs.Apart (Path.join dir name) (Path.join dir' name') := by
  intro loc h h'
  obtain ⟨above, rfl⟩ := exists_of_resolve_join hname h
  obtain ⟨above', heq⟩ := exists_of_resolve_join hname' h'
  have hlast : name.toList = name'.toList := by
    have := congrArg List.getLast? heq
    simpa using this
  exact hne (String.toList_injective hlast)

/-- No other part, not even one made of dots, leads to where a name leads. -/
theorem ne_append_of_stepInto {l next : Location} {part other : List Char}
    (hother : Path.IsName other) (hne : part ≠ other) (h : fs.stepInto l part = .ok next) :
    next ≠ l ++ [other] := by
  have hlonger : l ≠ l ++ [other] := by simp
  unfold stepInto at h
  split at h
  next => cases h
  next => cases h
  next =>
    split at h
    next =>
      cases h
      exact hlonger
    split at h
    next =>
      cases h
      unfold above
      split
      next => exact hlonger
      split
      next =>
        intro heq
        exact hother.ne_up (List.singleton_inj.1 (List.append_cancel_left heq)).symm
      next =>
        intro heq
        have hlen := congrArg List.length heq
        rw [List.length_dropLast, List.length_append, List.length_singleton] at hlen
        omega
    split at h
    next => cases h
    next =>
      cases h
      intro heq
      exact hne (List.singleton_inj.1 (List.append_cancel_left heq))

/-- In one directory a name is apart from everything else that can stand in its place. -/
theorem apart_of_siblings {name' : String} (hname : Path.IsName name.toList)
    (hslash : '/' ∉ name'.toList) (hne : name ≠ name') :
    fs.Apart (Path.join dir name) (Path.join dir name') := by
  intro loc h h'
  obtain ⟨l, hl, hstep⟩ := exists_enter_of_resolve_join hname.no_slash h
  obtain ⟨l', hl', hstep'⟩ := exists_enter_of_resolve_join hslash h'
  rw [hl, Except.ok.injEq] at hl'
  subst hl'
  exact ne_append_of_stepInto hname (fun heq => hne (String.toList_injective heq.symm)) hstep'
    (eq_append_of_stepInto hname hstep)

end FileSystem

/-! ## §3. The text form of a catalog. -/

namespace Path

/-- The last of some parts that lead somewhere. -/
theorem getLast?_named (above : List (List Char)) {name : List Char} (hne : name ≠ [])
    (hdot : name ≠ ['.']) :
    ((above ++ [name]).filter fun part => !part.isEmpty && part != ['.']).getLast?
      = some name := by
  have hkept : (!name.isEmpty && name != ['.']) = true := by
    simp [hne, hdot]
  have hfilter : [name].filter (fun part => !part.isEmpty && part != ['.']) = [name] :=
    List.filter_cons_of_pos (p := fun part => !part.isEmpty && part != ['.']) hkept
  rw [List.filter_append, hfilter, List.getLast?_concat]

theorem fileName?_front_append (dir : String) {name : List Char} (h : IsName name) :
    fileName? (front dir ++ name) = some name := by
  unfold fileName?
  rw [parts_front_append dir h.no_slash]
  simp only [getLast?_named _ h.ne_nil h.ne_dot]
  exact if_neg h.ne_up

theorem fileName?_front_append_up (dir : String) :
    fileName? (front dir ++ FileSystem.up) = none := by
  unfold fileName?
  rw [parts_front_append dir (show '/' ∉ FileSystem.up by decide)]
  simp only [getLast?_named _ (show FileSystem.up ≠ [] by decide)
    (show FileSystem.up ≠ ['.'] by decide)]
  exact if_pos rfl

/-- A name is split at its last dot. -/
theorem splitName_append {stem extension : List Char} (hstem : stem ≠ [])
    (hextension : '.' ∉ extension) :
    splitName (stem ++ '.' :: extension) = (stem, some extension) := by
  have hafter : ((stem ++ '.' :: extension).reverse.takeWhile (· != '.')).reverse = extension := by
    have hall : ∀ c ∈ extension.reverse, (c != '.') = true := by
      intro c hc
      have hne : c ≠ '.' := by
        rintro rfl
        exact hextension (List.mem_reverse.1 hc)
      simpa using hne
    rw [List.reverse_append, List.reverse_cons, List.append_assoc, List.takeWhile_append_of_pos hall]
    simp
  have hbefore : (stem ++ '.' :: extension).take
      ((stem ++ '.' :: extension).length - extension.length - 1) = stem := by
    have hlen : (stem ++ '.' :: extension).length - extension.length - 1 = stem.length := by
      rw [List.length_append, List.length_cons]
      omega
    rw [hlen, List.take_left]
  unfold splitName
  simp only [hafter, hbefore]
  rw [if_neg]
  rw [List.length_append, List.length_cons]
  simp only [List.isEmpty_iff, Bool.or_eq_true, decide_eq_true_eq, hstem, or_false]
  omega

/-- A name with the extension of a catalog. -/
theorem isName_append_mo {stem : List Char} (hslash : '/' ∉ stem) :
    IsName (stem ++ ['.', 'm', 'o']) := by
  apply isName_of_length (by simp [hslash])
  rw [List.length_append]
  exact Nat.lt_add_left _ (by decide)

/-- Without its extension the name of a catalog still ends in the dot. -/
theorem take_extension (dir : String) {stem : List Char} (hslash : '/' ∉ stem) (hne : stem ≠ []) :
    (front dir ++ (stem ++ ['.', 'm', 'o'])).take
        ((front dir ++ (stem ++ ['.', 'm', 'o'])).length
          - ((extension? (front dir ++ (stem ++ ['.', 'm', 'o']))).getD []).length)
      = front dir ++ (stem ++ ['.']) := by
  have hextension : extension? (front dir ++ (stem ++ ['.', 'm', 'o'])) = some ['m', 'o'] := by
    unfold extension?
    rw [fileName?_front_append dir (isName_append_mo hslash), Option.bind_some,
      splitName_append hne (show '.' ∉ ['m', 'o'] by decide)]
  have happend : front dir ++ (stem ++ ['.', 'm', 'o'])
      = (front dir ++ (stem ++ ['.'])) ++ ['m', 'o'] := by simp
  rw [hextension, Option.getD_some, happend, List.length_append, Nat.add_sub_cancel]
  exact List.take_left

/-- A catalog file and its text form stand side by side. -/
theorem withExtension_front_append (dir : String) {stem : List Char} (hslash : '/' ∉ stem)
    (hne : stem ≠ []) (hdot : stem ≠ ['.']) :
    withExtension (front dir ++ (stem ++ ['.', 'm', 'o'])) ['p', 'o']
      = front dir ++ (stem ++ ['.', 'p', 'o']) := by
  have hkept : IsName (stem ++ ['.']) := by
    refine ⟨by simp [hslash], by simp, ?_, ?_⟩
    · intro heq
      exact hne (List.append_cancel_right (show stem ++ ['.'] = [] ++ ['.'] from heq))
    · intro heq
      exact hdot (List.append_cancel_right (show stem ++ ['.'] = ['.'] ++ ['.'] from heq))
  unfold withExtension
  simp only [take_extension dir hslash hne, fileName?_front_append dir hkept,
    splitName_append hne (show '.' ∉ [] from List.not_mem_nil)]
  have hcut : (front dir ++ (stem ++ ['.'])).take
      ((front dir ++ (stem ++ ['.'])).length - ((stem ++ ['.']).length - stem.length))
      = front dir ++ stem := by
    have hlength : (front dir ++ (stem ++ ['.'])).length
        - ((stem ++ ['.']).length - stem.length) = (front dir ++ stem).length := by
      simp only [List.length_append, List.length_singleton]
      omega
    rw [hlength, ← List.append_assoc, List.take_left]
  rw [hcut, List.append_assoc]

/-- A catalog called by its extension alone has none to be taken off. -/
theorem withExtension_front_append_mo (dir : String) :
    withExtension (front dir ++ ['.', 'm', 'o']) ['p', 'o']
      = front dir ++ ['.', 'm', 'o', '.', 'p', 'o'] := by
  have hname : IsName ['.', 'm', 'o'] := isName_of_length (by decide) (by decide)
  have hsplit : splitName ['.', 'm', 'o'] = (['.', 'm', 'o'], none) := by decide
  have hextension : extension? (front dir ++ ['.', 'm', 'o']) = none := by
    unfold extension?
    rw [fileName?_front_append dir hname, Option.bind_some, hsplit]
  unfold withExtension
  simp only [hextension, Option.getD_none, List.length_nil, Nat.sub_zero, List.take_length,
    fileName?_front_append dir hname, hsplit, Nat.sub_self, List.append_assoc]
  rfl

/-- Without its extension a catalog called by one more dot leads to the directory above. -/
theorem withExtension_front_append_dot_mo (dir : String) :
    withExtension (front dir ++ (['.'] ++ ['.', 'm', 'o'])) ['p', 'o']
      = front dir ++ FileSystem.up := by
  have hkept := @take_extension dir ['.'] (by decide) (by decide)
  have hnone : fileName? (front dir ++ (['.'] ++ ['.'])) = none := fileName?_front_append_up dir
  unfold withExtension
  simp only [hkept, hnone]
  rfl

/-- Whatever a catalog is called, its text form stands in the same directory and is called
otherwise. -/
theorem exists_withExtension_front_append (dir : String) {stem : List Char} (hslash : '/' ∉ stem) :
    ∃ name, '/' ∉ name ∧ stem ++ ['.', 'm', 'o'] ≠ name
      ∧ withExtension (front dir ++ (stem ++ ['.', 'm', 'o'])) ['p', 'o'] = front dir ++ name := by
  by_cases hne : stem = []
  · subst hne
    exact ⟨_, by decide, by decide, withExtension_front_append_mo dir⟩
  by_cases hdot : stem = ['.']
  · subst hdot
    exact ⟨_, by decide, by decide, withExtension_front_append_dot_mo dir⟩
  · refine ⟨stem ++ ['.', 'p', 'o'], by simp [hslash], ?_,
      withExtension_front_append dir hslash hne hdot⟩
    intro heq
    exact absurd (List.append_cancel_left heq) (by decide)

theorem front_ofList {rest : List Char} :
    front (String.ofList (rest ++ ['/'])) = rest ++ ['/'] := by
  unfold front
  rw [String.toList_ofList, List.getLast?_concat, if_pos rfl, if_neg]
  simp [String.isEmpty_iff]

/-- Every text is a name, which may be empty, and what stands in front of it. -/
theorem exists_front_append (cs : List Char) : ∃ dir name, '/' ∉ name ∧ cs = front dir ++ name := by
  induction cs with
  | nil => exact ⟨"", [], List.not_mem_nil, rfl⟩
  | cons c cs ih =>
      obtain ⟨dir, name, hname, rfl⟩ := ih
      rcases front_eq dir with hfront | ⟨rest, hfront⟩
      · rw [hfront]
        by_cases hc : c = '/'
        · subst hc
          exact ⟨String.ofList ([] ++ ['/']), name, hname, by rw [front_ofList]; rfl⟩
        · exact ⟨"", c :: name, by simp [hname, Ne.symm hc], rfl⟩
      · rw [hfront]
        exact ⟨String.ofList ((c :: rest) ++ ['/']), name, hname, by rw [front_ofList]; rfl⟩

end Path

/-! ## §4. The files of sources. -/

namespace Path

/-- The name of a catalog file. -/
def catalogName (lang identifier : String) : String :=
  lang ++ "." ++ identifier ++ ".mo"

/-- The name of the text form beside it. -/
def textName (lang identifier : String) : String :=
  lang ++ "." ++ identifier ++ ".po"

section Names

variable {lang identifier : String} (hlang : '/' ∉ lang.toList) (hid : '/' ∉ identifier.toList)

include hlang hid

theorem isName_catalogName : IsName (catalogName lang identifier).toList := by
  unfold catalogName
  rw [String.toList_append]
  exact isName_append_mo (by simp [String.toList_append, hlang, hid])

theorem isName_textName : IsName (textName lang identifier).toList := by
  unfold textName
  simp only [String.toList_append]
  apply isName_of_length
  · simp [hlang, hid]
  · rw [List.length_append]
    exact Nat.lt_add_left _ (by decide)

theorem textFormOf_catalogFile (dir : String) (hne : lang ≠ "") :
    textFormOf (catalogFile dir lang identifier) = join dir (textName lang identifier) := by
  have hname := isName_catalogName hlang hid
  have hchars : (catalogName lang identifier).toList
      = (lang.toList ++ '.' :: identifier.toList) ++ ['.', 'm', 'o'] := by
    unfold catalogName
    simp [String.toList_append]
  have hdot : lang.toList ++ '.' :: identifier.toList ≠ ['.'] := by
    cases hcs : lang.toList with
    | nil => exact absurd (String.toList_eq_nil_iff.1 hcs) hne
    | cons c cs => simp
  apply String.toList_injective
  unfold textFormOf
  show (String.ofList (withExtension (join dir (catalogName lang identifier)).toList
    "po".toList)).toList = _
  rw [toList_join dir hname.no_slash, hchars, String.toList_ofList,
    toList_join dir (isName_textName hlang hid).no_slash]
  show withExtension _ ['p', 'o'] = _
  rw [withExtension_front_append dir (by simp [hlang, hid]) (by simp) hdot]
  unfold textName
  simp [String.toList_append]

end Names

theorem catalogName_injective {lang identifier identifier' : String}
    (h : catalogName lang identifier = catalogName lang identifier') : identifier = identifier' := by
  unfold catalogName at h
  simpa using h

/-- No text form is called like a catalog. -/
theorem textName_ne_catalogName (lang identifier lang' identifier' : String) :
    textName lang identifier ≠ catalogName lang' identifier' := by
  intro h
  have hchars := congrArg String.toList h
  unfold textName catalogName at hchars
  rw [String.toList_append, String.toList_append (t := ".mo")] at hchars
  have hend := List.append_inj_right' hchars (by decide)
  exact absurd hend (by decide)

end Path

namespace FileSystem

variable (fs : FileSystem) {lang identifier identifier' : String} (dir dir' : String)
variable (hlang : '/' ∉ lang.toList) (hid : '/' ∉ identifier.toList)
variable (hid' : '/' ∉ identifier'.toList)

include hlang hid hid'

/-- **Different sources have different catalog files**, in whichever directories. -/
theorem apart_catalogFile (hne : identifier ≠ identifier') :
    fs.Apart (Path.catalogFile dir lang identifier) (Path.catalogFile dir' lang identifier') :=
  apart_of_ne (Path.isName_catalogName hlang hid) (Path.isName_catalogName hlang hid')
    fun h => hne (Path.catalogName_injective h)

/-- **The text form of a catalog is no source's catalog.** -/
theorem apart_textFormOf (hne : lang ≠ "") :
    fs.Apart (Path.textFormOf (Path.catalogFile dir lang identifier))
      (Path.catalogFile dir' lang identifier') := by
  rw [Path.textFormOf_catalogFile hlang hid dir hne]
  exact apart_of_ne (Path.isName_textName hlang hid) (Path.isName_catalogName hlang hid')
    (Path.textName_ne_catalogName _ _ _ _)

end FileSystem

/-! ## §5. Two files for one source. -/

namespace FileSystem

/-- **A catalog and its text form are two files**, whatever the language and the source are
called. -/
theorem apart_catalogFile_textFormOf (fs : FileSystem) (dir lang identifier : String) :
    fs.Apart (Path.catalogFile dir lang identifier)
      (Path.textFormOf (Path.catalogFile dir lang identifier)) := by
  obtain ⟨text, htext⟩ : ∃ text, (Path.catalogFile dir lang identifier).toList
      = text ++ ['.', 'm', 'o'] := by
    obtain ⟨before, hbefore⟩ := Path.exists_toList_join dir (lang ++ "." ++ identifier ++ ".mo")
    refine ⟨before ++ (lang ++ "." ++ identifier).toList, ?_⟩
    unfold Path.catalogFile
    rw [hbefore, String.toList_append, List.append_assoc]
    rfl
  obtain ⟨dir', stem, hstem, rfl⟩ := Path.exists_front_append text
  obtain ⟨name, hname, hne, hextension⟩ := Path.exists_withExtension_front_append dir' hstem
  have hisName := Path.isName_append_mo hstem
  have hcatalog : Path.catalogFile dir lang identifier
      = Path.join dir' (String.ofList (stem ++ ['.', 'm', 'o'])) := by
    apply String.toList_injective
    rw [Path.toList_join dir' (by rw [String.toList_ofList]; exact hisName.no_slash), htext,
      String.toList_ofList, List.append_assoc]
  have htextForm : Path.textFormOf (Path.catalogFile dir lang identifier)
      = Path.join dir' (String.ofList name) := by
    apply String.toList_injective
    unfold Path.textFormOf
    rw [Path.toList_join dir' (by rw [String.toList_ofList]; exact hname), htext,
      String.toList_ofList, String.toList_ofList, String.toList_ofList, List.append_assoc]
    exact hextension
  rw [htextForm, hcatalog]
  apply apart_of_siblings
  · rw [String.toList_ofList]
    exact hisName
  · rw [String.toList_ofList]
    exact hname
  · exact fun heq => hne (String.ofList_injective heq)

end FileSystem

end MessageCatalog
