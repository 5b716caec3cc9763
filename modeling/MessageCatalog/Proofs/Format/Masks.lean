/-
  MessageCatalog.Proofs.Format.Masks
  ────────────────────────────────
  **MASKS, PUT ON AND TAKEN OFF.**

  The placeholders are masked by one replacement for each name, and put back by as many more.
  Putting the masks on is the same as one walk over the text: an occurrence of a placeholder
  starts at a percent sign, and no mask brings in another one.

  Taking them off is not.  A mask begins and ends with the same character, so the end of one mask
  and the beginning of the next are a mask of their own if a name stands between them:

      \x01 v a l u e \x01 n a m e \x01 v a l u e \x01
                     └──────────────┘

  This counts as a mask for `name` when it is looked for before the masks beside it are gone.
  Then the characters U+0001 around it never come off again, since a percent sign has got between
  the two halves of a pair (`Broken`).
-/
import MessageCatalog.Format.Placeholder
import MessageCatalog.Proofs.Text.Search

namespace MessageCatalog.Format

open MessageCatalog.Text

/-! ## §1. The names. -/

theorem percent_not_mem {name : List Char} (h : name ∈ placeholderNames) : '%' ∉ name := by
  have hall : ∀ name ∈ placeholderNames, '%' ∉ name := by decide
  exact hall name h

theorem mark_not_mem {name : List Char} (h : name ∈ placeholderNames) : '\x01' ∉ name := by
  have hall : ∀ name ∈ placeholderNames, '\x01' ∉ name := by decide
  exact hall name h

/-- No name is the beginning of another one. -/
theorem eq_of_isPrefix {name other cs : List Char} (h : name ∈ placeholderNames)
    (hother : other ∈ placeholderNames) (hstart : name <+: other ++ cs) : name = other := by
  have hall : ∀ name ∈ placeholderNames, ∀ other ∈ placeholderNames,
      name <+: other ∨ other <+: name → name = other := by decide
  exact hall name h other hother
    (List.prefix_or_prefix_of_prefix hstart (List.prefix_append other cs))

theorem percent_not_mem_sentinel {name : List Char} (h : name ∈ placeholderNames) :
    '%' ∉ sentinel name := by
  have hname := percent_not_mem h
  simp [sentinel, hname]

theorem placeholder_ne_nil (name : List Char) : placeholder name ≠ [] :=
  List.cons_ne_nil _ _

theorem sentinel_ne_nil (name : List Char) : sentinel name ≠ [] :=
  List.cons_ne_nil _ _

theorem mark_not_mem_placeholder {name : List Char} (h : name ∈ placeholderNames) :
    '\x01' ∉ placeholder name := by
  have hname := mark_not_mem h
  simp [placeholder, hname]

/-! ## §2. Putting masks on. -/

/-- The text with the placeholders of these names masked. -/
def maskEach (names : List (List Char)) (cs : List Char) : List Char :=
  names.foldl (fun cs name => replaceAll (placeholder name) (sentinel name) cs) cs

theorem maskEach_cons (names : List (List Char)) {c : Char} (hc : c ≠ '%') (cs : List Char) :
    maskEach names (c :: cs) = c :: maskEach names cs := by
  induction names generalizing cs with
  | nil => rfl
  | cons name names ih =>
      have hhead : ¬ placeholder name <+: c :: cs := by
        rw [placeholder, List.cons_prefix_cons]
        exact fun h => hc h.1.symm
      unfold maskEach at ih ⊢
      rw [List.foldl_cons, replaceAll_cons hhead, ih]
      rfl

theorem maskEach_append (names : List (List Char)) {front : List Char} (h : '%' ∉ front)
    (cs : List Char) : maskEach names (front ++ cs) = front ++ maskEach names cs := by
  induction front with
  | nil => rfl
  | cons c front ih =>
      rw [List.mem_cons, not_or] at h
      rw [List.cons_append, maskEach_cons names (Ne.symm h.1), ih h.2]
      rfl

/-- A percent sign with none of the names behind it is kept. -/
theorem maskEach_percent {names : List (List Char)} (hnames : names ⊆ placeholderNames)
    {cs : List Char} (h : ∀ name ∈ names, ¬ name <+: cs) :
    maskEach names ('%' :: cs) = '%' :: maskEach names cs := by
  induction names generalizing cs with
  | nil => rfl
  | cons name names ih =>
      have hhead : ¬ placeholder name <+: '%' :: cs := by
        rw [placeholder, List.cons_prefix_cons]
        exact fun hpair => h name List.mem_cons_self hpair.2
      -- the replacement brings in no name that was not there
      have hrest : ∀ other ∈ names,
          ¬ other <+: replaceAll (placeholder name) (sentinel name) cs := by
        intro other hother
        have hmem := hnames (List.mem_cons_of_mem _ hother)
        unfold placeholder sentinel
        rw [List.cons_append, prefix_replaceAll_iff (percent_not_mem hmem) (mark_not_mem hmem)]
        exact h other (List.mem_cons_of_mem _ hother)
      have htail := ih (fun other hother => hnames (List.mem_cons_of_mem _ hother)) hrest
      unfold maskEach at htail ⊢
      rw [List.foldl_cons, replaceAll_cons hhead, htail]
      rfl

/-- A placeholder is masked. -/
theorem maskEach_placeholder {names : List (List Char)} (hnames : names ⊆ placeholderNames)
    {name : List Char} (h : name ∈ names) (cs : List Char) :
    maskEach names (placeholder name ++ cs) = sentinel name ++ maskEach names cs := by
  have hname : name ∈ placeholderNames := hnames h
  induction names generalizing cs with
  | nil => cases h
  | cons first names ih =>
      unfold maskEach at ih ⊢
      rw [List.foldl_cons, List.foldl_cons]
      by_cases heq : name = first
      · subst heq
        rw [replaceAll_append_self (placeholder_ne_nil name)]
        exact maskEach_append names (percent_not_mem_sentinel hname) _
      · have hfirst : first ∈ placeholderNames := hnames List.mem_cons_self
        have hhead : ¬ placeholder first <+: '%' :: (name ++ cs) := by
          rw [placeholder, List.cons_prefix_cons]
          exact fun hpair => heq (eq_of_isPrefix hfirst hname hpair.2).symm
        -- another placeholder is left alone, and no occurrence starts inside it
        have hkept : replaceAll (placeholder first) (sentinel first) (placeholder name ++ cs)
            = placeholder name ++ replaceAll (placeholder first) (sentinel first) cs := by
          show replaceAll (placeholder first) (sentinel first) ('%' :: (name ++ cs)) = _
          rw [replaceAll_cons hhead]
          exact congrArg ('%' :: ·) (replaceAll_append_of_not_mem (percent_not_mem hname) cs)
        rw [hkept]
        exact ih (fun other hother => hnames (List.mem_cons_of_mem _ hother))
          ((List.mem_cons.1 h).resolve_left heq) _

/-! ## §3. Texts with placeholders in them. -/

/-- A part of a text: characters, or the place of a placeholder. -/
inductive Stretch where
  | text (cs : List Char)
  | slot (name : List Char)
  deriving DecidableEq, Repr

/-- The characters of a part, when the placeholders with certain names are masked. -/
def Stretch.shown (masked : List (List Char)) : Stretch → List Char
  | .text cs => cs
  | .slot name => if name ∈ masked then sentinel name else placeholder name

def shown (masked : List (List Char)) (stretches : List Stretch) : List Char :=
  stretches.flatMap (Stretch.shown masked)

/-- All places are those of placeholders, and U+0001 is nowhere else. -/
structure Clean (stretches : List Stretch) : Prop where
  known : ∀ name, .slot name ∈ stretches → name ∈ placeholderNames
  free : ∀ cs, .text cs ∈ stretches → '\x01' ∉ cs

theorem Clean.tail {stretch : Stretch} {stretches : List Stretch}
    (h : Clean (stretch :: stretches)) : Clean stretches :=
  ⟨fun name hname => h.known name (List.mem_cons_of_mem _ hname),
    fun cs hcs => h.free cs (List.mem_cons_of_mem _ hcs)⟩

/-- Some characters and then a place of one of these names: the next one there is. -/
def Reaches (word : List Char) (names : List (List Char)) (stretches : List Stretch) : Prop :=
  ∃ (between : List (List Char)) (name : List Char) (back : List Stretch),
    stretches = between.map .text ++ .slot name :: back ∧ name ∈ names ∧ between.flatten = word

theorem not_reaches_nil (word : List Char) (names : List (List Char)) :
    ¬ Reaches word names [] := by
  rintro ⟨between, name, back, heq, -, -⟩
  simp at heq

theorem reaches_text_iff {word cs : List Char} {names : List (List Char)}
    {stretches : List Stretch} :
    Reaches word names (.text cs :: stretches)
      ↔ ∃ more, word = cs ++ more ∧ Reaches more names stretches := by
  constructor
  · rintro ⟨between, name, back, heq, hname, rfl⟩
    cases between with
    | nil => cases heq
    | cons first between =>
        rw [List.map_cons, List.cons_append, List.cons.injEq, Stretch.text.injEq] at heq
        obtain ⟨rfl, rfl⟩ := heq
        exact ⟨between.flatten, rfl, between, name, back, rfl, hname, rfl⟩
  · rintro ⟨more, rfl, between, name, back, rfl, hname, rfl⟩
    exact ⟨cs :: between, name, back, rfl, hname, rfl⟩

theorem reaches_slot_iff {word name : List Char} {names : List (List Char)}
    {stretches : List Stretch} :
    Reaches word names (.slot name :: stretches) ↔ word = [] ∧ name ∈ names := by
  constructor
  · rintro ⟨between, name', back, heq, hname, rfl⟩
    cases between with
    | nil =>
        rw [List.map_nil, List.nil_append, List.cons.injEq, Stretch.slot.injEq] at heq
        obtain ⟨rfl, rfl⟩ := heq
        exact ⟨rfl, hname⟩
    | cons first between => cases heq
  · rintro ⟨rfl, hname⟩
    exact ⟨[], name, stretches, rfl, hname, rfl⟩

/-- U+0001 stands behind a word where the next place is that of a masked placeholder. -/
theorem prefix_shown_iff {masked : List (List Char)} {word : List Char} (hpercent : '%' ∉ word)
    (hmark : '\x01' ∉ word) {stretches : List Stretch} (h : Clean stretches) :
    word ++ ['\x01'] <+: shown masked stretches ↔ Reaches word masked stretches := by
  induction stretches generalizing word with
  | nil => simp [shown, not_reaches_nil]
  | cons stretch stretches ih =>
      cases stretch with
      | text cs =>
          show word ++ ['\x01'] <+: cs ++ shown masked stretches ↔ _
          rw [concat_prefix_append_iff (h.free cs List.mem_cons_self), reaches_text_iff]
          constructor
          · rintro ⟨more, rfl, hmore⟩
            rw [List.mem_append, not_or] at hpercent hmark
            exact ⟨more, rfl, (ih hpercent.2 hmark.2 h.tail).1 hmore⟩
          · rintro ⟨more, rfl, hmore⟩
            rw [List.mem_append, not_or] at hpercent hmark
            exact ⟨more, rfl, (ih hpercent.2 hmark.2 h.tail).2 hmore⟩
      | slot name =>
          rw [reaches_slot_iff]
          show word ++ ['\x01'] <+: (if name ∈ masked then sentinel name else placeholder name)
            ++ shown masked stretches ↔ _
          cases word with
          | nil =>
              split
              next hmem => simp [sentinel, hmem]
              next hmem => simp [placeholder, hmem]
          | cons c word =>
              rw [List.mem_cons, not_or] at hpercent hmark
              split
              next => simp [sentinel, Ne.symm hmark.1]
              next => simp [placeholder, Ne.symm hpercent.1]

theorem shown_of_mem {masked : List (List Char)} {name : List Char} (h : name ∈ masked)
    (stretches : List Stretch) :
    shown masked (.slot name :: stretches) = sentinel name ++ shown masked stretches :=
  congrArg (· ++ shown masked stretches) (if_pos h)

theorem shown_of_not_mem {masked : List (List Char)} {name : List Char} (h : name ∉ masked)
    (stretches : List Stretch) :
    shown masked (.slot name :: stretches) = placeholder name ++ shown masked stretches :=
  congrArg (· ++ shown masked stretches) (if_neg h)

/-! ## §4. Taking one kind of masks off. -/

/-- The text with one placeholder put back. -/
def restore (name cs : List Char) : List Char :=
  replaceAll (sentinel name) (placeholder name) cs

theorem restore_append {front : List Char} (h : '\x01' ∉ front) (name cs : List Char) :
    restore name (front ++ cs) = front ++ restore name cs :=
  replaceAll_append_of_not_mem h cs

theorem restore_sentinel (name cs : List Char) :
    restore name (sentinel name ++ cs) = placeholder name ++ restore name cs :=
  replaceAll_append_self (sentinel_ne_nil name) cs

/-- U+0001 without the name behind it is kept. -/
theorem restore_mark {name cs : List Char} (h : ¬ name ++ ['\x01'] <+: cs) :
    restore name ('\x01' :: cs) = '\x01' :: restore name cs := by
  have hhead : ¬ sentinel name <+: '\x01' :: cs := by
    show ¬ '\x01' :: (name ++ ['\x01']) <+: '\x01' :: cs
    rw [List.cons_prefix_cons]
    exact fun hpair => h hpair.2
  exact replaceAll_cons hhead

/-- The mask of another placeholder is kept but for its end, which may be taken for the beginning
of a mask. -/
theorem restore_other {name other : List Char} (h : name ∈ placeholderNames)
    (hother : other ∈ placeholderNames) (hne : other ≠ name) (cs : List Char) :
    restore name (sentinel other ++ cs) = '\x01' :: other ++ restore name ('\x01' :: cs) := by
  have hhead : ¬ name ++ ['\x01'] <+: other ++ '\x01' :: cs := by
    intro hstart
    exact hne (eq_of_isPrefix h hother ((List.prefix_append name _).trans hstart)).symm
  have hshape : sentinel other ++ cs = '\x01' :: (other ++ '\x01' :: cs) := by
    simp [sentinel]
  rw [hshape, restore_mark hhead, restore_append (mark_not_mem hother)]
  rfl

/-- A percent sign stands behind an odd number of characters U+0001. -/
def Broken (cs : List Char) : Prop :=
  ∃ front back, cs = front ++ '%' :: back ∧ front.count '\x01' % 2 = 1

theorem Broken.mark_mem {cs : List Char} (h : Broken cs) : '\x01' ∈ cs := by
  obtain ⟨front, back, rfl, hodd⟩ := h
  have hpos : 0 < front.count '\x01' := by omega
  exact List.mem_append_left _ (List.count_pos_iff.1 hpos)

theorem Broken.append {cs : List Char} (h : Broken cs) {start : List Char}
    (heven : start.count '\x01' % 2 = 0) : Broken (start ++ cs) := by
  obtain ⟨front, back, rfl, hodd⟩ := h
  refine ⟨start ++ front, back, by simp, ?_⟩
  rw [List.count_append]
  omega

theorem count_sentinel {name : List Char} (h : name ∈ placeholderNames) :
    (sentinel name).count '\x01' = 2 := by
  have hname := List.count_eq_zero.2 (mark_not_mem h)
  simp [sentinel, hname]

theorem count_placeholder {name : List Char} (h : name ∈ placeholderNames) :
    (placeholder name).count '\x01' = 0 :=
  List.count_eq_zero.2 (mark_not_mem_placeholder h)

/-- **What is broken stays broken**: masks come off in pairs of U+0001, and none of them has a
percent sign in it. -/
theorem Broken.restore {cs name : List Char} (h : Broken cs) (hname : name ∈ placeholderNames) :
    Broken (restore name cs) := by
  obtain ⟨front, back, rfl, hodd⟩ := h
  refine ⟨replaceAll (sentinel name) (placeholder name) front, _,
    replaceAll_append_cons (sentinel_ne_nil name) (percent_not_mem_sentinel hname) front back, ?_⟩
  rw [count_replaceAll_mod_two (sentinel_ne_nil name)]
  · exact hodd
  · rw [count_sentinel hname, count_placeholder hname]

/-- A name stands between two places both of which are still masked when its own masks come off,
and the first of them not for this name. -/
def Clashes (name : List Char) (later : List (List Char)) (stretches : List Stretch) : Prop :=
  ∃ (front : List Stretch) (first : List Char) (back : List Stretch),
    stretches = front ++ .slot first :: back ∧ first ∈ later ∧ Reaches name (name :: later) back

theorem not_clashes_nil (name : List Char) (later : List (List Char)) :
    ¬ Clashes name later [] := by
  rintro ⟨front, first, back, heq, -, -⟩
  simp at heq

theorem clashes_cons_iff {name : List Char} {later : List (List Char)} {stretch : Stretch}
    {stretches : List Stretch} :
    Clashes name later (stretch :: stretches)
      ↔ (∃ first, stretch = .slot first ∧ first ∈ later ∧ Reaches name (name :: later) stretches)
        ∨ Clashes name later stretches := by
  constructor
  · rintro ⟨front, first, back, heq, hfirst, hback⟩
    cases front with
    | nil =>
        obtain ⟨rfl, rfl⟩ := List.cons.inj heq
        exact Or.inl ⟨first, rfl, hfirst, hback⟩
    | cons start front =>
        obtain ⟨-, rfl⟩ := List.cons.inj heq
        exact Or.inr ⟨front, first, back, rfl, hfirst, hback⟩
  · rintro (⟨first, rfl, hfirst, hback⟩ | ⟨front, first, back, rfl, hfirst, hback⟩)
    · exact ⟨[], first, stretches, rfl, hfirst, hback⟩
    · exact ⟨stretch :: front, first, back, rfl, hfirst, hback⟩

section Restoring

variable {name : List Char} {later : List (List Char)} {stretch : Stretch}
  {stretches : List Stretch}

/-- A part that does not clash with those behind it loses its mask if it has the name, and is kept
otherwise. -/
theorem restore_shown_cons (hname : name ∈ placeholderNames) (hnew : name ∉ later)
    (hclean : Clean (stretch :: stretches))
    (h : ¬ ∃ first, stretch = .slot first ∧ first ∈ later
      ∧ Reaches name (name :: later) stretches) :
    restore name (shown (name :: later) (stretch :: stretches))
      = stretch.shown later ++ restore name (shown (name :: later) stretches) := by
  cases stretch with
  | text cs => exact restore_append (hclean.free cs List.mem_cons_self) name _
  | slot other =>
      have hother : other ∈ placeholderNames := hclean.known other List.mem_cons_self
      show _ = (if other ∈ later then sentinel other else placeholder other) ++ _
      by_cases hsame : other = name
      · subst hsame
        rw [shown_of_mem List.mem_cons_self, restore_sentinel, if_neg hnew]
      · by_cases hlater : other ∈ later
        · have hmark : ¬ name ++ ['\x01'] <+: shown (name :: later) stretches := by
            rw [prefix_shown_iff (percent_not_mem hname) (mark_not_mem hname) hclean.tail]
            exact fun hreaches => h ⟨other, rfl, hlater, hreaches⟩
          rw [shown_of_mem (List.mem_cons_of_mem _ hlater), restore_other hname hother hsame,
            restore_mark hmark, if_pos hlater]
          simp [sentinel]
        · have hplain : other ∉ name :: later := by simp [hsame, hlater]
          rw [shown_of_not_mem hplain, restore_append (mark_not_mem_placeholder hother),
            if_neg hlater]

/-- The end of a mask, a name and the beginning of the next mask are taken for one mask. -/
theorem broken_of_reaches {first : List Char} (hname : name ∈ placeholderNames)
    (hnew : name ∉ later) (hclean : Clean (.slot first :: stretches)) (hfirst : first ∈ later)
    (h : Reaches name (name :: later) stretches) :
    Broken (restore name (shown (name :: later) (.slot first :: stretches))) := by
  have hmem : first ∈ placeholderNames := hclean.known first List.mem_cons_self
  have hne : first ≠ name := by
    rintro rfl
    exact hnew hfirst
  obtain ⟨more, hmore⟩ :=
    (prefix_shown_iff (percent_not_mem hname) (mark_not_mem hname) hclean.tail).2 h
  have hshape : '\x01' :: shown (name :: later) stretches = sentinel name ++ more := by
    rw [← hmore]
    rfl
  rw [shown_of_mem (List.mem_cons_of_mem _ hfirst), restore_other hname hmem hne, hshape,
    restore_sentinel]
  refine ⟨'\x01' :: first, name ++ restore name more, rfl, ?_⟩
  rw [List.count_cons_self, List.count_eq_zero.2 (mark_not_mem hmem)]

theorem count_shown_mod_two (hclean : Clean (stretch :: stretches)) (masked : List (List Char)) :
    (stretch.shown masked).count '\x01' % 2 = 0 := by
  cases stretch with
  | text cs =>
      show cs.count '\x01' % 2 = 0
      rw [List.count_eq_zero.2 (hclean.free cs List.mem_cons_self)]
  | slot name =>
      have hname : name ∈ placeholderNames := hclean.known name List.mem_cons_self
      show (if name ∈ masked then sentinel name else placeholder name).count '\x01' % 2 = 0
      split
      · rw [count_sentinel hname]
      · rw [count_placeholder hname]

/-- **Without a clash the masks for a name come off**, and nothing else is touched. -/
theorem restore_shown (hname : name ∈ placeholderNames) (hnew : name ∉ later)
    (hclean : Clean stretches) (h : ¬ Clashes name later stretches) :
    restore name (shown (name :: later) stretches) = shown later stretches := by
  induction stretches with
  | nil => rfl
  | cons stretch stretches ih =>
      rw [clashes_cons_iff, not_or] at h
      rw [restore_shown_cons hname hnew hclean h.1, ih hclean.tail h.2]
      rfl

/-- **With a clash the text is broken.** -/
theorem broken_of_clashes (hname : name ∈ placeholderNames) (hnew : name ∉ later)
    (hclean : Clean stretches) (h : Clashes name later stretches) :
    Broken (restore name (shown (name :: later) stretches)) := by
  induction stretches with
  | nil => exact absurd h (not_clashes_nil name later)
  | cons stretch stretches ih =>
      by_cases hhead : ∃ first, stretch = .slot first ∧ first ∈ later
          ∧ Reaches name (name :: later) stretches
      · obtain ⟨first, rfl, hfirst, hreaches⟩ := hhead
        exact broken_of_reaches hname hnew hclean hfirst hreaches
      · have htail := (clashes_cons_iff.1 h).resolve_left hhead
        rw [restore_shown_cons hname hnew hclean hhead]
        exact (ih hclean.tail htail).append (count_shown_mod_two hclean later)

end Restoring

/-! ## §5. Taking all masks off. -/

/-- The text with the placeholders of these names put back, one name after the other. -/
def restoreEach (names : List (List Char)) (cs : List Char) : List Char :=
  names.foldl (fun cs name => restore name cs) cs

theorem unmask_eq (cs : List Char) : unmask cs = restoreEach placeholderNames cs := rfl

/-- Some name clashes when its masks come off. -/
def Confusing (names : List (List Char)) (stretches : List Stretch) : Prop :=
  ∃ (sooner : List (List Char)) (name : List Char) (later : List (List Char)),
    names = sooner ++ name :: later ∧ Clashes name later stretches

theorem not_confusing_nil (stretches : List Stretch) : ¬ Confusing [] stretches := by
  rintro ⟨sooner, name, later, heq, -⟩
  simp at heq

theorem confusing_cons_iff {name : List Char} {names : List (List Char)}
    {stretches : List Stretch} :
    Confusing (name :: names) stretches
      ↔ Clashes name names stretches ∨ Confusing names stretches := by
  constructor
  · rintro ⟨sooner, name', later, heq, hclash⟩
    cases sooner with
    | nil =>
        obtain ⟨rfl, rfl⟩ := List.cons.inj heq
        exact Or.inl hclash
    | cons first sooner =>
        obtain ⟨-, rfl⟩ := List.cons.inj heq
        exact Or.inr ⟨sooner, name', later, rfl, hclash⟩
  · rintro (hclash | ⟨sooner, name', later, rfl, hclash⟩)
    · exact ⟨[], name, names, rfl, hclash⟩
    · exact ⟨name :: sooner, name', later, rfl, hclash⟩

theorem Broken.restoreEach {cs : List Char} (h : Broken cs) {names : List (List Char)}
    (hnames : names ⊆ placeholderNames) : Broken (restoreEach names cs) := by
  induction names generalizing cs with
  | nil => exact h
  | cons name names ih =>
      exact ih (h.restore (hnames List.mem_cons_self))
        fun other hother => hnames (List.mem_cons_of_mem _ hother)

theorem restoreEach_shown {names : List (List Char)} (hnames : names ⊆ placeholderNames)
    (hnodup : names.Nodup) {stretches : List Stretch} (hclean : Clean stretches) :
    (¬ Confusing names stretches → restoreEach names (shown names stretches) = shown [] stretches)
      ∧ (Confusing names stretches → Broken (restoreEach names (shown names stretches))) := by
  induction names with
  | nil => exact ⟨fun _ => rfl, fun h => absurd h (not_confusing_nil stretches)⟩
  | cons name names ih =>
      have hname : name ∈ placeholderNames := hnames List.mem_cons_self
      have hrest : names ⊆ placeholderNames :=
        fun other hother => hnames (List.mem_cons_of_mem _ hother)
      obtain ⟨hnew, hnodup⟩ := List.nodup_cons.1 hnodup
      show (_ → restoreEach names (restore name (shown (name :: names) stretches)) = _)
        ∧ (_ → Broken (restoreEach names (restore name (shown (name :: names) stretches))))
      rw [confusing_cons_iff]
      by_cases hclash : Clashes name names stretches
      · have hbroken := (broken_of_clashes hname hnew hclean hclash).restoreEach hrest
        exact ⟨fun h => absurd (Or.inl hclash) h, fun _ => hbroken⟩
      · rw [restore_shown hname hnew hclean hclash]
        obtain ⟨hkept, hbroken⟩ := ih hrest hnodup
        exact ⟨fun h => hkept fun hlater => h (Or.inr hlater),
          fun h => hbroken (h.resolve_left hclash)⟩

theorem mark_not_mem_shown {stretches : List Stretch} (hclean : Clean stretches) :
    '\x01' ∉ shown [] stretches := by
  unfold shown
  rw [List.mem_flatMap]
  rintro ⟨stretch, hstretch, hmark⟩
  cases stretch with
  | text cs => exact hclean.free cs hstretch hmark
  | slot name => exact mark_not_mem_placeholder (hclean.known name hstretch) hmark

/-- **All masks come off exactly if no name stands between two places that are still masked when
its own masks come off.** -/
theorem unmask_shown_iff {stretches : List Stretch} (hclean : Clean stretches) :
    unmask (shown placeholderNames stretches) = shown [] stretches
      ↔ ¬ Confusing placeholderNames stretches := by
  obtain ⟨hkept, hbroken⟩ :=
    restoreEach_shown (List.Subset.refl placeholderNames) (by decide) hclean
  constructor
  · intro heq hconfusing
    have hmark := (hbroken hconfusing).mark_mem
    rw [← unmask_eq, heq] at hmark
    exact mark_not_mem_shown hclean hmark
  · exact hkept

/-- A text without U+0001 has no masks in it. -/
theorem unmask_eq_self {cs : List Char} (h : '\x01' ∉ cs) : unmask cs = cs := by
  rw [unmask_eq]
  generalize placeholderNames = names
  induction names with
  | nil => rfl
  | cons name names ih =>
      show restoreEach names (restore name cs) = cs
      have hkept := restore_append h name []
      rw [List.append_nil] at hkept
      rw [hkept]
      show restoreEach names (cs ++ []) = cs
      rw [List.append_nil, ih]

end MessageCatalog.Format
