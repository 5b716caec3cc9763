/-
  MessageCatalog.Proofs.Format.Interpolation
  ────────────────────────────────
  **FORMS, AND TEXTS WITHOUT CONVERSIONS.**

  A form is a template with placeholders in it.  Its conversions are filled and its placeholders
  kept, whatever stands next to what: masks are put on placeholders only, since no conversion has
  a percent sign in front of a letter that a name starts with, not even behind a quote.  What is
  left of the placeholders in the end depends on the text between them (`unmask_shown_iff`).

  A text in which every percent sign is doubled is a template for this text.  As a form it is one
  only if there is no placeholder in the text: the placeholder would be masked together with the
  second percent sign, and the first one be left alone in front of the mask.
-/
import MessageCatalog.Proofs.Format.Filling
import MessageCatalog.Proofs.Format.Masks

namespace MessageCatalog.Format

open MessageCatalog.Text

/-! ## §1. Masking a form. -/

/-- A part of a form as it is written. -/
inductive Piece where
  | literal (text : List Char) (free : '%' ∉ text) (clean : '\x01' ∉ text)
  | slot (name : List Char) (known : name ∈ placeholderNames)
  | directive (d : Directive)

def Piece.text : Piece → List Char
  | .literal text _ _ => text
  | .slot name _ => placeholder name
  | .directive d => d.text

/-- The text of a form that is written in these parts. -/
def form (pieces : List Piece) : List Char :=
  pieces.flatMap Piece.text

/-- The part that stands for a part of a form when the placeholders are masked. -/
def Piece.masked : Piece → Part
  | .literal text free _ => .literal text free
  | .slot name known => .literal (sentinel name) (percent_not_mem_sentinel known)
  | .directive d => .directive d

/-- The characters that names start with. -/
def initials : List Char := ['l', 'n', 'v']

theorem not_prefix_of_not_mem {c : Char} (h : c ∉ initials) {name : List Char}
    (hname : name ∈ placeholderNames) (cs : List Char) : ¬ name <+: c :: cs := by
  have hall : ∀ name ∈ placeholderNames, name.head? ∈ initials.map some := by decide
  obtain ⟨first, hfirst, hhead⟩ := List.mem_map.1 (hall name hname)
  obtain ⟨more, rfl⟩ := List.head?_eq_some_iff.1 hhead.symm
  rw [List.cons_prefix_cons]
  rintro ⟨rfl, -⟩
  exact h hfirst

theorem mask_percent {cs : List Char} (h : ∀ name ∈ placeholderNames, ¬ name <+: cs) :
    mask ('%' :: cs) = '%' :: mask cs :=
  maskEach_percent (List.Subset.refl _) h

theorem mask_placeholder {name : List Char} (h : name ∈ placeholderNames) (cs : List Char) :
    mask (placeholder name ++ cs) = sentinel name ++ mask cs :=
  maskEach_placeholder (List.Subset.refl _) h cs

theorem mask_cons {c : Char} (h : c ≠ '%') (cs : List Char) : mask (c :: cs) = c :: mask cs :=
  maskEach_cons placeholderNames h cs

theorem mask_append {front : List Char} (h : '%' ∉ front) (cs : List Char) :
    mask (front ++ cs) = front ++ mask cs :=
  maskEach_append placeholderNames h cs

/-- A text to which masking does nothing, and behind a percent sign neither. -/
structure Solid (front : List Char) : Prop where
  opens : ∀ name ∈ placeholderNames, ∀ cs, ¬ name <+: front ++ cs
  kept : ∀ cs, mask (front ++ cs) = front ++ mask cs

theorem Solid.percent {front : List Char} (h : Solid front) : Solid ('%' :: front) := by
  constructor
  · intro name hname cs
    exact not_prefix_of_not_mem (by decide) hname (front ++ cs)
  · intro cs
    rw [List.cons_append, mask_percent fun name hname => h.opens name hname cs, h.kept]
    rfl

theorem solid_cons {c : Char} {front : List Char} (hinitial : c ∉ initials)
    (hkept : ∀ cs, mask (c :: (front ++ cs)) = c :: (front ++ mask cs)) : Solid (c :: front) :=
  ⟨fun _ hname cs => not_prefix_of_not_mem hinitial hname (front ++ cs), hkept⟩

theorem Solid.cons {front : List Char} (h : Solid front) {c : Char} (hc : c ≠ '%')
    (hinitial : c ∉ initials) : Solid (c :: front) :=
  solid_cons hinitial fun cs => by rw [mask_cons hc, h.kept]

theorem Solid.digits {front : List Char} (h : Solid front) {ds : List Char}
    (hds : ds.all Char.isDigit = true) : Solid (ds ++ front) := by
  have hinitials : ∀ c ∈ '%' :: initials, c.isDigit = false :=
    List.all_iff_forall_prop.1 (by decide)
  induction ds with
  | nil => exact h
  | cons c ds ih =>
      rw [List.all_cons, Bool.and_eq_true] at hds
      have hother : c ∉ '%' :: initials := by
        intro hmem
        rw [hinitials c hmem] at hds
        cases hds.1
      rw [List.mem_cons, not_or] at hother
      exact (ih hds.2).cons hother.1 hother.2

theorem Solid.mark {front : List Char} (h : Solid front) (mark : Mark) :
    Solid (mark.text ++ front) := by
  cases mark with
  | minus => exact h.cons (by decide) (by decide)
  | plus => exact h.cons (by decide) (by decide)
  | zero => exact h.cons (by decide) (by decide)
  | space => exact h.cons (by decide) (by decide)
  | quoted c =>
      by_cases hc : c = '%'
      · -- what follows the quoted percent sign is part of the conversion
        subst hc
        exact h.percent.cons (by decide) (by decide)
      · refine solid_cons (by decide) fun cs => ?_
        show mask ('\'' :: c :: (front ++ cs)) = _
        rw [mask_cons (by decide), mask_cons hc, h.kept]
        rfl

theorem solid_marks {front : List Char} (h : Solid front) (marks : List Mark) :
    Solid (marks.flatMap Mark.text ++ front) := by
  induction marks with
  | nil => exact h
  | cons mark marks ih =>
      rw [List.flatMap_cons, List.append_assoc]
      exact ih.mark mark

namespace Directive

theorem solid_letter (d : Directive) : Solid [d.letter] := by
  have hall : ∀ c ∈ conversionLetters, c ≠ '%' ∧ c ∉ initials :=
    List.all_iff_forall_prop.1 (by decide)
  obtain ⟨hpercent, hinitial⟩ := hall d.letter d.letter_mem
  exact solid_cons hinitial fun cs => mask_cons hpercent cs

theorem solid_precision (d : Directive) : Solid (d.precisionText ++ [d.letter]) := by
  unfold precisionText
  split
  next => exact d.solid_letter
  next ds hsome =>
    exact (d.solid_letter.digits (d.isDigit_precision ds hsome)).cons (by decide) (by decide)

theorem solid_body (d : Directive) : Solid d.body := by
  have hmarks := solid_marks (d.solid_precision.digits d.isDigit_width) d.marks
  unfold body numberText
  split
  next => exact hmarks
  next ds hsome =>
    rw [List.append_assoc]
    exact (hmarks.cons (by decide) (by decide)).digits (d.isDigit_number ds hsome)

/-- **Masking leaves a conversion as it is**, whatever follows it. -/
theorem mask_text (d : Directive) (cs : List Char) : mask (d.text ++ cs) = d.text ++ mask cs :=
  d.solid_body.percent.kept cs

end Directive

/-- **A form whose placeholders are masked is the template of its masked parts.** -/
theorem mask_form (pieces : List Piece) : mask (form pieces) = source (pieces.map Piece.masked) := by
  induction pieces with
  | nil => rfl
  | cons piece pieces ih =>
      show mask (piece.text ++ form pieces) = piece.masked.text ++ source (pieces.map Piece.masked)
      rw [← ih]
      cases piece with
      | literal text free clean => exact mask_append free _
      | slot name known => exact mask_placeholder known _
      | directive d => exact d.mask_text _

/-! ## §2. Filling a form. -/

/-- What is kept of a part of a form, or converted. -/
def Piece.item : Piece → Item Stretch
  | .literal text _ _ => .fixed (.text text)
  | .slot name _ => .fixed (.slot name)
  | .directive d => .directive d

theorem item_masked (piece : Piece) :
    piece.masked.item = piece.item.map (Stretch.shown placeholderNames) := by
  cases piece with
  | literal text free clean => rfl
  | slot name known =>
      show Item.fixed (sentinel name)
        = Item.fixed (if name ∈ placeholderNames then sentinel name else placeholder name)
      rw [if_pos known]
  | directive d => rfl

/-- The masked parts of a form come to what its parts come to, with the masks on. -/
theorem fills_masked {args : List Argument} {pieces : List Piece} {stretches : List Stretch}
    (h : Fills .text args (pieces.map Piece.item) stretches) :
    Fills id args ((pieces.map Piece.masked).map Part.item)
      (stretches.map (Stretch.shown placeholderNames)) := by
  have hitems : (pieces.map Piece.masked).map Part.item
      = (pieces.map Piece.item).map (Item.map (Stretch.shown placeholderNames)) := by
    rw [List.map_map, List.map_map]
    exact List.map_congr_left fun piece _ => item_masked piece
  rw [hitems]
  exact h.map (Stretch.shown placeholderNames)

theorem interpolate_ofList {args : List Argument} (hargs : args ≠ []) (cs : List Char) :
    interpolate (String.ofList cs) args
      = ((Template.read (mask cs)).render args).map fun text => String.ofList (unmask text) := by
  unfold interpolate
  rw [if_neg (by simpa using hargs), String.toList_ofList]
  cases (Template.read (mask cs)).render args <;> rfl

/-- A form comes to what its parts come to, up to what taking off the masks does. -/
theorem interpolate_form_eq {args : List Argument} (hargs : args ≠ []) {pieces : List Piece}
    {stretches : List Stretch} (h : Fills .text args (pieces.map Piece.item) stretches) :
    interpolate (String.ofList (form pieces)) args
      = .ok (String.ofList (unmask (shown placeholderNames stretches))) := by
  rw [interpolate_ofList hargs, mask_form, render_read_source, render_of_fills (fills_masked h)]
  rfl

/-- The places in what a form comes to are those of its placeholders. -/
theorem known_of_fills {args : List Argument} {pieces : List Piece} {stretches : List Stretch}
    (h : Fills .text args (pieces.map Piece.item) stretches) :
    ∀ name, .slot name ∈ stretches → name ∈ placeholderNames := by
  induction pieces using List.reverseRecOn generalizing stretches with
  | nil =>
      obtain rfl := fills_nil_iff.1 h
      simp
  | append_singleton pieces piece ih =>
      rw [List.map_append, List.map_singleton, fills_concat_iff] at h
      obtain ⟨front, stretch, rfl, hfront, hlast⟩ := h
      intro name hmem
      rcases List.mem_append.1 hmem with hmem | hmem
      · exact ih hfront name hmem
      · obtain rfl := List.mem_singleton.1 hmem
        cases piece with
        | literal text free clean => cases hlast
        | slot name' known =>
            cases hlast
            exact known
        | directive d => cases hlast

/-- **A form keeps its placeholders** exactly if no name stands between two of them that are put
back later: with every selected argument there and U+0001 in no filled text, the form comes to its
literals and placeholders as they are and to its conversions as they are filled, unless what is
between two placeholders is the name of one that is put back before the first of them and not
after the second. -/
theorem interpolate_form (pieces : List Piece) (args : List Argument) (hargs : args ≠ [])
    (hsupplied : Supplied args (pieces.map Piece.item)) :
    ∃ stretches text, Fills .text args (pieces.map Piece.item) stretches
      ∧ interpolate (String.ofList (form pieces)) args = .ok (String.ofList text)
      ∧ ((∀ cs, .text cs ∈ stretches → '\x01' ∉ cs) →
          (text = shown [] stretches ↔ ¬ Confusing placeholderNames stretches)) := by
  obtain ⟨stretches, hstretches⟩ := exists_fills Stretch.text hsupplied
  refine ⟨stretches, _, hstretches, interpolate_form_eq hargs hstretches, fun hfree => ?_⟩
  exact unmask_shown_iff ⟨known_of_fills hstretches, hfree⟩

/-- `%label: %2$s (%value)` -/
def fieldForm : List Piece :=
  [.slot "label".toList (by decide), .literal ": ".toList (by decide) (by decide),
    .directive second, .literal " (".toList (by decide) (by decide),
    .slot "value".toList (by decide), .literal ")".toList (by decide) (by decide)]

/-- Two placeholders, and text and an argument between them that looks like another one. -/
theorem interpolate_form_field :
    interpolate "%label: %2$s (%value)" [.text "x", .text "%name"]
      = .ok "%label: %name (%value)" := by
  have hsupplied : Supplied [.text "x", .text "%name"] (fieldForm.map Piece.item) := by
    show Supplied _ ([] ++ [_] ++ [_] ++ [_] ++ [_] ++ [_] ++ [_])
    simp only [supplied_concat_iff]
    refine ⟨⟨⟨⟨⟨⟨?_, ?_⟩, ?_⟩, ?_⟩, ?_⟩, ?_⟩, ?_⟩
    · rintro front d back h
      simp at h
    all_goals
      rintro d ⟨⟩
    decide
  have hselected : [Argument.text "x", .text "%name"][second.argument 0 - 1]?
      = some (.text "%name") := rfl
  have hconverted : second.conversion.convert (.text "%name") = .ok "%name".toList := rfl
  have hmade : Item.Makes Stretch.text [.text "x", .text "%name"] 0 (.directive second)
      (.text (second.conversion.pad "%name".toList)) := .directive hselected hconverted
  have hfills : Fills .text [.text "x", .text "%name"] (fieldForm.map Piece.item)
      ([] ++ [.slot "label".toList] ++ [.text ": ".toList] ++ [.text "%name".toList]
        ++ [.text " (".toList] ++ [.slot "value".toList] ++ [.text ")".toList]) :=
    .snoc (.snoc (.snoc (.snoc (.snoc (.snoc .nil (.fixed _)) (.fixed _)) hmade) (.fixed _))
      (.fixed _)) (.fixed _)
  obtain ⟨stretches, text, hstretches, htext, hiff⟩ :=
    interpolate_form fieldForm [.text "x", .text "%name"] (by simp) hsupplied
  obtain rfl := hstretches.unique hfills
  have hkept := (hiff (by simp)).2 (by
    simp [confusing_cons_iff, not_confusing_nil, clashes_cons_iff, not_clashes_nil,
      reaches_text_iff, reaches_slot_iff, placeholderNames])
  rw [hkept] at htext
  exact htext

/-- **The name of a placeholder between two others** is taken for a part of their masks. -/
theorem interpolate_name_between :
    form [.slot "value".toList (by decide), .literal "name".toList (by decide) (by decide),
        .slot "value".toList (by decide)] = "%valuename%value".toList
      ∧ interpolate "%valuename%value" [.text "x"] = .ok "\x01value%namevalue\x01" :=
  ⟨rfl, by decide +kernel⟩

/-! ## §3. Doubled percent signs. -/

/-- The text with every percent sign doubled. -/
def doubled (cs : List Char) : List Char :=
  cs.flatMap fun c => if c = '%' then ['%', '%'] else [c]

theorem doubled_percent (cs : List Char) : doubled ('%' :: cs) = '%' :: '%' :: doubled cs := rfl

theorem doubled_cons {c : Char} (h : c ≠ '%') (cs : List Char) :
    doubled (c :: cs) = c :: doubled cs := by
  unfold doubled
  rw [List.flatMap_cons, if_neg h]
  rfl

/-- Doubling changes nothing in front of the first percent sign. -/
theorem prefix_doubled_iff {word : List Char} (h : '%' ∉ word) {cs : List Char} :
    word <+: doubled cs ↔ word <+: cs := by
  induction word generalizing cs with
  | nil => simp
  | cons w word ih =>
      rw [List.mem_cons, not_or] at h
      cases cs with
      | nil => simp [doubled]
      | cons c cs =>
          by_cases hc : c = '%'
          · subst hc
            rw [doubled_percent, List.cons_prefix_cons, List.cons_prefix_cons]
            simp [Ne.symm h.1]
          · rw [doubled_cons hc, List.cons_prefix_cons, List.cons_prefix_cons, ih h.2]

/-- What a segment in front does to the text of segments it does to the text of a template. -/
theorem render_push {args : List Argument} {segment : Segment} {f : List Char → List Char}
    (h : ∀ rest, render args 0 (segment :: rest) = (render args 0 rest).map f)
    (template : Template) :
    (template.push segment).render args = (template.render args).map f := by
  unfold Template.render Template.push
  rw [h]
  cases render args 0 template.1 with
  | error fault => rfl
  | ok text => cases template.2 <;> rfl

theorem render_read_doubled (args : List Argument) (cs : List Char) :
    (Template.read (doubled cs)).render args = .ok cs := by
  induction cs with
  | nil => rfl
  | cons c cs ih =>
      by_cases hc : c = '%'
      · subst hc
        rw [doubled_percent, read_percent, render_push (render_percent args 0), ih]
        rfl
      · rw [doubled_cons hc, read_cons hc, render_push (render_literal args 0 c), ih]
        rfl

/-- A mask with a single percent sign in front of it is read as a conversion that there is not. -/
theorem render_read_sentinel {args : List Argument} (hargs : args ≠ []) (name cs : List Char) :
    (Template.read ('%' :: (sentinel name ++ cs))).render args
      = .error (.unknownConversion '\x01') := by
  have hletter : Closes '\x01' := ⟨by decide, by decide, by decide⟩
  have hcs : '\x01' :: (name ++ ['\x01'] ++ cs) = ['\x01'] ++ (name ++ ['\x01'] ++ cs) := rfl
  have hread := read_conversion hcs (by simp) (readConversion_letter hletter (by decide) _)
  obtain ⟨arg, more, rfl⟩ := List.exists_cons_of_ne_nil hargs
  show (Template.read ('%' :: '\x01' :: (name ++ ['\x01'] ++ cs))).render (arg :: more) = _
  rw [hread]
  rfl

/-- A placeholder stands in the text. -/
def HasPlaceholder (cs : List Char) : Prop :=
  ∃ name ∈ placeholderNames, placeholder name <:+: cs

theorem hasPlaceholder_cons_iff {c : Char} {cs : List Char} :
    HasPlaceholder (c :: cs)
      ↔ (∃ name ∈ placeholderNames, placeholder name <+: c :: cs) ∨ HasPlaceholder cs := by
  unfold HasPlaceholder
  simp only [List.infix_cons_iff, ← exists_or, ← and_or_left]

/-- Doubled percent signs in front of no name are not masked. -/
theorem mask_doubled_percent {cs : List Char}
    (h : ¬ ∃ name ∈ placeholderNames, placeholder name <+: '%' :: cs) :
    mask (doubled ('%' :: cs)) = '%' :: '%' :: mask (doubled cs) := by
  have hname : ∀ name ∈ placeholderNames, ¬ name <+: doubled cs := by
    intro name hname hstart
    rw [prefix_doubled_iff (percent_not_mem hname)] at hstart
    exact h ⟨name, hname, List.cons_prefix_cons.2 ⟨rfl, hstart⟩⟩
  rw [doubled_percent, mask_percent fun name hname => not_prefix_of_not_mem (by decide) hname _,
    mask_percent hname]

theorem mask_doubled {cs : List Char} (h : ¬ HasPlaceholder cs) :
    mask (doubled cs) = doubled cs := by
  induction cs with
  | nil => rfl
  | cons c cs ih =>
      rw [hasPlaceholder_cons_iff, not_or] at h
      by_cases hc : c = '%'
      · subst hc
        rw [mask_doubled_percent h.1, ih h.2, doubled_percent]
      · rw [doubled_cons hc, mask_cons hc, ih h.2]

theorem render_read_mask_doubled {args : List Argument} (hargs : args ≠ []) {cs : List Char}
    (h : HasPlaceholder cs) :
    (Template.read (mask (doubled cs))).render args = .error (.unknownConversion '\x01') := by
  induction cs with
  | nil =>
      obtain ⟨name, -, hinfix⟩ := h
      exact absurd (List.infix_nil.1 hinfix) (placeholder_ne_nil name)
  | cons c cs ih =>
      rw [hasPlaceholder_cons_iff] at h
      by_cases hc : c = '%'
      · subst hc
        by_cases hhead : ∃ name ∈ placeholderNames, placeholder name <+: '%' :: cs
        · -- the second percent sign is masked together with the name
          obtain ⟨name, hname, hstart⟩ := hhead
          have hcs : name <+: doubled cs :=
            (prefix_doubled_iff (percent_not_mem hname)).2 (List.cons_prefix_cons.1 hstart).2
          obtain ⟨more, hmore⟩ := hcs
          rw [doubled_percent, mask_percent fun name hname =>
            not_prefix_of_not_mem (by decide) hname _, ← hmore]
          show (Template.read ('%' :: mask (placeholder name ++ more))).render args = _
          rw [mask_placeholder hname]
          exact render_read_sentinel hargs name _
        · rw [mask_doubled_percent hhead, read_percent, render_push (render_percent args 0),
            ih (h.resolve_left hhead)]
          rfl
      · have hrest : HasPlaceholder cs := by
          refine h.resolve_left ?_
          rintro ⟨name, -, hstart⟩
          exact hc (List.cons_prefix_cons.1 hstart).1.symm
        rw [doubled_cons hc, mask_cons hc, read_cons hc, render_push (render_literal args 0 c),
          ih hrest]
        rfl

/-- **Doubled percent signs give the text back**, as a template always, and as a form exactly if
there is no placeholder in the text. -/
theorem interpolate_doubled (text : String) (args : List Argument) (hargs : args ≠ [])
    (hfree : '\x01' ∉ text.toList) :
    sprintf (String.ofList (doubled text.toList)) args = .ok text
      ∧ (¬ HasPlaceholder text.toList →
          interpolate (String.ofList (doubled text.toList)) args = .ok text)
      ∧ (HasPlaceholder text.toList →
          interpolate (String.ofList (doubled text.toList)) args
            = .error (.unknownConversion '\x01')) := by
  refine ⟨?_, fun h => ?_, fun h => ?_⟩
  · rw [sprintf_ofList, render_read_doubled]
    exact congrArg Except.ok String.ofList_toList
  · rw [interpolate_ofList hargs, mask_doubled h, render_read_doubled]
    show Except.ok (String.ofList (unmask text.toList)) = _
    rw [unmask_eq_self hfree, String.ofList_toList]
  · rw [interpolate_ofList hargs, render_read_mask_doubled hargs h]
    rfl

/-- A text with a percent sign that is no placeholder. -/
theorem interpolate_doubled_rebate :
    sprintf "50%% off" [.integer 1] = .ok "50% off"
      ∧ interpolate "50%% off" [.integer 1] = .ok "50% off" := by
  obtain ⟨htemplate, hform, -⟩ :=
    interpolate_doubled "50% off" [.integer 1] (by simp) (by decide +kernel)
  have hnone : ¬ HasPlaceholder "50% off".toList := by
    unfold HasPlaceholder
    decide +kernel
  exact ⟨htemplate, hform hnone⟩

/-- **A placeholder behind a doubled percent sign** makes a form fail that is a template. -/
theorem interpolate_doubled_label :
    String.ofList (doubled "%label".toList) = "%%label"
      ∧ sprintf "%%label" [.text "x"] = .ok "%label"
      ∧ interpolate "%%label" [.text "x"] = .error (.unknownConversion '\x01') :=
  ⟨rfl, by decide +kernel, by decide +kernel⟩

end MessageCatalog.Format
