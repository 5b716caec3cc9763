/-
  MessageCatalog.Proofs.Format.Filling
  ────────────────────────────────
  **FILLING A TEMPLATE.**

  A filled template is its parts one after the other: the text as it stands, `%` for `%%`, and the
  selected argument, converted and filled up to its width, for each conversion.  Which argument a
  conversion takes is settled by its own number, or by the conversions without number before it;
  nothing else counts.  So the text of a part depends on the parts before it through one number
  only (`render_append`), and the laws here go by induction from the left end of the template to
  its right.
-/
import Mathlib.Data.List.Induction
import MessageCatalog.Proofs.Format.Notation

namespace MessageCatalog.Format

open MessageCatalog.Text

/-! ## §1. Rendering segments. -/

/-- Whether a segment takes the next argument. -/
def Segment.takesNext : Segment → Bool
  | .conversion c => c.number.isNone
  | _ => false

theorem render_literal (args : List Argument) (used : Nat) (c : Char) (rest : List Segment) :
    render args used (.literal c :: rest) = (render args used rest).map (c :: ·) := by
  rw [render]
  cases render args used rest <;> rfl

theorem render_percent (args : List Argument) (used : Nat) (rest : List Segment) :
    render args used (.percent :: rest) = (render args used rest).map ('%' :: ·) := by
  rw [render]
  cases render args used rest <;> rfl

theorem render_conversion {args : List Argument} {used : Nat} {c : Conversion} {arg : Argument}
    {body : List Char} (harg : args[c.number.getD (used + 1) - 1]? = some arg)
    (hbody : c.convert arg = .ok body) (rest : List Segment) :
    render args used (.conversion c :: rest)
      = (render args (if c.number.isNone then used + 1 else used) rest).map (c.pad body ++ ·) := by
  rw [render]
  simp only [harg, hbody, ok_bind]
  cases c.number with
  | none =>
      simp only [Option.isSome_none, Option.isNone_none, Bool.false_eq_true, if_false, if_true]
      cases render args (used + 1) rest <;> rfl
  | some n =>
      simp only [Option.isSome_some, Option.isNone_some, Bool.false_eq_true, if_false, if_true]
      cases render args used rest <;> rfl

theorem render_of_missing {args : List Argument} {used : Nat} {c : Conversion}
    (h : args.length < c.number.getD (used + 1)) (rest : List Segment) :
    render args used (.conversion c :: rest)
      = .error (.missingArgument (c.number.getD (used + 1))) := by
  have hnone : args[c.number.getD (used + 1) - 1]? = none := by
    rw [List.getElem?_eq_none_iff]
    omega
  rw [render]
  simp only [hnone]

/-- What a conversion that has been rendered took and made of it. -/
theorem exists_of_render_conversion {args : List Argument} {used : Nat} {c : Conversion}
    {rest : List Segment} {text : List Char}
    (h : render args used (.conversion c :: rest) = .ok text) :
    ∃ arg body, args[c.number.getD (used + 1) - 1]? = some arg ∧ c.convert arg = .ok body := by
  rw [render] at h
  split at h
  next => cases h
  next arg harg =>
    obtain ⟨body, hbody, -⟩ := bind_eq_ok_iff.1 h
    exact ⟨arg, body, harg, hbody⟩

theorem render_literals (args : List Argument) (used : Nat) (text : List Char) :
    render args used (text.map .literal) = .ok text := by
  induction text with
  | nil => rfl
  | cons c text ih =>
      rw [List.map_cons, render_literal, ih]
      rfl

theorem map_eq_ok_iff {ε α β : Type} {x : Except ε α} {f : α → β} {b : β} :
    x.map f = .ok b ↔ ∃ a, x = .ok a ∧ f a = b := by
  cases x with
  | error fault => simp [Except.map]
  | ok a => simp [Except.map]

/-- **Segments behind others are rendered as if these others had only used up arguments.** -/
theorem render_append {args : List Argument} {used : Nat} {front : List Segment}
    {text : List Char} (h : render args used front = .ok text) (back : List Segment) :
    render args used (front ++ back)
      = (render args (used + front.countP Segment.takesNext) back).map (text ++ ·) := by
  induction front generalizing used text with
  | nil =>
      cases h
      show render args used back = (render args used back).map ([] ++ ·)
      cases render args used back <;> rfl
  | cons segment front ih =>
      rw [List.cons_append]
      cases segment with
      | literal c =>
          rw [render_literal, map_eq_ok_iff] at h
          obtain ⟨more, hmore, rfl⟩ := h
          rw [render_literal, ih hmore, List.countP_cons_of_neg (by simp [Segment.takesNext])]
          cases render args (used + front.countP Segment.takesNext) back <;> rfl
      | percent =>
          rw [render_percent, map_eq_ok_iff] at h
          obtain ⟨more, hmore, rfl⟩ := h
          rw [render_percent, ih hmore, List.countP_cons_of_neg (by simp [Segment.takesNext])]
          cases render args (used + front.countP Segment.takesNext) back <;> rfl
      | conversion c =>
          obtain ⟨arg, body, harg, hbody⟩ := exists_of_render_conversion h
          rw [render_conversion harg hbody, map_eq_ok_iff] at h
          obtain ⟨more, hmore, rfl⟩ := h
          have hcount : used + (Segment.conversion c :: front).countP Segment.takesNext
              = (if c.number.isNone then used + 1 else used)
                + front.countP Segment.takesNext := by
            rw [List.countP_cons]
            cases hnumber : c.number with
            | none =>
                simp [Segment.takesNext, hnumber]
                omega
            | some n => simp [Segment.takesNext, hnumber]
          rw [render_conversion harg hbody, ih hmore, hcount]
          generalize (if c.number.isNone then used + 1 else used)
            + front.countP Segment.takesNext = taken
          cases render args taken back with
          | error fault => rfl
          | ok more' => simp [Except.map]

/-! ## §2. Filling items. -/

/-- What a template consists of: things that stay as they are, and conversions. -/
inductive Item (α : Type) where
  | fixed (a : α)
  | directive (d : Directive)

namespace Item

variable {α β : Type}

def map (f : α → β) : Item α → Item β
  | .fixed a => .fixed (f a)
  | .directive d => .directive d

/-- Whether an item takes the next argument. -/
def takesNext : Item α → Bool
  | .fixed _ => false
  | .directive d => d.number.isNone

end Item

/-- The number of arguments that items take in order. -/
def taken {α : Type} (items : List (Item α)) : Nat :=
  items.countP Item.takesNext

/-- The number of the argument that a conversion takes behind items that take `used` arguments in
order: its own number, or the next one. -/
def Directive.argument (d : Directive) (used : Nat) : Nat :=
  match d.number with
  | none => used + 1
  | some ds => min (digitsValue ds) maxWord

/-- What an item comes to: itself, or what is made of the text of the selected argument, converted
and filled up to its width. -/
inductive Item.Makes {α : Type} (make : List Char → α) (args : List Argument) (used : Nat) :
    Item α → α → Prop
  | fixed (a : α) : Makes make args used (.fixed a) a
  | directive {d : Directive} {arg : Argument} {body : List Char}
      (selected : args[d.argument used - 1]? = some arg)
      (converted : d.conversion.convert arg = .ok body) :
      Makes make args used (.directive d) (make (d.conversion.pad body))

/-- What items come to, one after the other. -/
inductive Fills {α : Type} (make : List Char → α) (args : List Argument) :
    List (Item α) → List α → Prop
  | nil : Fills make args [] []
  | snoc {items : List (Item α)} {outs : List α} {item : Item α} {out : α}
      (front : Fills make args items outs) (last : item.Makes make args (taken items) out) :
      Fills make args (items ++ [item]) (outs ++ [out])

/-- Every conversion selects an argument that is there. -/
def Supplied {α : Type} (args : List Argument) (items : List (Item α)) : Prop :=
  ∀ front d back, items = front ++ .directive d :: back → d.argument (taken front) ≤ args.length

/-- Arguments are counted from 1. -/
theorem Directive.argument_pos (d : Directive) (used : Nat) : 1 ≤ d.argument used := by
  unfold argument
  split
  next => omega
  next ds hsome =>
    have hpos := d.number_pos ds hsome
    have hword : 1 ≤ maxWord := by decide
    omega

theorem Directive.argument_eq (d : Directive) (used : Nat) :
    d.conversion.number.getD (used + 1) = d.argument used := by
  unfold argument conversion
  cases d.number <;> rfl

/-- **A conversion with one of the letters never fails.** -/
theorem exists_convert {c : Conversion} (h : c.letter ∈ conversionLetters) (arg : Argument) :
    ∃ body, c.convert arg = .ok body := by
  obtain ⟨number, flags, width, precision, letter⟩ := c
  have hletter : letter ∈ ['s', 'd', 'i', 'u', 'f', 'F', 'e', 'E', 'x', 'X', 'o', 'b', 'c'] := h
  simp only [List.mem_cons, List.not_mem_nil, or_false] at hletter
  unfold Conversion.convert
  rcases hletter with
    rfl | rfl | rfl | rfl | rfl | rfl | rfl | rfl | rfl | rfl | rfl | rfl | rfl
  · cases precision with
    | none => exact ⟨_, rfl⟩
    | some limit => exact ⟨_, rfl⟩
  all_goals
    exact ⟨_, rfl⟩

/-- A conversion whose argument is there comes to something. -/
theorem exists_makes {α : Type} (make : List Char → α) {args : List Argument} {d : Directive}
    {used : Nat} (h : d.argument used ≤ args.length) :
    ∃ out, Item.Makes make args used (.directive d) out := by
  have hpos := d.argument_pos used
  have hlt : d.argument used - 1 < args.length := by omega
  obtain ⟨body, hbody⟩ := exists_convert (c := d.conversion) d.letter_mem args[d.argument used - 1]
  exact ⟨_, .directive (List.getElem?_eq_getElem hlt) hbody⟩

section Items

variable {α β : Type} {make : List Char → α} {args : List Argument} {items : List (Item α)}

/-- One more item asks for its own argument only. -/
theorem supplied_concat_iff {item : Item α} :
    Supplied args (items ++ [item])
      ↔ Supplied args items
        ∧ ∀ d, item = .directive d → d.argument (taken items) ≤ args.length := by
  constructor
  · intro h
    constructor
    · rintro front d back rfl
      exact h front d (back ++ [item]) (by simp)
    · rintro d rfl
      exact h items d [] rfl
  · rintro ⟨hitems, hitem⟩ front d back heq
    cases back using List.reverseRecOn with
    | nil =>
        obtain ⟨rfl, hlast⟩ := List.append_inj' heq rfl
        exact hitem d (List.singleton_inj.1 hlast)
    | append_singleton back last =>
        rw [← List.cons_append, ← List.append_assoc] at heq
        exact hitems front d back (List.append_inj' heq rfl).1

theorem fills_nil_iff {outs : List α} : Fills make args [] outs ↔ outs = [] := by
  constructor
  · intro h
    generalize hitems : ([] : List (Item α)) = items at h
    cases h with
    | nil => rfl
    | snoc front last => simp at hitems
  · rintro rfl
    exact .nil

theorem fills_concat_iff {item : Item α} {outs : List α} :
    Fills make args (items ++ [item]) outs
      ↔ ∃ front out, outs = front ++ [out] ∧ Fills make args items front
        ∧ item.Makes make args (taken items) out := by
  constructor
  · intro h
    generalize heq : items ++ [item] = all at h
    cases h with
    | nil => simp at heq
    | @snoc items' outs' item' out' front last =>
        obtain ⟨rfl, hlast⟩ := List.append_inj' heq rfl
        obtain rfl := List.singleton_inj.1 hlast
        exact ⟨outs', out', rfl, front, last⟩
  · rintro ⟨front, out, rfl, hfront, hlast⟩
    exact .snoc hfront hlast

/-- **Items whose conversions select arguments that are there come to something.** -/
theorem exists_fills (make : List Char → α) (h : Supplied args items) :
    ∃ outs, Fills make args items outs := by
  induction items using List.reverseRecOn with
  | nil => exact ⟨[], .nil⟩
  | append_singleton items item ih =>
      rw [supplied_concat_iff] at h
      obtain ⟨outs, houts⟩ := ih h.1
      cases item with
      | fixed a => exact ⟨_, .snoc houts (.fixed a)⟩
      | directive d =>
          obtain ⟨out, hout⟩ := exists_makes make (h.2 d rfl)
          exact ⟨_, .snoc houts hout⟩

/-- What items come to is settled. -/
theorem Fills.unique {outs outs' : List α} (h : Fills make args items outs)
    (h' : Fills make args items outs') : outs = outs' := by
  induction h generalizing outs' with
  | nil => exact (fills_nil_iff.1 h').symm
  | snoc front last ih =>
      obtain ⟨front', out', rfl, hfront, hlast⟩ := fills_concat_iff.1 h'
      rw [ih hfront]
      cases last with
      | fixed =>
          cases hlast
          rfl
      | directive selected converted =>
          cases hlast with
          | directive selected' converted' =>
              rw [selected] at selected'
              cases selected'
              rw [converted] at converted'
              cases converted'
              rfl

theorem taken_map (f : α → β) (items : List (Item α)) :
    taken (items.map (Item.map f)) = taken items := by
  unfold taken
  rw [List.countP_map]
  congr 1
  funext item
  cases item <;> rfl

/-- What is done to all things that stay as they are and to all that conversions make is done to
what the items come to. -/
theorem Fills.map {outs : List α} (h : Fills make args items outs) (f : α → β) :
    Fills (f ∘ make) args (items.map (Item.map f)) (outs.map f) := by
  induction h with
  | nil => exact .nil
  | @snoc items outs item out front last ih =>
      rw [List.map_append, List.map_append]
      refine .snoc ih ?_
      rw [taken_map]
      cases last with
      | fixed => exact .fixed _
      | directive selected converted => exact .directive selected converted

end Items

/-! ## §3. Whole templates. -/

/-- What is kept of a part, or converted. -/
def Part.item : Part → Item (List Char)
  | .literal text _ => .fixed text
  | .percent => .fixed ['%']
  | .directive d => .directive d

theorem countP_segments (parts : List Part) :
    (parts.flatMap Part.segments).countP Segment.takesNext = taken (parts.map Part.item) := by
  unfold taken
  induction parts with
  | nil => rfl
  | cons part parts ih =>
      rw [List.flatMap_cons, List.countP_append, ih, List.map_cons, List.countP_cons, Nat.add_comm]
      congr 1
      cases part with
      | literal text free =>
          rw [List.countP_eq_zero.2]
          · rfl
          · intro segment hsegment
            obtain ⟨c, -, rfl⟩ := List.mem_map.1 hsegment
            simp [Segment.takesNext]
      | percent => rfl
      | directive d =>
          cases hnumber : d.number with
          | none =>
              simp [Part.segments, Part.item, Item.takesNext, Segment.takesNext,
                Directive.conversion, hnumber]
          | some ds =>
              simp [Part.segments, Part.item, Item.takesNext, Segment.takesNext,
                Directive.conversion, hnumber]

theorem render_part {args : List Argument} {used : Nat} {part : Part} {text : List Char}
    (h : part.item.Makes id args used text) : render args used part.segments = .ok text := by
  cases part with
  | literal text free =>
      cases h
      exact render_literals args used _
  | percent =>
      cases h
      rfl
  | directive d =>
      cases h with
      | @directive _ arg body selected converted =>
          rw [← d.argument_eq] at selected
          show render args used [.conversion d.conversion] = _
          rw [render_conversion selected converted]
          show Except.ok (d.conversion.pad body ++ []) = _
          rw [List.append_nil]
          rfl

/-- **What the parts come to is what their segments are rendered to.** -/
theorem render_of_fills {args : List Argument} {parts : List Part} {texts : List (List Char)}
    (h : Fills id args (parts.map Part.item) texts) :
    render args 0 (parts.flatMap Part.segments) = .ok texts.flatten := by
  induction parts using List.reverseRecOn generalizing texts with
  | nil =>
      obtain rfl := fills_nil_iff.1 h
      rfl
  | append_singleton parts part ih =>
      rw [List.map_append, List.map_singleton, fills_concat_iff] at h
      obtain ⟨front, text, rfl, hfront, hlast⟩ := h
      rw [List.flatMap_append, render_append (ih hfront), countP_segments, Nat.zero_add,
        List.flatMap_singleton, render_part hlast, List.flatten_append, List.flatten_singleton]
      rfl

theorem render_read_source (args : List Argument) (parts : List Part) :
    (Template.read (source parts)).render args
      = render args 0 (parts.flatMap Part.segments) := by
  rw [read_source]
  show (render args 0 (parts.flatMap Part.segments) >>= fun text => .ok text) = _
  cases render args 0 (parts.flatMap Part.segments) <;> rfl

theorem sprintf_ofList (args : List Argument) (cs : List Char) :
    sprintf (String.ofList cs) args = ((Template.read cs).render args).map String.ofList := by
  unfold sprintf
  rw [String.toList_ofList]

/-- **A template is filled part by part.**  If every conversion selects an argument that is there,
the text of the template is what its parts come to, in their order.  Otherwise the fault is the
missing argument of the first conversion that selects none, whatever comes behind it. -/
theorem sprintf_source (parts : List Part) (args : List Argument) :
    (Supplied args (parts.map Part.item) →
        ∃ texts, Fills id args (parts.map Part.item) texts
          ∧ sprintf (String.ofList (source parts)) args = .ok (String.ofList texts.flatten))
      ∧ ∀ front d back, parts = front ++ .directive d :: back →
          Supplied args (front.map Part.item) →
          args.length < d.argument (taken (front.map Part.item)) →
          sprintf (String.ofList (source parts)) args
            = .error (.missingArgument (d.argument (taken (front.map Part.item)))) := by
  constructor
  · intro h
    obtain ⟨texts, htexts⟩ := exists_fills id h
    refine ⟨texts, htexts, ?_⟩
    rw [sprintf_ofList, render_read_source, render_of_fills htexts]
    rfl
  · rintro front d back rfl hfront hmissing
    obtain ⟨texts, htexts⟩ := exists_fills id hfront
    rw [← d.argument_eq] at hmissing
    rw [sprintf_ofList, render_read_source, List.flatMap_append,
      render_append (render_of_fills htexts), countP_segments, Nat.zero_add, List.flatMap_cons]
    show ((render args (taken (front.map Part.item))
      (.conversion d.conversion :: back.flatMap Part.segments)).map _).map _ = _
    rw [render_of_missing hmissing, d.argument_eq]
    rfl

/-- `%2$s` -/
def second : Directive :=
  ⟨some ['2'], [], [], none, 's', by decide, by decide, by decide, by decide, by decide,
    by decide, by decide, by decide⟩

/-- `%05d` -/
def fiveWide : Directive :=
  ⟨none, [.zero], ['5'], none, 'd', by decide, by decide, by decide, by decide, by decide,
    by decide, by decide, by decide⟩

/-- `%9$d` -/
def ninth : Directive :=
  ⟨some ['9'], [], [], none, 'd', by decide, by decide, by decide, by decide, by decide,
    by decide, by decide, by decide⟩

/-- `%2$s=%05d%%` -/
def pairParts : List Part :=
  [.directive second, .literal ['='] (by decide), .directive fiveWide, .percent]

/-- A number, a padded integer and a percent sign; and the same with a conversion behind them that
selects a missing argument. -/
theorem sprintf_source_pair :
    sprintf "%2$s=%05d%%" [.integer (-42), .text "x"] = .ok "x=-0042%"
      ∧ sprintf "%2$s=%05d%%%9$d!" [.integer (-42), .text "x"] = .error (.missingArgument 9) := by
  have hsupplied : Supplied [.integer (-42), .text "x"] (pairParts.map Part.item) := by
    show Supplied _ ([] ++ [_] ++ [_] ++ [_] ++ [_])
    simp only [supplied_concat_iff]
    refine ⟨⟨⟨⟨?_, ?_⟩, ?_⟩, ?_⟩, ?_⟩
    · rintro front d back h
      simp at h
    all_goals
      rintro d ⟨⟩
    all_goals
      decide
  constructor
  · obtain ⟨texts, hfills, hsprintf⟩ :=
      (sprintf_source pairParts [.integer (-42), .text "x"]).1 hsupplied
    have hrender := render_of_fills hfills
    have htext : render [.integer (-42), .text "x"] 0 (pairParts.flatMap Part.segments)
        = .ok "x=-0042%".toList := by rfl
    rw [htext, Except.ok.injEq] at hrender
    rw [← hrender] at hsprintf
    exact hsprintf
  · have hnumber : ninth.argument (taken (pairParts.map Part.item)) = 9 := by decide
    have hsprintf := (sprintf_source
      (pairParts ++ .directive ninth :: [.literal ['!'] (by decide)])
      [.integer (-42), .text "x"]).2 pairParts ninth _ rfl hsupplied (by decide)
    rw [hnumber] at hsprintf
    exact hsprintf

/-- **A number that exceeds 64 bits** is reported as the largest one, and not as it is written. -/
theorem missing_beyond_word :
    ∃ d : Directive, d.number = some "18446744073709551616".toList
      ∧ digitsValue "18446744073709551616".toList = maxWord + 1
      ∧ sprintf (String.ofList (source [.directive d])) [] = .error (.missingArgument maxWord) :=
  ⟨⟨some "18446744073709551616".toList, [], [], none, 's', by decide, by decide, by decide,
      by decide, by decide, by decide, by decide, by decide⟩,
    rfl, by decide, by decide +kernel⟩

end MessageCatalog.Format
