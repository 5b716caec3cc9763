/-
  MessageCatalog.Proofs.Po.Reading
  ────────────────────────────────
  **THE TEXT FORM CAN BE READ BACK.**

  A reader of the text form goes line by line.  From each line it takes off what all lines of
  its kind have, the keyword in front and the quote at the end, and in what is left it undoes
  only the backslash in front of a double quote:

      msgid "Say \"hi\" \o/"            Say "hi" \o/

  An empty line ends a paragraph.  The first paragraph is the header, and every other one is
  a message: its key, its plural if it has one, and its variants.

  Texts may hold quotes and backslashes in any order, be empty, or look like lines of the text
  form; as long as there is no line break in them, everything that was written is read back,
  in its order (`read_write`).
-/
import MessageCatalog.Po.Writer
import MessageCatalog.Proofs.Catalog.Header
import MessageCatalog.Proofs.Mo.Rewriting
import MessageCatalog.Proofs.Steps
import MessageCatalog.Proofs.Text.Number

namespace MessageCatalog.Po

open MessageCatalog.Text

/-! ## §1. A reader. -/

/-- The characters of a line, without the line break. -/
abbrev Line := List Char

/-- The text without the backslash in front of each double quote. -/
def unescape : List Char → List Char
  | '\\' :: '"' :: cs => '"' :: unescape cs
  | c :: cs => c :: unescape cs
  | [] => []

/-- What a line has between an opening and a closing. -/
def between? (opening closing line : Line) : Option (List Char) := do
  let rest ← afterHead? opening line
  let turned ← afterHead? closing.reverse rest.reverse
  some turned.reverse

/-- The text that a line gives to a keyword. -/
def text? (keyword : String) (line : Line) : Option String :=
  (between? (keyword ++ " \"").toList ['"'] line).map fun cs => String.ofList (unescape cs)

/-- The text of a header line. -/
def headerText? (line : Line) : Option String :=
  (between? ['"'] ['\\', 'n', '"'] line).map fun cs => String.ofList (unescape cs)

/-- A message as the text form has it. -/
structure Message where
  key : String
  plural : Option String
  variants : List String
  deriving DecidableEq, Repr

/-- The keyword of the variant with an index. -/
def variantKeyword (index : Nat) : String :=
  "msgstr[" ++ toString index ++ "]"

/-- The texts of lines with numbered variants, from an index on. -/
def numbered? : Nat → List Line → Option (List String)
  | _, [] => some []
  | index, line :: lines => do
      let text ← text? (variantKeyword index) line
      let texts ← numbered? (index + 1) lines
      some (text :: texts)

/-- The variants of a message: one without a number, or several with numbers. -/
def variants? : List Line → Option (List String)
  | [] => none
  | [line] => (text? "msgstr" line).map fun text => [text]
  | lines => numbered? 0 lines

/-- The message that a paragraph holds. -/
def message? : List Line → Option Message
  | first :: second :: lines => do
      let key ← text? "msgid" first
      match text? "msgid_plural" second with
      | some plural => (variants? lines).map (Message.mk key (some plural))
      | none => (variants? (second :: lines)).map (Message.mk key none)
  | _ => none

/-- Whether a line is a comment. -/
def isComment (line : Line) : Bool :=
  line.head? == some '#'

/-- The header lines that the first paragraph holds, behind the empty message. -/
def header? (paragraph : List Line) : Option (List String) :=
  match paragraph.dropWhile isComment with
  | key :: value :: lines =>
      if text? "msgid" key = some "" ∧ text? "msgstr" value = some "" then lines.mapM headerText?
      else none
  | _ => none

/-- The runs of lines between empty lines. -/
def paragraphs (lines : List Line) : List (List Line) :=
  (lines.splitOnP List.isEmpty).filter fun paragraph => !paragraph.isEmpty

/-- The header lines and the messages of a text. -/
def read (text : String) : Option (List String × List Message) :=
  match paragraphs (pieces (· == '\n') text.toList) with
  | [] => none
  | first :: rest => do
      let header ← header? first
      let messages ← rest.mapM message?
      some (header, messages)

/-! ## §2. One line. -/

theorem toList_escape (text : String) :
    (escape text).toList = text.toList.flatMap fun c => if c = '"' then ['\\', '"'] else [c] :=
  String.toList_ofList

/-- Every quote in an escaped text has a backslash in front of it. -/
theorem escaped_ne_quote_cons (cs rest : List Char) :
    (cs.flatMap fun c => if c = '"' then ['\\', '"'] else [c]) ≠ '"' :: rest := by
  cases cs with
  | nil =>
      intro h
      cases h
  | cons c cs =>
      rw [List.flatMap_cons]
      by_cases hquote : c = '"'
      · rw [if_pos hquote]
        intro h
        cases h
      · rw [if_neg hquote]
        intro h
        cases h
        exact hquote rfl

/-- **Escaping is undone**, whatever quotes and backslashes are in the text. -/
theorem unescape_escape (text : String) : unescape (escape text).toList = text.toList := by
  rw [toList_escape]
  induction text.toList with
  | nil => rfl
  | cons c cs ih =>
      rw [List.flatMap_cons]
      by_cases hquote : c = '"'
      · rw [if_pos hquote, hquote]
        exact congrArg ('"' :: ·) ih
      · rw [if_neg hquote, List.singleton_append]
        -- a backslash of the text itself is not followed by a quote
        rw [unescape, ih]
        intro rest _ hrest
        exact escaped_ne_quote_cons cs rest hrest

theorem between?_append (opening closing cs : List Char) :
    between? opening closing (opening ++ (cs ++ closing)) = some cs := by
  have hopening : afterHead? opening (opening ++ (cs ++ closing)) = some (cs ++ closing) :=
    afterHead?_eq_some_iff.2 rfl
  have hclosing : afterHead? closing.reverse (cs ++ closing).reverse = some cs.reverse :=
    afterHead?_eq_some_iff.2 List.reverse_append
  unfold between?
  rw [hopening, Option.bind_eq_bind, Option.bind_some, hclosing]
  show some cs.reverse.reverse = _
  rw [List.reverse_reverse]

theorem toList_field (keyword text : String) :
    (field keyword text).toList
      = (keyword ++ " \"").toList ++ ((escape text).toList ++ ['"']) := by
  unfold field
  simp only [String.toList_append, List.append_assoc]
  rfl

/-- A text is read back from its line. -/
theorem text?_field (keyword text : String) :
    text? keyword (field keyword text).toList = some text := by
  unfold text?
  rw [toList_field, between?_append, Option.map_some, unescape_escape, String.ofList_toList]

theorem toList_headerLine (text : String) :
    (headerLine text).toList = ['"'] ++ ((escape text).toList ++ ['\\', 'n', '"']) := by
  unfold headerLine
  simp only [String.toList_append, List.append_assoc]
  rfl

/-- A header line is read back. -/
theorem headerText?_headerLine (text : String) :
    headerText? (headerLine text).toList = some text := by
  unfold headerText?
  rw [toList_headerLine, between?_append, Option.map_some, unescape_escape, String.ofList_toList]

/-- A line with a variant has no plural. -/
theorem text?_plural_of_variant (more text : String) :
    text? "msgid_plural" (field ("msgstr" ++ more) text).toList = none := by
  have hhead : afterHead? ("msgid_plural" ++ " \"").toList (field ("msgstr" ++ more) text).toList
      = none := by
    unfold field
    simp only [String.toList_append]
    rfl
  unfold text? between?
  rw [hhead]
  rfl

/-! ## §3. One message. -/

namespace Message

/-- The message that an entry is written as. -/
def ofEntry (e : Entry) : Message :=
  ⟨e.key, e.plural?, if e.translation = [] then [""] else e.translation⟩

/-- The message that pending forms are written as, unless the first of them is blank. -/
def ofForms? : List String → Option Message
  | [] => none
  | singular :: more => if isBlank singular then none else some ⟨singular, more.getLast?, [""]⟩

/-- The lines of a message. -/
def lines (m : Message) : List String :=
  originalLines m.key m.plural ++ translationLines m.variants

/-- The texts of a message. -/
def texts (m : Message) : List String :=
  m.key :: m.plural.toList ++ m.variants

end Message

theorem lines_ne_nil (m : Message) : m.lines ≠ [] :=
  List.append_ne_nil_of_left_ne_nil (List.cons_ne_nil _ _) _

theorem entryBlock_eq (e : Entry) : entryBlock e = (Message.ofEntry e).lines ++ [""] := by
  unfold entryBlock Message.lines Message.ofEntry
  cases e.translation with
  | nil => rfl
  | cons variant more => rfl

theorem pendingBlock_eq (forms : List String) :
    pendingBlock forms = (Message.ofForms? forms).toList.flatMap fun m => m.lines ++ [""] := by
  cases forms with
  | nil => rfl
  | cons singular more =>
      rw [pendingBlock, Message.ofForms?]
      cases isBlank singular with
      | true => rfl
      | false => simp [Message.lines, translationLines]

/-- Numbered variants are read back. -/
theorem numbered?_map (variants : List String) (index : Nat) :
    numbered? index ((variants.zipIdx index).map fun (variant, index) =>
      (field (variantKeyword index) variant).toList) = some variants := by
  induction variants generalizing index with
  | nil => rfl
  | cons variant variants ih =>
      rw [List.zipIdx_cons, List.map_cons, numbered?, text?_field, ih]
      rfl

/-- The variants of a message are read back. -/
theorem variants?_translationLines {variants : List String} (h : variants ≠ []) :
    variants? ((translationLines variants).map String.toList) = some variants := by
  cases variants with
  | nil => exact absurd rfl h
  | cons first rest =>
      cases rest with
      | nil =>
          show (text? "msgstr" (field "msgstr" first).toList).map (fun text => [text]) = _
          rw [text?_field]
          rfl
      | cons second rest =>
          have hlines : translationLines (first :: second :: rest)
              = (first :: second :: rest).zipIdx.map fun (variant, index) =>
                  field (variantKeyword index) variant := rfl
          rw [hlines, List.map_map]
          exact numbered?_map (first :: second :: rest) 0

theorem not_mem_toString (index : Nat) : '\n' ∉ (toString index).toList := by
  rw [toList_toString]
  intro h
  exact absurd (isDigit_of_mem_digits h) (by decide)

/-- Every line with a variant starts alike. -/
theorem mem_translationLines {variants : List String} {line : String}
    (h : line ∈ translationLines variants) :
    ∃ more text, line = field ("msgstr" ++ more) text ∧ '\n' ∉ more.toList
      ∧ (text = "" ∨ text ∈ variants) := by
  cases variants with
  | nil => exact ⟨"", "", List.mem_singleton.1 h, by decide, Or.inl rfl⟩
  | cons first rest =>
      cases rest with
      | nil => exact ⟨"", first, List.mem_singleton.1 h, by decide, Or.inr List.mem_cons_self⟩
      | cons second rest =>
          obtain ⟨⟨text, index⟩, hmem, rfl⟩ := List.mem_map.1 h
          refine ⟨"[" ++ toString index ++ "]", text, ?_, ?_, Or.inr ?_⟩
          · show field ("msgstr[" ++ toString index ++ "]") text = _
            simp only [← String.append_assoc]
            rfl
          · rw [String.toList_append, String.toList_append, List.mem_append, List.mem_append, not_or,
              not_or]
            exact ⟨⟨by decide, not_mem_toString index⟩, by decide⟩
          · exact List.fst_mem_of_mem_zipIdx hmem

/-- **A message is read back from its lines.** -/
theorem message?_lines {m : Message} (h : m.variants ≠ []) :
    message? (m.lines.map String.toList) = some m := by
  obtain ⟨key, plural, variants⟩ := m
  have hvariants := variants?_translationLines h
  obtain ⟨first, rest, hlines⟩ : ∃ first rest, translationLines variants = first :: rest := by
    cases variants with
    | nil => exact absurd rfl h
    | cons first rest => cases rest <;> exact ⟨_, _, rfl⟩
  show message? (((field "msgid" key :: (plural.map (field "msgid_plural")).toList)
    ++ translationLines variants).map String.toList) = _
  rw [hlines] at hvariants ⊢
  cases plural with
  | none =>
      -- the line behind the key is one of the variants, so there is no plural
      obtain ⟨more, text, hfirst, -⟩ := mem_translationLines (hlines ▸ List.mem_cons_self)
      have hplural : text? "msgid_plural" first.toList = none := by
        rw [hfirst]
        exact text?_plural_of_variant more text
      rw [List.map_cons] at hvariants
      simp only [Option.map_none, Option.toList_none, List.cons_append, List.nil_append,
        List.map_cons, message?, text?_field, Option.bind_eq_bind, Option.bind_some, hplural,
        hvariants, Option.map_some]
  | some plural =>
      simp only [Option.map_some, Option.toList_some, List.cons_append, List.nil_append,
        List.map_cons, message?, text?_field, Option.bind_eq_bind, Option.bind_some] at hvariants ⊢
      rw [hvariants, Option.map_some]

namespace Message

theorem variants_ofEntry (e : Entry) : (ofEntry e).variants ≠ [] := by
  unfold ofEntry
  split
  · exact List.cons_ne_nil _ _
  next h => exact h

theorem mem_texts_ofEntry {e : Entry} {text : String} (h : text ∈ (ofEntry e).texts) :
    text = "" ∨ text ∈ e.original ++ e.translation := by
  unfold texts ofEntry at h
  rw [List.cons_append, List.mem_cons, List.mem_append, Option.mem_toList] at h
  rw [List.mem_append]
  rcases h with rfl | hplural | hvariant
  · by_cases hempty : e.original = []
    · left
      unfold Entry.key
      rw [hempty]
      rfl
    · exact Or.inr (Or.inl (Entry.key_mem hempty))
  · exact Or.inr (Or.inl (Entry.mem_of_plural? hplural))
  · change text ∈ ite _ _ _ at hvariant
    split at hvariant
    · exact Or.inl (List.mem_singleton.1 hvariant)
    · exact Or.inr (Or.inr hvariant)

theorem variants_ofForms? {forms : List String} {m : Message} (h : ofForms? forms = some m) :
    m.variants ≠ [] := by
  unfold ofForms? at h
  split at h
  next => cases h
  next =>
    split at h
    next => cases h
    next =>
      cases h
      exact List.cons_ne_nil _ _

theorem mem_texts_ofForms? {forms : List String} {m : Message} (h : ofForms? forms = some m)
    {text : String} (htext : text ∈ m.texts) : text = "" ∨ text ∈ forms := by
  unfold ofForms? at h
  split at h
  next => cases h
  next singular more =>
    split at h
    next => cases h
    next =>
      cases h
      unfold texts at htext
      rw [List.cons_append, List.mem_cons, List.mem_append, Option.mem_toList] at htext
      rcases htext with rfl | hplural | hvariant
      · exact Or.inr List.mem_cons_self
      · exact Or.inr (List.mem_cons_of_mem _ (List.mem_of_getLast? hplural))
      · exact Or.inl (List.mem_singleton.1 hvariant)

end Message

/-! ## §4. Texts without line breaks. -/

/-- A text without a line break. -/
def SingleLine (text : String) : Prop :=
  '\n' ∉ text.toList

instance (text : String) : Decidable (SingleLine text) :=
  inferInstanceAs (Decidable (¬ _))

theorem SingleLine.append {text text' : String} (h : SingleLine text) (h' : SingleLine text') :
    SingleLine (text ++ text') := by
  unfold SingleLine
  rw [String.toList_append, List.mem_append, not_or]
  exact ⟨h, h'⟩

theorem singleLine_of_oneLine {text : String} (h : Metadata.OneLine text) : SingleLine text := by
  intro hmem
  exact absurd (h _ hmem) (by decide)

theorem SingleLine.escape {text : String} (h : SingleLine text) : SingleLine (escape text) := by
  unfold SingleLine
  rw [toList_escape]
  intro hmem
  obtain ⟨c, hc, hescaped⟩ := List.mem_flatMap.1 hmem
  by_cases hquote : c = '"'
  · rw [if_pos hquote] at hescaped
    exact absurd hescaped (by decide)
  · rw [if_neg hquote, List.mem_singleton] at hescaped
    exact h (hescaped ▸ hc)

theorem SingleLine.field {keyword text : String} (hkeyword : SingleLine keyword)
    (htext : SingleLine text) : SingleLine (field keyword text) :=
  ((hkeyword.append (by decide)).append htext.escape).append (by decide)

theorem field_ne_nil (keyword text : String) : (field keyword text).toList ≠ [] := by
  rw [toList_field]
  simp

/-- The lines of a message have no line breaks in them, and none is empty. -/
theorem of_mem_lines {m : Message} (h : ∀ text ∈ m.texts, SingleLine text) {line : String}
    (hline : line ∈ m.lines) : SingleLine line ∧ line.toList ≠ [] := by
  have hfield : ∃ keyword text, line = field keyword text ∧ SingleLine keyword
      ∧ (text = "" ∨ text ∈ m.texts) := by
    unfold Message.texts
    unfold Message.lines originalLines at hline
    rw [List.cons_append, List.mem_cons, List.mem_append] at hline
    rcases hline with rfl | hplural | hvariant
    · exact ⟨"msgid", m.key, rfl, by decide, Or.inr List.mem_cons_self⟩
    · obtain ⟨plural, hmem, rfl⟩ := Option.map_eq_some_iff.1 (Option.mem_toList.1 hplural)
      exact ⟨"msgid_plural", plural, rfl, by decide, Or.inr (by simp [hmem])⟩
    · obtain ⟨more, text, rfl, hmore, htext⟩ := mem_translationLines hvariant
      have hkeyword : SingleLine ("msgstr" ++ more) := SingleLine.append (by decide) hmore
      exact ⟨_, text, rfl, hkeyword, htext.imp_right fun hmem => by simp [hmem]⟩
  obtain ⟨keyword, text, rfl, hkeyword, rfl | htext⟩ := hfield
  · exact ⟨hkeyword.field (by decide), field_ne_nil _ _⟩
  · exact ⟨hkeyword.field (h text htext), field_ne_nil _ _⟩

/-! ## §5. Lines and paragraphs. -/

/-- Lines come apart where line breaks end them. -/
theorem pieces_join {lines : List String} (h : ∀ line ∈ lines, SingleLine line) :
    pieces (· == '\n') (String.join (lines.map (· ++ "\n"))).toList
      = lines.map String.toList ++ [[]] := by
  induction lines with
  | nil => rfl
  | cons line lines ih =>
      rw [List.forall_mem_cons] at h
      have hfree : ∀ c ∈ line.toList, (c == '\n') = false := by
        intro c hc
        rw [beq_eq_false_iff_ne]
        rintro rfl
        exact h.1 hc
      have htext : (String.join ((line :: lines).map (· ++ "\n"))).toList
          = line.toList ++ '\n' :: (String.join (lines.map (· ++ "\n"))).toList := by
        rw [List.map_cons, String.join_cons, String.toList_append, String.toList_append,
          List.append_assoc]
        rfl
      rw [htext, pieces_append_cons hfree (by decide), ih h.2]
      rfl

theorem paragraphs_nil_cons (lines : List Line) : paragraphs ([] :: lines) = paragraphs lines := by
  unfold paragraphs
  rw [List.splitOnP_cons_eq_if_modifyHead, List.isEmpty_nil, if_pos rfl,
    List.filter_cons_of_neg (by decide)]

/-- An empty line ends a paragraph. -/
theorem paragraphs_append {paragraph : List Line} (hne : paragraph ≠ [])
    (h : ∀ line ∈ paragraph, line ≠ []) (lines : List Line) :
    paragraphs (paragraph ++ [] :: lines) = paragraph :: paragraphs lines := by
  have hfree : ∀ line ∈ paragraph, line.isEmpty = false := fun line hline =>
    List.isEmpty_eq_false_iff.2 (h line hline)
  unfold paragraphs
  rw [List.splitOnP_append_cons_of_forall_mem hfree [] rfl,
    List.filter_cons_of_pos (by simpa using hne)]

/-- Paragraphs come apart where empty lines end them. -/
theorem paragraphs_flatMap {α : Type} {write : α → List Line} {list : List α}
    (h : ∀ a ∈ list, write a ≠ [] ∧ ∀ line ∈ write a, line ≠ []) :
    paragraphs ((list.flatMap fun a => write a ++ [[]]) ++ [[]]) = list.map write := by
  induction list with
  | nil =>
      rw [List.flatMap_nil, List.nil_append, paragraphs_nil_cons]
      rfl
  | cons a list ih =>
      rw [List.forall_mem_cons] at h
      rw [List.flatMap_cons, List.append_assoc, List.append_assoc, List.singleton_append,
        paragraphs_append h.1.1 h.1.2, ih h.2, List.map_cons]

/-! ## §6. The whole text. -/

/-- The lines of the first paragraph. -/
def headLines (metadata : Option Metadata) (now : Timestamp) : List String :=
  [banner, "# Created: " ++ now.created, field "msgid" "", field "msgstr" ""]
    ++ (Metadata.headerLinesOf metadata now).map headerLine

/-- The messages that are written: the entries, and then those that are pending. -/
def messagesOf (entries : List Entry) (pending : List (List String)) : List Message :=
  entries.map Message.ofEntry ++ pending.filterMap Message.ofForms?

/-- The text form is a paragraph for the header and one for each message. -/
theorem lines_eq (entries : List Entry) (metadata : Option Metadata) (pending : List (List String))
    (now : Timestamp) :
    lines entries metadata pending now
      = headLines metadata now ++ "" :: "" ::
          (messagesOf entries pending).flatMap fun m => m.lines ++ [""] := by
  have hentries : entries.flatMap entryBlock
      = (entries.map Message.ofEntry).flatMap fun m => m.lines ++ [""] := by
    rw [List.flatMap_map, funext entryBlock_eq]
  have hpending : pending.flatMap pendingBlock
      = (pending.filterMap Message.ofForms?).flatMap fun m => m.lines ++ [""] := by
    induction pending with
    | nil => rfl
    | cons forms pending ih =>
        rw [List.flatMap_cons, List.filterMap_cons, ih, pendingBlock_eq]
        cases Message.ofForms? forms <;> simp
  have hkey : field "msgid" "" = "msgid \"\"" := rfl
  have hvalue : field "msgstr" "" = "msgstr \"\"" := rfl
  unfold lines messagesOf headLines
  rw [hentries, hpending, List.flatMap_append, hkey, hvalue]
  simp only [List.append_assoc, List.cons_append, List.nil_append]

/-- The first paragraph is read back. -/
theorem header?_headLines (metadata : Option Metadata) (now : Timestamp) :
    header? ((headLines metadata now).map String.toList)
      = some (Metadata.headerLinesOf metadata now) := by
  have hcomments : ∀ rest : List Line,
      (banner.toList :: ("# Created: " ++ now.created).toList :: (field "msgid" "").toList
          :: rest).dropWhile isComment = (field "msgid" "").toList :: rest := by
    intro rest
    have hcreated : isComment ("# Created: " ++ now.created).toList = true := by
      rw [String.toList_append]
      rfl
    rw [List.dropWhile_cons_of_pos (by decide), List.dropWhile_cons_of_pos hcreated,
      List.dropWhile_cons_of_neg (by decide)]
  have hlines : ((Metadata.headerLinesOf metadata now).map fun line =>
      (headerLine line).toList).mapM headerText?
        = some ((Metadata.headerLinesOf metadata now).map id) :=
    mapM_map_eq_some fun line _ => headerText?_headerLine line
  unfold header? headLines
  simp only [List.cons_append, List.nil_append, List.map_cons, List.map_map]
  rw [hcomments]
  simp only [text?_field, and_self, if_true]
  rw [List.map_id] at hlines
  exact hlines

/-- The pairs that are written have no line breaks in them if those of the header have none. -/
theorem singleLine_headerPairs {m : Metadata} (now : Timestamp)
    (h : ∀ pair ∈ m.values.pairs, SingleLine pair.1 ∧ SingleLine pair.2) :
    ∀ pair ∈ m.headerPairs now, SingleLine pair.1 ∧ SingleLine pair.2 := by
  rintro ⟨key, value⟩ hpair
  rcases Metadata.headerPairs_cases hpair with heq | ⟨default, hmem, hvalue⟩ | hown
  · cases heq
    have hkey : SingleLine revisionKey := by decide
    exact ⟨hkey, singleLine_of_oneLine (Metadata.oneLine_revision now)⟩
  · refine ⟨singleLine_of_oneLine (Metadata.recognized_inLine _ hmem).2.2, ?_⟩
    rcases hvalue with hown | hdefault
    · exact (h _ hown).2
    · exact singleLine_of_oneLine (Metadata.oneLine_default _ hmem value hdefault)
  · exact h _ hown

theorem singleLine_headerLinesOf {metadata : Option Metadata} (now : Timestamp)
    (h : ∀ m ∈ metadata, ∀ pair ∈ m.values.pairs, SingleLine pair.1 ∧ SingleLine pair.2) :
    ∀ line ∈ Metadata.headerLinesOf metadata now, SingleLine line := by
  have hpairs : ∀ pair ∈ (metadata.getD .empty).values.pairs,
      SingleLine pair.1 ∧ SingleLine pair.2 := by
    cases metadata with
    | none =>
        intro pair hpair
        cases hpair
    | some m => exact h m rfl
  unfold Metadata.headerLinesOf
  rw [Metadata.headerLines_eq]
  intro line hline
  obtain ⟨pair, hpair, rfl⟩ := List.mem_map.1 hline
  obtain ⟨hkey, hvalue⟩ := singleLine_headerPairs now hpairs pair hpair
  exact (hkey.append (by decide)).append hvalue

theorem of_mem_headLines {metadata : Option Metadata} {now : Timestamp}
    (h : ∀ line ∈ Metadata.headerLinesOf metadata now, SingleLine line) :
    ∀ line ∈ headLines metadata now, SingleLine line ∧ line.toList ≠ [] := by
  have hfield : ∀ keyword, SingleLine keyword →
      SingleLine (field keyword "") ∧ (field keyword "").toList ≠ [] := fun keyword hkeyword =>
    ⟨hkeyword.field (by decide), field_ne_nil keyword ""⟩
  have hcreated : SingleLine ("# Created: " ++ now.created) :=
    SingleLine.append (by decide) (singleLine_of_oneLine (Metadata.oneLine_created now))
  unfold headLines
  rw [List.forall_mem_append]
  simp only [List.forall_mem_cons]
  refine ⟨⟨by decide +kernel, ⟨hcreated, ?_⟩, hfield _ (by decide), hfield _ (by decide), by simp⟩,
    ?_⟩
  · rw [String.toList_append]
    simp
  · intro line hline
    obtain ⟨text, htext, rfl⟩ := List.mem_map.1 hline
    refine ⟨SingleLine.append (SingleLine.append (by decide) (h text htext).escape) (by decide), ?_⟩
    rw [toList_headerLine]
    simp

/-- The messages that are written have variants, and no line breaks in their texts. -/
theorem of_mem_messagesOf {entries : List Entry} {pending : List (List String)}
    (hentries : ∀ e ∈ entries, ∀ text ∈ e.original ++ e.translation, SingleLine text)
    (hpending : ∀ forms ∈ pending, ∀ text ∈ forms, SingleLine text) :
    ∀ m ∈ messagesOf entries pending, m.variants ≠ [] ∧ ∀ text ∈ m.texts, SingleLine text := by
  intro m hm
  rcases List.mem_append.1 hm with hm | hm
  · obtain ⟨e, he, rfl⟩ := List.mem_map.1 hm
    refine ⟨Message.variants_ofEntry e, fun text htext => ?_⟩
    rcases Message.mem_texts_ofEntry htext with rfl | htext
    · decide
    · exact hentries e he text htext
  · obtain ⟨forms, hforms, hm⟩ := List.mem_filterMap.1 hm
    refine ⟨Message.variants_ofForms? hm, fun text htext => ?_⟩
    rcases Message.mem_texts_ofForms? hm htext with rfl | htext
    · decide
    · exact hpending forms hforms text htext

/-- The paragraphs of the text form. -/
theorem paragraphs_write {entries : List Entry} {metadata : Option Metadata}
    {pending : List (List String)} {now : Timestamp}
    (hhead : ∀ line ∈ headLines metadata now, SingleLine line ∧ line.toList ≠ [])
    (hmessages : ∀ m ∈ messagesOf entries pending, ∀ text ∈ m.texts, SingleLine text) :
    paragraphs (pieces (· == '\n') (write entries metadata pending now).toList)
      = (headLines metadata now).map String.toList
        :: (messagesOf entries pending).map fun m => m.lines.map String.toList := by
  have hlines : ∀ line ∈ lines entries metadata pending now, SingleLine line := by
    rw [lines_eq, List.forall_mem_append, List.forall_mem_cons, List.forall_mem_cons]
    refine ⟨fun line hline => (hhead line hline).1, by decide, by decide, fun line hline => ?_⟩
    obtain ⟨m, hm, hline⟩ := List.mem_flatMap.1 hline
    rcases List.mem_append.1 hline with hline | hline
    · exact (of_mem_lines (hmessages m hm) hline).1
    · rw [List.mem_singleton.1 hline]
      decide
  have hblocks : ((messagesOf entries pending).flatMap fun m => m.lines ++ [""]).map String.toList
      = (messagesOf entries pending).flatMap fun m => m.lines.map String.toList ++ [[]] := by
    rw [List.map_flatMap]
    simp only [List.map_append, List.map_cons, List.map_nil, String.toList_empty]
  unfold write
  rw [pieces_join hlines, lines_eq, List.map_append, List.map_cons, List.map_cons, hblocks,
    String.toList_empty, List.append_assoc, List.cons_append, List.cons_append,
    paragraphs_append (by simp [headLines])]
  · rw [paragraphs_nil_cons, paragraphs_flatMap]
    intro m hm
    refine ⟨by simpa using lines_ne_nil m, ?_⟩
    rw [List.forall_mem_map]
    exact fun line hline => (of_mem_lines (hmessages m hm) hline).2
  · rw [List.forall_mem_map]
    exact fun line hline => (hhead line hline).2

/-- **What was written is read back**: the lines of the header, and then the messages in their
order, the entries first and then what is pending.  A message without a translation has one empty
variant. -/
theorem read_write {entries : List Entry} {metadata : Option Metadata}
    {pending : List (List String)} (now : Timestamp)
    (hentries : ∀ e ∈ entries, ∀ text ∈ e.original ++ e.translation, SingleLine text)
    (hmetadata : ∀ m ∈ metadata, ∀ pair ∈ m.values.pairs, SingleLine pair.1 ∧ SingleLine pair.2)
    (hpending : ∀ forms ∈ pending, ∀ text ∈ forms, SingleLine text) :
    read (write entries metadata pending now)
      = some (Metadata.headerLinesOf metadata now, messagesOf entries pending) := by
  have hhead := of_mem_headLines (singleLine_headerLinesOf now hmetadata)
  have hmessages := of_mem_messagesOf hentries hpending
  have hread : ((messagesOf entries pending).map fun m => m.lines.map String.toList).mapM message?
      = some ((messagesOf entries pending).map id) :=
    mapM_map_eq_some fun m hm => message?_lines (hmessages m hm).1
  unfold read
  rw [paragraphs_write hhead fun m hm => (hmessages m hm).2]
  simp only [header?_headLines, hread, Option.bind_eq_bind, Option.bind_some, List.map_id]

/-- Quotes and backslashes, texts that look like lines of the text form, and empty ones. -/
theorem read_write_quoted :
    read (write
        [⟨["Say \"hi\" \\", "\\\"", "msgid \"x\""], ["msgstr \"\"", ""], "a"⟩,
          ⟨["msgid_plural \"a\""], [], "a"⟩, ⟨["\"\\"], ["\\n\""], "b"⟩]
        (some ⟨.ofList [("X-Note", "a \"b\"\\")]⟩)
        [["Dog"], [" ", "Cats"], ["", "x"], ["Cat\"", "Cats", "msgstr[0]"]]
        ⟨2024, 3, 1, 9, 30, 15, 0⟩)
      = some (Metadata.headerLinesOf (some ⟨.ofList [("X-Note", "a \"b\"\\")]⟩)
          ⟨2024, 3, 1, 9, 30, 15, 0⟩,
        [⟨"Say \"hi\" \\", some "msgid \"x\"", ["msgstr \"\"", ""]⟩,
          ⟨"msgid_plural \"a\"", none, [""]⟩, ⟨"\"\\", none, ["\\n\""]⟩,
          ⟨"Dog", none, [""]⟩, ⟨"Cat\"", some "msgstr[0]", [""]⟩]) := by
  have hread := @read_write
    [⟨["Say \"hi\" \\", "\\\"", "msgid \"x\""], ["msgstr \"\"", ""], "a"⟩,
      ⟨["msgid_plural \"a\""], [], "a"⟩, ⟨["\"\\"], ["\\n\""], "b"⟩]
    (some ⟨.ofList [("X-Note", "a \"b\"\\")]⟩)
    [["Dog"], [" ", "Cats"], ["", "x"], ["Cat\"", "Cats", "msgstr[0]"]]
    ⟨2024, 3, 1, 9, 30, 15, 0⟩ (by decide +kernel) (by
      rintro m hm
      cases hm
      decide +kernel) (by decide +kernel)
  rw [hread]
  decide +kernel

end MessageCatalog.Po
