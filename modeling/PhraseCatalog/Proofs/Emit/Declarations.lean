import PhraseCatalog.Emit.RuntimeModule
import PhraseCatalog.Proofs.Json.RoundTrip
import PhraseCatalog.Proofs.Text.Pieces

/-! The lines of the runtime module. Five declarations in it depend on the run, each with a head that no
other line of the module begins with, whatever the languages and the phrases are; so the entries of
each are read off its text. -/

set_option autoImplicit false

namespace PhraseCatalog.Emit

open Decimal Json Text

/-! ## Lines -/

def linesOf (text : String) : List String := (splitOn '\n' text.toList).map String.ofList

/-- The text goes on one line. -/
def IsLine (text : String) : Prop := '\n' ∉ text.toList

instance (text : String) : Decidable (IsLine text) := inferInstanceAs (Decidable ¬ _)

theorem linesOf_append_line (a b : String) : linesOf (a ++ "\n" ++ b) = linesOf a ++ linesOf b := by
  have htext : (a ++ "\n" ++ b).toList = a.toList ++ '\n' :: b.toList := by simp
  rw [linesOf, htext, splitOn_append_cons, List.map_append]
  rfl

theorem linesOf_append_blank (a b : String) :
    linesOf (a ++ "\n\n" ++ b) = linesOf a ++ "" :: linesOf b := by
  have htext : a ++ "\n\n" ++ b = a ++ "\n" ++ "" ++ "\n" ++ b := by
    apply String.toList_injective
    simp
  have hempty : linesOf "" = [""] := rfl
  rw [htext, linesOf_append_line, linesOf_append_line, hempty, List.append_assoc]
  rfl

theorem IsLine.linesOf_eq {text : String} (h : IsLine text) : linesOf text = [text] := by
  rw [linesOf, splitOn_of_notMem h]
  simp

theorem linesOf_intercalate {lines : List String} (hne : lines ≠ []) (h : ∀ line ∈ lines, IsLine line) :
    linesOf (String.intercalate "\n" lines) = lines := by
  rw [linesOf, splitOn_toList_intercalate rfl hne h, List.map_map]
  simp

theorem IsLine.append {a b : String} (ha : IsLine a) (hb : IsLine b) : IsLine (a ++ b) := by
  simp only [IsLine, String.toList_append, List.mem_append, not_or]
  exact ⟨ha, hb⟩

theorem notMem_hexDigits (width n : Nat) : '\n' ∉ hexDigits width n := by
  have hdigit : ∀ d : Fin 16, hexDigit d.val ≠ '\n' := by decide
  induction width generalizing n with
  | zero => exact List.not_mem_nil
  | succ width ih =>
    rw [hexDigits, List.mem_append, List.mem_singleton, not_or]
    exact ⟨ih _, (hdigit ⟨n % 16, Nat.mod_lt _ (by decide)⟩).symm⟩

/-- A line end is escaped, and no escape has one. -/
theorem notMem_spell (ascii : Bool) (c : Char) : '\n' ∉ spell ascii c := by
  have hunit : ∀ n, '\n' ∉ unitEscape n := fun n => by
    simp [unitEscape, notMem_hexDigits]
  have hite : ∀ {p : Prop} [Decidable p] {a b : List Char}, '\n' ∉ a → '\n' ∉ b →
      '\n' ∉ if p then a else b := fun ha hb => by split <;> assumption
  by_cases hc : c = '\n'
  · subst hc
    cases ascii <;> decide
  · unfold spell
    repeat' refine hite ?_ ?_
    all_goals simp [hunit, Ne.symm hc]

theorem notMem_quote (ascii : Bool) (text : String) : '\n' ∉ quote ascii text := by
  simp [quote, notMem_spell]

theorem isLine_literal (text : String) : IsLine (literal text) := by
  rw [IsLine, literal, String.toList_ofList]
  exact notMem_quote false text

theorem isLine_asciiLiteral (text : String) : IsLine (asciiLiteral text) := by
  rw [IsLine, asciiLiteral, String.toList_ofList]
  exact notMem_quote true text

theorem isLine_number (n : Nat) : IsLine (toString n) := by
  have hdigits : (toString n).toList = digits n := Nat.toList_repr
  rw [IsLine, hdigits]
  intro hmem
  exact absurd (isDigit_of_mem_digits hmem) (by decide)

/-- A literal is read as the text that it was made of. -/
theorem read_literal (text : String) : Json.read (literal text) = .ok (.str text) := by
  have hrender : literal text = (Value.str text).render .line := rfl
  rw [hrender]
  exact read_render Style.line_readable (.str nestingLimit text)

/-! ## Declarations -/

/-- A declaration has its head on a line of its own, then its entries, then its closing; without
entries it is one line. -/
def declaration (head opening closing : String) : (entries : List String) → List String
  | [] => [head ++ opening ++ closing]
  | entry :: entries => (head ++ opening) :: entry :: entries ++ [closing]

theorem forall_mem_declaration {head opening closing : String} {entries : List String}
    {P : String → Prop} (hempty : P (head ++ opening ++ closing)) (hopen : P (head ++ opening))
    (hclose : P closing) (h : ∀ entry ∈ entries, P entry) :
    ∀ line ∈ declaration head opening closing entries, P line := by
  intro line hline
  cases entries with
  | nil =>
    obtain rfl := List.mem_singleton.mp hline
    exact hempty
  | cons entry entries =>
    rw [declaration, List.cons_append, List.mem_cons, List.mem_append, List.mem_singleton] at hline
    rcases hline with rfl | hline | rfl
    · exact hopen
    · exact h line hline
    · exact hclose

def BeginsWith (head line : String) : Prop := head.toList <+: line.toList

instance (head line : String) : Decidable (BeginsWith head line) :=
  inferInstanceAs (Decidable (_ <+: _))

/-- Among the lines is one declaration with the head, and these are its entries. -/
structure Declares (head opening closing : String) (lines entries : List String) : Prop where
  once : ∃ before after, lines = before ++ declaration head opening closing entries ++ after
    ∧ ∀ line ∈ before ++ after, ¬ BeginsWith head line
  inner : ∀ entry ∈ entries, ¬ BeginsWith head entry ∧ entry ≠ closing

/-- The entries of the declaration with the head, as the lines show them. -/
def declared? (head opening closing : String) : (lines : List String) → Option (List String)
  | [] => none
  | line :: lines =>
    if line = head ++ opening ++ closing then some []
    else if line = head ++ opening then some (lines.takeWhile (· ≠ closing))
    else declared? head opening closing lines

theorem beginsWith_append (head rest : String) : BeginsWith head (head ++ rest) := by
  rw [BeginsWith, String.toList_append]
  exact List.prefix_append _ _

theorem declared?_append {head opening closing : String} {before lines : List String}
    (h : ∀ line ∈ before, ¬ BeginsWith head line) :
    declared? head opening closing (before ++ lines) = declared? head opening closing lines := by
  induction before with
  | nil => rfl
  | cons line before ih =>
    have hline := h line List.mem_cons_self
    have hempty : line ≠ head ++ opening ++ closing := by
      rintro rfl
      exact hline (String.append_assoc .. ▸ beginsWith_append head _)
    have hopen : line ≠ head ++ opening := by
      rintro rfl
      exact hline (beginsWith_append head opening)
    rw [List.cons_append, declared?, if_neg hempty, if_neg hopen,
      ih fun l hl => h l (List.mem_cons_of_mem _ hl)]

/-- The entries of a declaration are the ones that its lines show. -/
theorem Declares.declared?_eq {head opening closing : String} {lines entries : List String}
    (h : Declares head opening closing lines entries) (hclosing : closing ≠ "") :
    declared? head opening closing lines = some entries := by
  obtain ⟨before, after, rfl, hclear⟩ := h.once
  rw [List.append_assoc, declared?_append fun line hline => hclear line (List.mem_append_left _ hline)]
  cases entries with
  | nil => simp [declaration, declared?]
  | cons entry entries =>
    have hinner := fun e he => (h.inner e he).2
    have hne : head ++ opening ≠ head ++ opening ++ closing := by
      intro heq
      have htext := congrArg String.toList heq
      exact hclosing (by simpa using htext)
    rw [declaration, List.cons_append, List.cons_append, declared?, if_neg hne, if_pos rfl]
    rw [List.append_assoc, List.takeWhile_append_of_pos (by simpa using hinner)]
    simp

theorem linesOf_declaration {head opening closing : String} {entries : List String}
    (hhead : IsLine (head ++ opening)) (hclosing : IsLine closing) (hne : entries ≠ [])
    (h : ∀ entry ∈ entries, IsLine entry) :
    linesOf (head ++ opening ++ "\n" ++ String.intercalate "\n" entries ++ "\n" ++ closing)
      = declaration head opening closing entries := by
  rw [linesOf_append_line, linesOf_append_line, hhead.linesOf_eq, linesOf_intercalate hne h,
    hclosing.linesOf_eq]
  cases entries with
  | nil => exact absurd rfl hne
  | cons entry entries => rfl

def entryLine (key value : String) : String := "\t" ++ literal key ++ ": " ++ value ++ ","

theorem isLine_entryLine (key : String) {value : String} (h : IsLine value) :
    IsLine (entryLine key value) := by
  have htab : IsLine "\t" := by decide
  have hcolon : IsLine ": " := by decide
  have hcomma : IsLine "," := by decide
  exact (((htab.append (isLine_literal key)).append hcolon).append h).append hcomma

theorem linesOf_objectLiteral {α : Type} {head : String} (hhead : IsLine head) (items : List α)
    (key value : α → String) (h : ∀ a, IsLine (value a)) :
    linesOf (head ++ objectLiteral (items.map fun a => (key a, value a)) ++ ";")
      = declaration head "\x7b" "\x7d;" (items.map fun a => entryLine (key a) (value a)) := by
  have hopen : ∀ {text : String}, '\n' ∉ text.toList → IsLine (head ++ text) := fun h =>
    hhead.append h
  cases items with
  | nil =>
    have htext : head ++ objectLiteral [] ++ ";" = head ++ "\x7b\x7d;" := by
      rw [objectLiteral, String.append_assoc]
      rfl
    rw [List.map_nil, htext, (hopen (by decide)).linesOf_eq]
    simp [declaration, String.append_assoc]
  | cons item items =>
    have hentries : ∀ line ∈ (item :: items).map fun a => entryLine (key a) (value a),
        IsLine line := by
      intro line hline
      obtain ⟨a, -, rfl⟩ := List.mem_map.mp hline
      exact isLine_entryLine (key a) (h a)
    rw [← linesOf_declaration (hopen (by decide)) (by decide) (by simp) hentries]
    congr 1
    apply String.toList_injective
    simp [objectLiteral, entryLine, Function.comp_def]

/-! ## Blocks -/

def languageHead : String := "const langs: Record<string, string> = "

def offerHead : String := "export const languageList = "

def missingHead : String := "const nofound: Record<string, string> = "

def tableHead : String := "export const i18nSourceIdMap: Record<string, number> = "

def listHead : String := "export const i18nSourceIdList: Record<string, string>[] = "

/-- The heads of the declarations that depend on the run, in their order. -/
def heads : List String := [languageHead, offerHead, missingHead, tableHead, listHead]

/-- The line makes none of the declarations. -/
def IsFrame (line : String) : Prop := ∀ head ∈ heads, ¬ BeginsWith head line

instance (line : String) : Decidable (IsFrame line) :=
  inferInstanceAs (Decidable (∀ head ∈ heads, ¬ BeginsWith head line))

/-- The line is empty or stands behind a tab. -/
def IsEntry (line : String) : Prop := line.toList.head?.all (· = '\t') = true

instance (line : String) : Decidable (IsEntry line) := inferInstanceAs (Decidable (_ = true))

theorem isFrame_empty : IsFrame "" := by decide +kernel

theorem isEntry_of_tab {line : String} (h : line.toList.head? = some '\t') : IsEntry line := by
  rw [IsEntry, h]
  rfl

theorem IsEntry.isFrame {line : String} (h : IsEntry line) : IsFrame line := by
  have hheads : ∀ head ∈ heads, head ≠ "" ∧ ¬ IsEntry head := by decide +kernel
  intro head hhead hbegins
  obtain ⟨hne, htab⟩ := hheads head hhead
  obtain ⟨rest, hrest⟩ := hbegins
  have hchars : head.toList ≠ [] := by simpa using hne
  rw [IsEntry, ← hrest, List.head?_append, List.head?_eq_some_head hchars] at h
  rw [IsEntry, List.head?_eq_some_head hchars] at htab
  exact htab h

theorem heads_apart : ∀ head ∈ heads, ∀ other ∈ heads, head ≠ other → ¬ BeginsWith head other := by
  decide +kernel

theorem not_beginsWith_append {head other : String} (hhead : head ∈ heads) (hother : other ∈ heads)
    (hne : head ≠ other) (rest : String) : ¬ BeginsWith head (other ++ rest) := by
  intro hbegins
  rw [BeginsWith, String.toList_append] at hbegins
  rcases List.prefix_or_prefix_of_prefix hbegins (List.prefix_append _ _) with hstarts | hstarts
  · exact heads_apart head hhead other hother hne hstarts
  · exact heads_apart other hother head hhead hne.symm hstarts

/-- A declaration with one of the heads. Its entries are no closing and make no declaration. -/
structure Block where
  head : String
  opening : String
  closing : String
  entries : List String
  head_mem : head ∈ heads
  closes : IsFrame closing ∧ ¬ IsEntry closing
  isEntry : ∀ entry ∈ entries, IsEntry entry

namespace Block

@[simp] def lines (block : Block) : List String :=
  declaration block.head block.opening block.closing block.entries

theorem not_beginsWith (block : Block) {head : String} (hhead : head ∈ heads)
    (hne : head ≠ block.head) : ∀ line ∈ "" :: block.lines, ¬ BeginsWith head line := by
  have happend := not_beginsWith_append hhead block.head_mem hne
  have hempty : ¬ BeginsWith head (block.head ++ block.opening ++ block.closing) :=
    String.append_assoc .. ▸ happend _
  have hentries := fun entry hentry => (block.isEntry entry hentry).isFrame head hhead
  intro line hline
  rcases List.mem_cons.mp hline with rfl | hline
  · exact isFrame_empty head hhead
  · exact forall_mem_declaration hempty (happend _) (block.closes.1 head hhead) hentries line hline

/-- A block declares its entries among other blocks, between lines that make no declaration. -/
theorem declares {before after : List Block} {block : Block} {start rest : List String}
    (hnodup : ((before ++ block :: after).map (·.head)).Nodup)
    (hstart : ∀ line ∈ start, IsFrame line) (hrest : ∀ line ∈ rest, IsFrame line) :
    Declares block.head block.opening block.closing
      (start ++ (before ++ block :: after).flatMap (fun b => "" :: b.lines) ++ rest)
      block.entries := by
  have hother : ∀ b ∈ before ++ after, block.head ≠ b.head := by
    intro b hb
    have hmiddle := (List.perm_middle.map Block.head).nodup_iff.mp hnodup
    rw [List.map_cons, List.nodup_cons] at hmiddle
    exact fun heq => hmiddle.1 (heq ▸ List.mem_map_of_mem hb)
  have hblank : ¬ BeginsWith block.head "" := isFrame_empty block.head block.head_mem
  have hblocks : ∀ b ∈ before ++ after, ∀ line ∈ "" :: b.lines, ¬ BeginsWith block.head line :=
    fun b hb => b.not_beginsWith block.head_mem (hother b hb)
  refine ⟨⟨start ++ before.flatMap (fun b => "" :: b.lines) ++ [""],
    after.flatMap (fun b => "" :: b.lines) ++ rest, ?_, ?_⟩, fun entry hentry => ⟨?_, ?_⟩⟩
  · simp [List.flatMap_append, List.flatMap_cons]
  · intro line hline
    simp only [List.mem_append, List.mem_flatMap, List.mem_singleton] at hline
    rcases hline with ((hline | ⟨b, hb, hline⟩) | rfl) | ⟨b, hb, hline⟩ | hline
    · exact hstart line hline block.head block.head_mem
    · exact hblocks b (List.mem_append_left _ hb) line hline
    · exact hblank
    · exact hblocks b (List.mem_append_right _ hb) line hline
    · exact hrest line hline block.head block.head_mem
  · exact (block.isEntry entry hentry).isFrame block.head block.head_mem
  · rintro rfl
    exact block.closes.2 (block.isEntry _ hentry)

end Block

/-! ## The module -/

def languageEntries (languages : List String) : List String :=
  languages.map fun code => entryLine code (asciiLiteral code)

def offerEntry (locales : Language.Locales) (code : String) : String :=
  "\t\x7b value: " ++ asciiLiteral code ++ ", label: " ++ literal (languageLabel locales code)
    ++ " \x7d,"

/-- Without languages, there is one empty line. -/
def offerEntries (locales : Language.Locales) (languages : List String) : List String :=
  linesOf (String.intercalate "\n" (languages.map (offerEntry locales)))

def missingEntries (languages : List String) : List String :=
  languages.map fun code => entryLine code "\" \""

def tableEntries (catalog : Catalog) : List String :=
  (phraseIds catalog).map fun pair => entryLine pair.1 (toString pair.2)

def listEntry (phrase : String) : String := "\ti18nSource[" ++ literal phrase ++ "],"

def listEntries (catalog : Catalog) : List String :=
  (catalog.map (·.1)).map listEntry

theorem map_fst_phraseIds (catalog : Catalog) :
    (phraseIds catalog).map (·.1) = catalog.map (·.1) :=
  List.zipIdx_map_fst 0 _

theorem map_snd_phraseIds (catalog : Catalog) :
    (phraseIds catalog).map (·.2) = List.range catalog.length := by
  rw [phraseIds, List.zipIdx_map_snd, List.length_map, List.range_eq_range']

theorem isLine_offerEntry (locales : Language.Locales) (code : String) :
    IsLine (offerEntry locales code) := by
  have hvalue : IsLine "\t\x7b value: " := by decide
  have hlabel : IsLine ", label: " := by decide
  have hclose : IsLine " \x7d," := by decide
  exact (((hvalue.append (isLine_asciiLiteral code)).append hlabel).append
    (isLine_literal _)).append hclose

theorem isLine_listEntry (phrase : String) : IsLine (listEntry phrase) := by
  have hopen : IsLine "\ti18nSource[" := by decide
  have hclose : IsLine "]," := by decide
  exact (hopen.append (isLine_literal phrase)).append hclose

theorem offerEntries_eq (locales : Language.Locales) {languages : List String}
    (hne : languages ≠ []) : offerEntries locales languages = languages.map (offerEntry locales) := by
  refine linesOf_intercalate (by simpa using hne) fun line hline => ?_
  obtain ⟨code, -, rfl⟩ := List.mem_map.mp hline
  exact isLine_offerEntry locales code

theorem isEntry_entryLine (key value : String) : IsEntry (entryLine key value) :=
  isEntry_of_tab (by simp [entryLine])

theorem isEntry_of_mem_offerEntries {locales : Language.Locales} {languages : List String}
    {line : String} (h : line ∈ offerEntries locales languages) : IsEntry line := by
  cases languages with
  | nil =>
    obtain rfl := List.mem_singleton.mp (show line ∈ [""] from h)
    decide
  | cons code languages =>
    rw [offerEntries_eq locales (List.cons_ne_nil _ _)] at h
    obtain ⟨code, -, rfl⟩ := List.mem_map.mp h
    exact isEntry_of_tab (by simp [offerEntry])

theorem isEntry_of_mem_map {α : Type} {entry : α → String} (h : ∀ a, IsEntry (entry a))
    {items : List α} : ∀ line ∈ items.map entry, IsEntry line := by
  intro line hline
  obtain ⟨a, -, rfl⟩ := List.mem_map.mp hline
  exact h a

/-- The declarations of the module that depend on the run. -/
@[simp] def blocks (locales : Language.Locales) (catalog : Catalog) (languages : List String) :
    List Block :=
  [⟨languageHead, "\x7b", "\x7d;", languageEntries languages, by simp [heads], by decide +kernel,
      isEntry_of_mem_map fun _ => isEntry_entryLine _ _⟩,
    ⟨offerHead, "[", "];", offerEntries locales languages, by simp [heads], by decide +kernel,
      fun _ => isEntry_of_mem_offerEntries⟩,
    ⟨missingHead, "\x7b", "\x7d;", missingEntries languages, by simp [heads], by decide +kernel,
      isEntry_of_mem_map fun _ => isEntry_entryLine _ _⟩,
    ⟨tableHead, "\x7b", "\x7d;", tableEntries catalog, by simp [heads], by decide +kernel,
      isEntry_of_mem_map fun _ => isEntry_entryLine _ _⟩,
    ⟨listHead, "[", "];", listEntries catalog, by simp [heads], by decide +kernel,
      isEntry_of_mem_map fun _ => isEntry_of_tab (by simp [listEntry])⟩]

theorem linesOf_languageTable (languages : List String) :
    linesOf (languageTable languages)
      = declaration languageHead "\x7b" "\x7d;" (languageEntries languages) :=
  linesOf_objectLiteral (by decide) languages id asciiLiteral isLine_asciiLiteral

theorem linesOf_languageList (locales : Language.Locales) (languages : List String) :
    linesOf (languageList locales languages)
      = declaration offerHead "[" "];" (offerEntries locales languages) := by
  have hopen : IsLine (offerHead ++ "[") := by decide
  have hclose : IsLine "];" := by decide
  have htext : ∀ body : String, "export const languageList = [\n" ++ body ++ "\n];"
      = offerHead ++ "[" ++ "\n" ++ body ++ "\n" ++ "];" := fun body => by
    apply String.toList_injective
    simp [offerHead]
  have hlist : languageList locales languages = offerHead ++ "[" ++ "\n"
      ++ String.intercalate "\n" (languages.map (offerEntry locales)) ++ "\n" ++ "];" := htext _
  rw [hlist, linesOf_append_line, linesOf_append_line, hopen.linesOf_eq, hclose.linesOf_eq]
  rw [← offerEntries]
  cases hlines : offerEntries locales languages with
  | nil => exact absurd hlines (by simp [offerEntries, linesOf, splitOn_ne_nil])
  | cons line lines => simp [declaration]

theorem linesOf_missingRecord (languages : List String) :
    linesOf (missingRecord languages)
      = declaration missingHead "\x7b" "\x7d;" (missingEntries languages) :=
  linesOf_objectLiteral (by decide) languages id (fun _ => "\" \"") fun _ => by decide

theorem linesOf_idTable (catalog : Catalog) :
    linesOf (idTable catalog) = declaration tableHead "\x7b" "\x7d;" (tableEntries catalog) :=
  linesOf_objectLiteral (by decide) (phraseIds catalog) (·.1) (fun pair => toString pair.2)
    fun pair => isLine_number pair.2

theorem linesOf_idList (catalog : Catalog) :
    linesOf (idList catalog) = declaration listHead "[" "];" (listEntries catalog) := by
  have hentries : listEntries catalog = (phraseIds catalog).map fun pair => listEntry pair.1 := by
    rw [listEntries, ← map_fst_phraseIds, List.map_map]
    rfl
  rw [hentries]
  unfold idList
  split
  · rename_i hids
    rw [hids]
    exact (show IsLine (listHead ++ "[];") by decide).linesOf_eq
  · rename_i hids
    have hlines : ∀ line ∈ (phraseIds catalog).map fun pair => listEntry pair.1, IsLine line := by
      intro line hline
      obtain ⟨pair, -, rfl⟩ := List.mem_map.mp hline
      exact isLine_listEntry pair.1
    rw [← linesOf_declaration (by decide) (by decide) (by simpa using hids) hlines]
    congr 1
    apply String.toList_injective
    simp [listHead, listEntry]

theorem runtimeLines_frame : ∀ line ∈ runtimeLines, IsLine line ∧ IsFrame line := by
  have hlines : ∀ {lines : List String} {texts : List (List Char)},
      lines.map String.toList = texts →
      (∀ text ∈ texts, '\n' ∉ text ∧ ∀ head ∈ heads, ¬ head.toList <+: text) →
      ∀ line ∈ lines, IsLine line ∧ IsFrame line := by
    rintro lines _ rfl htexts line hline
    exact htexts line.toList (List.mem_map_of_mem hline)
  apply hlines
  · repeat' first | exact List.map_nil | apply map_toList_cons rfl
  · decide +kernel

theorem linesOf_runtimeText : linesOf runtimeText = runtimeLines :=
  linesOf_intercalate (List.cons_ne_nil _ _) fun line hline => (runtimeLines_frame line hline).1

theorem linesOf_intercalate_blank (piece : String) (pieces : List String) :
    linesOf (String.intercalate "\n\n" (piece :: pieces))
      = linesOf piece ++ pieces.flatMap fun p => "" :: linesOf p := by
  induction pieces generalizing piece with
  | nil => simp
  | cons next pieces ih =>
    rw [String.intercalate_cons_cons, linesOf_append_blank, ih, List.flatMap_cons, List.cons_append]

def importLine : String := "import \x7b i18nSource \x7d from \"./i18n-source\";"

theorem linesOf_runtimeModule (locales : Language.Locales) (catalog : Catalog)
    (languages : List String) :
    linesOf (runtimeModule locales catalog languages)
      = [importLine] ++ (blocks locales catalog languages).flatMap (fun b => "" :: b.lines)
        ++ runtimeLines := by
  have himport : IsLine "import \x7b i18nSource \x7d from \"./i18n-source\";" := by decide
  rw [runtimeModule, linesOf_append_line, linesOf_runtimeText, linesOf_intercalate_blank,
    himport.linesOf_eq]
  simp only [blocks, Block.lines, List.flatMap_cons, List.flatMap_nil, linesOf_languageTable,
    linesOf_languageList, linesOf_missingRecord, linesOf_idTable, linesOf_idList, importLine]

/-- What was written for each item is read back for each. -/
theorem mapM_map_eq_some {α β γ : Type} {write : α → β} {read : β → Option γ} {name : α → γ}
    {items : List α} (h : ∀ a ∈ items, read (write a) = some (name a)) :
    (items.map write).mapM read = some (items.map name) := by
  induction items with
  | nil => rfl
  | cons a items ih =>
    rw [List.map_cons, List.mapM_cons, h a List.mem_cons_self,
      ih fun b hb => h b (List.mem_cons_of_mem a hb)]
    rfl

/-- The module has one declaration for each of its blocks. -/
theorem declares_block {locales : Language.Locales} {catalog : Catalog} {languages : List String}
    {block : Block} (h : block ∈ blocks locales catalog languages) :
    Declares block.head block.opening block.closing
      (linesOf (runtimeModule locales catalog languages)) block.entries := by
  have hnodup : ((blocks locales catalog languages).map (·.head)).Nodup :=
    show heads.Nodup by decide +kernel
  have himport : ∀ line ∈ [importLine], IsFrame line := by decide +kernel
  obtain ⟨before, after, heq⟩ := List.append_of_mem h
  rw [linesOf_runtimeModule, heq]
  rw [heq] at hnodup
  exact Block.declares hnodup himport fun line hline => (runtimeLines_frame line hline).2

end PhraseCatalog.Emit
