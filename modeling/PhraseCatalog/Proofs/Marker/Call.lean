import PhraseCatalog.Proofs.Marker.Search
import PhraseCatalog.Proofs.Text.Pieces

/-! Calls as they are written in source code: the layouts around a quoted argument, the forms that
read each layout, and what a form makes of a text that begins with a call. -/

set_option autoImplicit false

namespace PhraseCatalog.Marker

open Text

/-! ## Written calls -/

/-- What stands around the quoted argument of a call. -/
inductive Layout
  | direct
  | spaced (before after : List Char)
  | trailingComma (before after last : List Char)
  | template
deriving DecidableEq, Repr

namespace Layout

def lead : Layout → List Char
  | direct => ['(']
  | spaced before _ => '(' :: before
  | trailingComma before _ _ => '(' :: before
  | template => []

def trail : Layout → List Char
  | direct => [')']
  | spaced _ after => after ++ [')']
  | trailingComma _ after last => after ++ ',' :: (last ++ [')'])
  | template => []

def blanks : Layout → List Char
  | direct => []
  | spaced before after => before ++ after
  | trailingComma before after last => before ++ after ++ last
  | template => []

theorem isBlank_of_mem_direct : ∀ c ∈ direct.blanks, isBlank c = true := List.all_eq_true.mp rfl

/-- The markers that are called in the layout. -/
def markers : Layout → List String
  | direct => ["i18n", "i18nId", "i18nKey", "i18nObj"]
  | spaced .. | trailingComma .. => ["i18n", "i18nKey", "i18nObj"]
  | template => ["i18n", "i18nId", "i18nObj"]

def quotes : Layout → List Char
  | template => [backQuote]
  | _ => ['"', '\'', backQuote]

end Layout

/-- A call of a marker in a layout that the marker supports. -/
structure Call where
  marker : String
  layout : Layout
  quote : Char
  argument : List Char
  marker_mem : marker ∈ layout.markers
  isBlank_of_mem : ∀ c ∈ layout.blanks, isBlank c = true
  quote_mem : quote ∈ layout.quotes
  argument_ne_nil : argument ≠ []
  quote_not_mem : quote ∉ argument

namespace Call

def text (c : Call) : List Char :=
  c.marker.toList ++ (c.layout.lead ++ c.quote :: (c.argument ++ c.quote :: c.layout.trail))

def phrase (c : Call) : String := String.ofList c.argument

end Call

/-! ## The forms that read a call -/

/-- Whether the shape takes an argument in the layout. -/
def Shape.reads : Shape → Layout → Bool
  | .call, .direct => true
  | .call, .spaced before after => before.isEmpty && after.isEmpty
  | .spacedCall, .direct | .spacedCall, .spaced .. => true
  | .trailingCommaCall, .direct | .trailingCommaCall, .spaced ..
  | .trailingCommaCall, .trailingComma .. => true
  | .template, .template => true
  | _, _ => false

/-- The form takes the call as a whole. -/
def Call.ReadBy (c : Call) (form : Form) : Prop :=
  form.marker = c.marker ∧ form.shape.reads c.layout = true

instance (c : Call) (form : Form) : Decidable (c.ReadBy form) :=
  inferInstanceAs (Decidable (_ ∧ _))

theorem Layout.marker_mem_markers {layout : Layout} {marker : String}
    (h : marker ∈ layout.markers) : marker ∈ Marker.markers := by
  cases layout <;> revert marker <;> simp only [Layout.markers] <;> decide

def Layout.shape : Layout → Shape
  | direct => .call
  | spaced .. => .spacedCall
  | trailingComma .. => .trailingCommaCall
  | template => .template

theorem Layout.reads_shape (layout : Layout) : layout.shape.reads layout = true := by
  cases layout <;> rfl

theorem Layout.ofShape_mem_registry {layout : Layout} {marker : String}
    (h : marker ∈ layout.markers) : .ofShape layout.shape marker ∈ registry := by
  cases layout <;> revert marker <;> simp only [Layout.markers, Layout.shape] <;> decide

theorem Layout.isQuote_of_mem_quotes {layout : Layout} {q : Char} (h : q ∈ layout.quotes) :
    isQuote q = true := by
  cases layout <;> exact List.all_eq_true.mp rfl q h

theorem Call.exists_reader (c : Call) : ∃ m ∈ registry, c.ReadBy m.form :=
  ⟨_, Layout.ofShape_mem_registry c.marker_mem, rfl, c.layout.reads_shape⟩

/-! ## Reading a written argument -/

theorem after?_closing_append {blanks : List Char} (h : ∀ c ∈ blanks, isBlank c = true)
    (s : List Char) :
    after? [')'] (blanks ++ s) = if blanks.isEmpty then after? [')'] s else none := by
  cases blanks with
  | nil => rfl
  | cons c blanks =>
    have hc : ')' ≠ c := by
      rintro rfl
      exact absurd (h _ List.mem_cons_self) (by decide)
    simp [after?, hc]

theorem Shape.argument?_parenthesis {shape : Shape} (hshape : shape ≠ .template) {q : Char}
    {argument before : List Char} (hq : isQuote q = true) (hfree : q ∉ argument)
    (hne : argument ≠ []) (hbefore : ∀ c ∈ before, isBlank c = true) (s : List Char) :
    shape.argument? ('(' :: (before ++ q :: (argument ++ q :: s)))
      = if shape = .call ∧ before ≠ [] then none
        else (after? [')'] (shape.skipBehind s)).map fun rest => (q, argument, rest) := by
  have hopen : after? ['('] ('(' :: (before ++ q :: (argument ++ q :: s)))
      = some (before ++ q :: (argument ++ q :: s)) := rfl
  rw [argument?_of_ne_template hshape, hopen, Option.bind_some]
  -- only a plain call stops at blanks in front of the argument
  by_cases hcall : shape = .call ∧ before ≠ []
  · obtain ⟨rfl, hbefore'⟩ := hcall
    obtain ⟨c, before, rfl⟩ := List.exists_cons_of_ne_nil hbefore'
    have hc := not_isQuote_of_isBlank (hbefore c List.mem_cons_self)
    rw [if_pos ⟨rfl, hbefore'⟩]
    simp [skipBefore, quoted?_cons_of_not_isQuote hc]
  · have hskip : shape.skipBefore (before ++ q :: (argument ++ q :: s))
        = q :: (argument ++ q :: s) := by
      cases shape with
      | call =>
        obtain rfl : before = [] := by simpa using hcall
        rfl
      | template => exact absurd rfl hshape
      | _ => exact trimStart_append hbefore (isBlank_of_isQuote hq) _
    rw [if_neg hcall, hskip, quoted?_append hq hfree, Option.bind_some, Option.map_eq_bind]
    simp only [hne, and_false, if_false]
    rfl

section Closing
variable {shape : Shape} (hshape : shape ≠ .template) {after : List Char}
  (hafter : ∀ c ∈ after, isBlank c = true) (rest : List Char)
include hshape hafter

theorem Shape.after?_skipBehind :
    after? [')'] (shape.skipBehind (after ++ ')' :: rest))
      = if shape = .call ∧ after ≠ [] then none else some rest := by
  have hclose : ∀ {blanks : List Char}, (∀ c ∈ blanks, isBlank c = true) →
      trimStart (blanks ++ ')' :: rest) = ')' :: rest :=
    fun h => trimStart_append h (by decide) rest
  have hnone : ∀ c ∈ ([] : List Char), isBlank c = true := by simp
  cases shape with
  | call =>
    rw [skipBehind, after?_closing_append hafter]
    cases after <;> rfl
  | spacedCall =>
    rw [skipBehind, hclose hafter]
    rfl
  | trailingCommaCall =>
    rw [skipBehind, hclose hafter]
    exact congrArg (after? [')']) (hclose hnone)
  | template => exact absurd rfl hshape

theorem Shape.after?_skipBehind_comma {last : List Char} (hlast : ∀ c ∈ last, isBlank c = true) :
    after? [')'] (shape.skipBehind (after ++ ',' :: (last ++ ')' :: rest)))
      = if shape = .trailingCommaCall then some rest else none := by
  have hcomma : trimStart (after ++ ',' :: (last ++ ')' :: rest))
      = ',' :: (last ++ ')' :: rest) :=
    trimStart_append hafter (by decide) _
  cases shape with
  | call =>
    rw [skipBehind, after?_closing_append hafter]
    cases after <;> rfl
  | spacedCall =>
    rw [skipBehind, hcomma]
    rfl
  | trailingCommaCall =>
    rw [skipBehind, hcomma, skipComma, trimStart_append hlast (by decide)]
    rfl
  | template => exact absurd rfl hshape

end Closing

/-- A shape takes a written argument as a whole, with its closing, or not at all. -/
theorem Shape.argument?_written (shape : Shape) {layout : Layout} {q : Char}
    {argument : List Char} (hblanks : ∀ c ∈ layout.blanks, isBlank c = true)
    (hq : q ∈ layout.quotes) (hne : argument ≠ []) (hfree : q ∉ argument) (rest : List Char) :
    shape.argument? (layout.lead ++ q :: (argument ++ q :: (layout.trail ++ rest)))
      = if shape.reads layout then some (q, argument, rest) else none := by
  have hquote := Layout.isQuote_of_mem_quotes hq
  by_cases hshape : shape = .template
  · subst hshape
    cases layout with
    | template =>
      obtain rfl : q = backQuote := List.mem_singleton.mp hq
      have h := quoted?_append hquote hfree rest
      simp [argument?_template, Layout.lead, Layout.trail, h, hne, reads]
    | _ => rfl
  have hparenthesis : ∀ before, (∀ c ∈ before, isBlank c = true) → _ := fun before hbefore =>
    argument?_parenthesis hshape hquote hfree hne hbefore
  cases layout with
  | direct =>
    have hnone : ∀ c ∈ ([] : List Char), isBlank c = true := by simp
    refine (hparenthesis [] hnone (')' :: rest)).trans ?_
    have hbehind := after?_skipBehind hshape hnone rest
    rw [List.nil_append] at hbehind
    rw [hbehind]
    cases shape <;> first | rfl | exact absurd rfl hshape
  | spaced before after =>
    simp only [Layout.blanks, List.forall_mem_append] at hblanks
    have htrail : (Layout.spaced before after).trail ++ rest = after ++ ')' :: rest := by
      simp [Layout.trail]
    refine (hparenthesis before hblanks.1 _).trans ?_
    rw [htrail, after?_skipBehind hshape hblanks.2]
    cases shape <;> cases before <;> cases after <;> first | rfl | exact absurd rfl hshape
  | trailingComma before after last =>
    simp only [Layout.blanks, List.forall_mem_append] at hblanks
    have htrail : (Layout.trailingComma before after last).trail ++ rest
        = after ++ ',' :: (last ++ ')' :: rest) := by
      simp [Layout.trail]
    refine (hparenthesis before hblanks.1.1 _).trans ?_
    rw [htrail, after?_skipBehind_comma hshape hblanks.1.2 rest hblanks.2]
    cases shape <;> cases before <;> rfl
  | template =>
    obtain rfl : q = backQuote := List.mem_singleton.mp hq
    cases shape <;> first | rfl | exact absurd rfl hshape

/-! ## A call at the beginning of a text -/

namespace Call
variable (c : Call)

theorem text_append (rest : List Char) :
    c.text ++ rest = c.marker.toList
      ++ (c.layout.lead ++ c.quote :: (c.argument ++ c.quote :: (c.layout.trail ++ rest))) := by
  simp [text]

theorem marker_mem_markers : c.marker ∈ markers := Layout.marker_mem_markers c.marker_mem

theorem exists_opener (rest : List Char) : ∃ opener behind, isOpener opener = true
    ∧ c.layout.lead ++ c.quote :: rest = opener :: behind := by
  have hq := c.quote_mem
  cases hlayout : c.layout with
  | template =>
    rw [hlayout] at hq
    exact ⟨c.quote, rest, by simp [isOpener, List.mem_singleton.mp hq], rfl⟩
  | _ => exact ⟨'(', _, rfl, rfl⟩

theorem phrase?_occurrence : Occurrence.phrase? ⟨c.text, c.quote, c.argument⟩ = some c.phrase :=
  if_neg c.argument_ne_nil

/-- At a call a form finds exactly the call, or nothing. -/
theorem match?_text {form : Form} (hmarker : form.marker ∈ markers) (rest : List Char) :
    form.match? (c.text ++ rest)
      = if c.ReadBy form then some ⟨c.text, c.quote, c.argument⟩ else none := by
  have hwritten := form.shape.argument?_written c.isBlank_of_mem c.quote_mem c.argument_ne_nil
    c.quote_not_mem rest
  rw [text_append]
  by_cases hread : c.ReadBy form
  · rw [if_pos hread, Form.match?_eq_some_iff]
    rw [if_pos hread.2] at hwritten
    refine ⟨_, rest, by rw [hread.1], hwritten, ?_⟩
    rw [← text_append, List.length_append, Nat.add_sub_cancel, List.take_left]
  · rw [if_neg hread, Option.eq_none_iff_forall_ne_some]
    intro o ho
    obtain ⟨behind, behindMatch, heq, hfound, -⟩ := Form.match?_eq_some_iff.mp ho
    obtain ⟨opener, s, hopener, rfl⟩ := Shape.opener_of_argument? hfound
    obtain ⟨opener', s', hopener', hlead⟩ :=
      c.exists_opener (c.argument ++ c.quote :: (c.layout.trail ++ rest))
    rw [hlead] at heq hwritten
    obtain ⟨hsame, hbehind⟩ :=
      marker_inj c.marker_mem_markers hmarker hopener' hopener heq
    -- the same marker, and behind it the shape takes the argument after all
    rw [← hbehind, hwritten] at hfound
    split at hfound
    · rename_i hreads
      exact hread ⟨hsame.symm, hreads⟩
    · cases hfound

end Call

end PhraseCatalog.Marker
