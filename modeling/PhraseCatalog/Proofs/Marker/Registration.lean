import PhraseCatalog.Proofs.Marker.Search

/-! Matchers that are registered one after another. What the earlier ones find stays in front, in its
order, and behind it comes what the later ones find and the earlier ones have not; the order of the
matchers decides about the order of the phrases alone. Nothing of this depends on the forms that the
matchers search for, so that it is shown for searches of any kind. -/

set_option autoImplicit false

namespace PhraseCatalog.Marker

open Text

/-! ## Searches of any kind -/

/-- Any search under a name: it lists the captures of each of its matches in a text, where a capture
may have taken no part in the match. The phrase is the capture numbered `group` without its first and
last character. -/
structure Finder where
  name : String
  search : List Char → List (List (Option (List Char)))
  group : Nat

namespace Finder

def capture (f : Finder) (captures : List (Option (List Char))) :
    Except MissingGroup (Option (List Char)) :=
  match captures[f.group]? with
  | some capture => .ok capture
  | none => .error ⟨f.group⟩

/-- The phrases that a search finds, with repetitions. -/
def phrases (f : Finder) (s : List Char) : Except MissingGroup (List String) := do
  let captures ← (f.search s).mapM f.capture
  return captures.filterMap phrase?

/-- The phrases that the searches find in a text, each once, in the order of their discovery. -/
def extract (finders : List Finder) (s : List Char) : Except MissingGroup (List String) := do
  let found ← finders.mapM (·.phrases s)
  return found.flatten.eraseDups

def register (finders : List Finder) (f : Finder) : List Finder := finders ++ [f]

/-- Every match has the capture that holds the phrase. -/
def GroupExists (f : Finder) : Prop := ∀ s, ∀ captures ∈ f.search s, f.group < captures.length

end Finder

/-! ## Matchers as searches -/

def Matcher.finder (m : Matcher) : Finder :=
  ⟨m.name, fun s => (m.form.occurrences s).map fun o => o.captures m.form.shape, m.group⟩

theorem Matcher.phrases_finder (m : Matcher) (s : List Char) :
    m.finder.phrases s = m.phrases s := by
  rw [Finder.phrases, finder, List.mapM_map]
  rfl

/-- Extracting by matchers is extracting by their searches. -/
theorem extract_eq_extract_finders (matchers : List Matcher) (s : List Char) :
    extract matchers s = Finder.extract (matchers.map Matcher.finder) s := by
  have hphrases : (fun f : Finder => f.phrases s) ∘ Matcher.finder = fun m => m.phrases s :=
    funext fun m => m.phrases_finder s
  rw [Finder.extract, List.mapM_map, hphrases]
  rfl

/-- The number of captures of an occurrence, the whole one included. -/
def Shape.captureCount : Shape → Nat
  | .call | .template => 2
  | .spacedCall | .trailingCommaCall => 5

theorem Occurrence.length_captures (o : Occurrence) (shape : Shape) :
    (o.captures shape).length = shape.captureCount := by
  cases shape <;> rfl

theorem Matcher.groupExists_finder {m : Matcher} (h : m.group < m.form.shape.captureCount) :
    m.finder.GroupExists := by
  intro s captures hcaptures
  obtain ⟨o, -, rfl⟩ := List.mem_map.mp hcaptures
  rwa [o.length_captures]

/-! ## Searches one after another -/

namespace Finder

theorem foldl_register (finders more : List Finder) :
    more.foldl register finders = finders ++ more := by
  induction more generalizing finders with
  | nil => rw [List.foldl_nil, List.append_nil]
  | cons f more ih => rw [List.foldl_cons, ih, register, List.append_assoc, List.singleton_append]

/-- Later searches add what is new; the first search that fails decides about the failure. -/
theorem extract_append (finders more : List Finder) (s : List Char) :
    extract (finders ++ more) s = do
      let found ← extract finders s
      let added ← extract more s
      return found ++ added.filter fun phrase => phrase ∉ found := by
  unfold extract
  rw [List.mapM_append]
  cases finders.mapM (·.phrases s) with
  | error missing => rfl
  | ok found =>
    cases more.mapM (·.phrases s) with
    | error missing => rfl
    | ok added =>
      simp only [bind, Except.bind, pure, Except.pure, List.flatten_append, eraseDups_append_eq,
        List.mem_eraseDups]

theorem GroupExists.exists_phrases {f : Finder} (h : f.GroupExists) (s : List Char) :
    ∃ phrases, f.phrases s = .ok phrases := by
  have hcapture : ∀ captures ∈ f.search s,
      f.capture captures = .ok (captures[f.group]?.getD none) := by
    intro captures hmem
    rw [capture, List.getElem?_eq_getElem (h s captures hmem)]
    rfl
  refine ⟨((f.search s).map fun captures => captures[f.group]?.getD none).filterMap phrase?, ?_⟩
  rw [phrases, mapM_ok hcapture]
  rfl

/-- Where the captures exist, extracting finds what some search finds, each phrase once. -/
theorem exists_extract {finders : List Finder} (h : ∀ f ∈ finders, f.GroupExists) (s : List Char) :
    ∃ found, extract finders s = .ok found ∧ found.Nodup
      ∧ ∀ phrase, phrase ∈ found
        ↔ ∃ f ∈ finders, ∃ phrases, f.phrases s = .ok phrases ∧ phrase ∈ phrases := by
  choose! found hfound using fun (f : Finder) (hf : f ∈ finders) => (h f hf).exists_phrases s
  refine ⟨(finders.map found).flatten.eraseDups, ?_, nodup_eraseDups _, fun phrase => ?_⟩
  · rw [extract, mapM_ok hfound]
    rfl
  · rw [List.mem_eraseDups, List.mem_flatten]
    simp only [List.mem_map]
    constructor
    · rintro ⟨_, ⟨f, hf, rfl⟩, hphrase⟩
      exact ⟨f, hf, found f, hfound f hf, hphrase⟩
    · rintro ⟨f, hf, phrases, hphrases, hphrase⟩
      rw [hfound f hf, Except.ok.injEq] at hphrases
      exact ⟨_, ⟨f, hf, rfl⟩, hphrases ▸ hphrase⟩

/-- Searches that are registered behind others only append what is new to what those find, so that
after any number of registrations the earlier phrases stand first and in their order; searches in
another order find the same phrases, each once. Extracting by matchers is the case of searches for
forms, and a search for a form has every capture below the number that its shape has. -/
theorem registered_finders_append {finders more : List Finder}
    (h : ∀ f ∈ finders ++ more, f.GroupExists) (s : List Char) :
    (∃ found added, extract finders s = .ok found ∧ extract more s = .ok added
        ∧ extract (finders ++ more) s = .ok (found ++ added.filter fun phrase => phrase ∉ found)
        ∧ (∃ all, extract (more.foldl register finders) s = .ok all ∧ found <+: all)
        ∧ ∀ reordered, reordered.Perm finders → ∃ all, extract reordered s = .ok all ∧ all.Nodup
          ∧ ∀ phrase, phrase ∈ all ↔ phrase ∈ found)
      ∧ (∀ matchers, Marker.extract matchers s = extract (matchers.map Matcher.finder) s)
      ∧ ∀ m : Matcher, m.group < m.form.shape.captureCount → m.finder.GroupExists := by
  refine ⟨?_, fun matchers => extract_eq_extract_finders matchers s,
    fun m => Matcher.groupExists_finder⟩
  rw [List.forall_mem_append] at h
  obtain ⟨found, hfound, -, hmem⟩ := exists_extract h.1 s
  obtain ⟨added, hadded, -⟩ := exists_extract h.2 s
  have hboth : extract (finders ++ more) s
      = .ok (found ++ added.filter fun phrase => phrase ∉ found) := by
    rw [extract_append, hfound, hadded]
    rfl
  refine ⟨found, added, hfound, hadded, hboth, ?_, fun reordered hperm => ?_⟩
  · rw [foldl_register]
    exact ⟨_, hboth, List.prefix_append _ _⟩
  · obtain ⟨all, hall, hnodup, hmemAll⟩ :=
      exists_extract (fun f hf => h.1 f (hperm.mem_iff.mp hf)) s
    refine ⟨all, hall, hnodup, fun phrase => ?_⟩
    rw [hmemAll, hmem]
    simp only [hperm.mem_iff]

/-- A line whose phrases are found by several matchers, and by a capture inside the quotes. -/
def repeatedLine : List Char := "t('(b)') i18n(\"(a)\") i18n( '(c)' )".toList

def repeatedMatchers : List Matcher :=
  [.ofShape .spacedCall "i18n", ⟨"inner", ⟨"i18n", .spacedCall⟩, 3⟩, .ofShape .call "t"]

theorem registered_finders_append_repeated :
    let finders := [Matcher.finder (.ofShape .call "i18n")]
    let more := repeatedMatchers.map Matcher.finder
    (∀ f ∈ finders ++ more, f.GroupExists)
      ∧ extract finders repeatedLine = .ok ["(a)"]
      ∧ extract more repeatedLine = .ok ["(a)", "(c)", "c", "(b)"]
      ∧ extract (finders ++ more) repeatedLine = .ok ["(a)", "(c)", "c", "(b)"] := by
  intro finders more
  have hgroups : ∀ f ∈ finders ++ more, f.GroupExists := by
    have hmatchers : ∀ m ∈ .ofShape .call "i18n" :: repeatedMatchers,
        m.group < m.form.shape.captureCount := by decide
    intro f hf
    obtain ⟨m, hm, rfl⟩ := List.mem_map.mp
      (show f ∈ (.ofShape .call "i18n" :: repeatedMatchers).map Matcher.finder from hf)
    exact Matcher.groupExists_finder (hmatchers m hm)
  obtain ⟨⟨found, added, hfound, hadded, hboth, -⟩, -⟩ :=
    registered_finders_append hgroups repeatedLine
  have hfirst : extract finders repeatedLine = .ok ["(a)"] := by rfl
  have hsecond : extract more repeatedLine = .ok ["(a)", "(c)", "c", "(b)"] := by rfl
  obtain rfl := Except.ok.inj (hfirst.symm.trans hfound)
  obtain rfl := Except.ok.inj (hsecond.symm.trans hadded)
  exact ⟨hgroups, hfirst, hsecond, hboth⟩

end Finder
end PhraseCatalog.Marker
