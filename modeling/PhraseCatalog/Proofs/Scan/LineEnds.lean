import PhraseCatalog.Proofs.Marker.Leftmost
import PhraseCatalog.Proofs.Scan.Reading

/-! Line ends play no part in a scan: files whose lines end in another way hold the same phrases, and
no phrase holds a carriage return. -/

set_option autoImplicit false

namespace PhraseCatalog

namespace Text

/-! ## Other line ends in a text -/

/-- The two ways to end a line other than by a line feed alone. -/
inductive LineEnd
  | crlf
  | cr

/-- A carriage return that no line feed follows ends a line by itself. -/
theorem unifyLineEnds_cr {s : List Char} (h : '\n' ∉ s) :
    unifyLineEnds ('\r' :: s) = '\n' :: unifyLineEnds s := by
  rw [unifyLineEnds]
  rintro rest rfl
  exact h List.mem_cons_self

namespace LineEnd

def chars : LineEnd → List Char
  | crlf => ['\r', '\n']
  | cr => ['\r']

def bytes : LineEnd → List UInt8
  | crlf => [0x0D, 0x0A]
  | cr => [0x0D]

/-- The text with each line feed as this line end. -/
def inText (lineEnd : LineEnd) (text : List Char) : List Char :=
  text.flatMap fun c => if c = '\n' then lineEnd.chars else [c]

/-- The bytes with each line feed as this line end. -/
def inBytes (lineEnd : LineEnd) (data : List UInt8) : List UInt8 :=
  data.flatMap fun b => if b = 0x0A then lineEnd.bytes else [b]

variable (lineEnd : LineEnd)

theorem encode_chars : Utf8.encode lineEnd.chars = lineEnd.bytes := by
  cases lineEnd <;> rfl

theorem inBytes_of_notMem {data : List UInt8} (h : 0x0A ∉ data) :
    lineEnd.inBytes data = data := by
  induction data with
  | nil => rfl
  | cons b data ih =>
    simp only [List.mem_cons, not_or] at h
    have hrest := ih h.2
    unfold inBytes at hrest ⊢
    rw [List.flatMap_cons, if_neg (Ne.symm h.1), hrest, List.singleton_append]

theorem inBytes_append (data rest : List UInt8) :
    lineEnd.inBytes (data ++ rest) = lineEnd.inBytes data ++ lineEnd.inBytes rest :=
  List.flatMap_append

theorem inText_cons (c : Char) (text : List Char) : lineEnd.inText (c :: text)
    = (if c = '\n' then lineEnd.chars else [c]) ++ lineEnd.inText text := List.flatMap_cons

/-- In an encoded text the line ends can be changed byte by byte. -/
theorem inBytes_encode (text : List Char) :
    lineEnd.inBytes (Utf8.encode text) = Utf8.encode (lineEnd.inText text) := by
  induction text with
  | nil => rfl
  | cons c text ih =>
    rw [Utf8.encode_cons, inBytes_append, ih, inText_cons, Utf8.encode_append]
    congr 1
    by_cases hc : c = '\n'
    · rw [if_pos hc, hc, encode_chars]
      cases lineEnd <;> rfl
    · rw [if_neg hc, lineEnd.inBytes_of_notMem (Utf8.newline_notMem_encodeChar hc)]
      exact (List.append_nil _).symm

theorem newline_notMem_inText (text : List Char) : '\n' ∉ cr.inText text := by
  rw [inText, List.mem_flatMap]
  rintro ⟨c, -, hc⟩
  split at hc
  · simp [chars] at hc
  · rename_i hne
    exact hne (List.mem_singleton.mp hc).symm

/-- A text that is read with other line ends is the text that it was. -/
theorem unifyLineEnds_inText {text : List Char} (h : '\r' ∉ text) :
    unifyLineEnds (lineEnd.inText text) = text := by
  induction text with
  | nil => rfl
  | cons c text ih =>
    simp only [List.mem_cons, not_or] at h
    have hrest := ih h.2
    rw [inText_cons]
    by_cases hc : c = '\n'
    · rw [if_pos hc, hc]
      cases lineEnd with
      | crlf => simp [chars, unifyLineEnds, hrest]
      | cr => rw [chars, List.singleton_append, unifyLineEnds_cr (newline_notMem_inText text), hrest]
    · rw [if_neg hc, List.singleton_append, unifyLineEnds, hrest]
      exact Ne.symm h.1

end LineEnd
end Text

namespace Scan

open Files Text

/-! ## Other line ends in a tree -/

theorem SourceAt.fileAt {tree : Node} {root : String} {names : List String} {content : Content}
    (h : SourceAt tree root names content) :
    tree.fileAt ((Path.ofString root).place ++ names) = some content := by
  obtain ⟨-, hfile⟩ := h
  obtain ⟨node, hnode, hcontent⟩ := Option.bind_eq_some_iff.mp hfile
  rw [Node.fileAt, Node.get?_append, Node.get?_of_named? hnode]
  exact hcontent

theorem sourceAt_mapFiles {change : List String → Content → Content} {tree : Node} {root : String}
    {names : List String} {content' : Content} :
    SourceAt (tree.mapFiles change) root names content'
      ↔ ∃ content, SourceAt tree root names content
          ∧ change ((Path.ofString root).place ++ names) content = content' := by
  unfold SourceAt
  rw [Node.named?_mapFiles]
  cases tree.named? root with
  | none => simp
  | some node => simp [Node.fileAt_mapFiles, and_assoc]

/-- What a file holds, with each line feed as this line end. -/
def respelled (content : Content) : Option LineEnd → Content
  | none => content
  | some lineEnd => .bytes (lineEnd.inBytes content.data)

/-- The tree in which each chosen file has the line end that is chosen for it. -/
def withLineEnds (tree : Node) (choice : List String → Option LineEnd) : Node :=
  tree.mapFiles fun place content => respelled content (choice place)

theorem readText_respelled {content : Content} {text : List Char}
    (hdata : content.data = Utf8.encode text) (htext : '\r' ∉ text) (lineEnd : LineEnd) :
    readText (respelled content (some lineEnd)) = readText content := by
  have hdata' : (respelled content (some lineEnd)).data = Utf8.encode (lineEnd.inText text) := by
    rw [respelled, Content.data, hdata, lineEnd.inBytes_encode]
  rw [readText_eq_ok hdata, readText_eq_ok hdata', lineEnd.unifyLineEnds_inText htext,
    unifyLineEnds_of_not_mem htext]

/-- What the registry finds in a file that is read has no carriage return in it. -/
theorem notMem_of_foundPhrases {text : List Char} {phrase : String}
    (h : phrase ∈ foundPhrases text) : '\r' ∉ phrase.toList := by
  obtain ⟨m, -, hphrase⟩ := List.mem_flatMap.mp h
  obtain ⟨-, p, -, -, hwithin⟩ := Marker.Form.exists_of_mem_phrases hphrase
  intro hmem
  refine not_mem_unifyLineEnds text (hwithin.subset ?_)
  exact List.mem_cons_of_mem _ (List.mem_append_left _ hmem)

/-- Files of text can be given other line ends, each its own: a scan finds the same and reports the
same. No phrase that it finds, in any tree, has a carriage return in it. -/
theorem extractPhrases_ignores_lineEnds (tree : Node) (root : String) :
    (∀ choice, tree.Proper →
        (∀ place content, tree.fileAt place = some content → choice place ≠ none →
          ∃ text, content.data = Utf8.encode text ∧ '\r' ∉ text) →
        extractPhrases (withLineEnds tree choice) root = extractPhrases tree root)
      ∧ ∀ phrases, (extractPhrases tree root).outcome = .ok phrases →
          ∀ phrase ∈ phrases, '\r' ∉ phrase.toList := by
  constructor
  · intro choice h hchosen
    refine extractPhrases_eq_of_readAt h (h.mapFiles _) fun names text => ?_
    have hread : ∀ content, SourceAt tree root names content →
        readText (respelled content (choice ((Path.ofString root).place ++ names)))
          = readText content := by
      intro content hsource
      cases hchoice : choice ((Path.ofString root).place ++ names) with
      | none => rfl
      | some lineEnd =>
        obtain ⟨text, hdata, htext⟩ := hchosen _ content hsource.fileAt (by simp [hchoice])
        exact readText_respelled hdata htext lineEnd
    unfold ReadAt withLineEnds
    simp only [sourceAt_mapFiles]
    constructor
    · rintro ⟨_, ⟨content, hsource, rfl⟩, rfl⟩
      exact ⟨content, hsource, (hread content hsource).symm⟩
    · rintro ⟨content, hsource, rfl⟩
      exact ⟨_, ⟨content, hsource, rfl⟩, hread content hsource⟩
  · intro phrases hok phrase hphrase
    rcases extractPhrases_cases tree root with ⟨texts, -, houtcome⟩ | ⟨e, -, houtcome⟩
    · obtain rfl := Except.ok.inj (houtcome.symm.trans hok)
      rw [List.mem_eraseDups, List.mem_flatMap] at hphrase
      obtain ⟨text, -, hfound⟩ := hphrase
      exact notMem_of_foundPhrases (List.mem_eraseDups.mp hfound)
    · cases houtcome.symm.trans hok

/-- Two files with calls over several lines, and one that is no text. -/
def multilineTree : Node :=
  .dir [("src", .dir [
    ("a.ts", .file (.bytes (Utf8.encode "i18n(\n'one\n\ntwo'\n)\n".toList))),
    ("b.tsx", .file (.bytes (Utf8.encode "i18n\x60\n\x60\n".toList))),
    ("c.txt", .file (.bytes [0xFF, 0x0A]))])]

/-- One line end for the first file of `multilineTree`, another for the second. -/
def mixedLineEnds : List String → Option LineEnd
  | ["src", "a.ts"] => some .crlf
  | ["src", "b.tsx"] => some .cr
  | _ => none

theorem extractPhrases_ignores_lineEnds_mixed :
    multilineTree.Proper
      ∧ (withLineEnds multilineTree mixedLineEnds).fileAt ["src", "a.ts"]
        = some (.bytes (Utf8.encode "i18n(\r\n'one\r\n\r\ntwo'\r\n)\r\n".toList))
      ∧ (withLineEnds multilineTree mixedLineEnds).fileAt ["src", "b.tsx"]
        = some (.bytes (Utf8.encode "i18n\x60\r\x60\r".toList))
      ∧ extractPhrases (withLineEnds multilineTree mixedLineEnds) "src"
        = extractPhrases multilineTree "src" := by
  have hproper : multilineTree.Proper := by
    refine Node.proper_dir (by decide) ?_
    simp only [List.forall_mem_singleton]
    exact Node.proper_dir (by decide) (by simp [Node.proper_file])
  refine ⟨hproper, rfl, rfl,
    (extractPhrases_ignores_lineEnds multilineTree "src").1 mixedLineEnds hproper ?_⟩
  intro place content hfile hchosen
  unfold mixedLineEnds at hchosen
  split at hchosen
  · obtain rfl := Option.some.inj hfile
    exact ⟨_, rfl, by decide⟩
  · obtain rfl := Option.some.inj hfile
    exact ⟨_, rfl, by decide⟩
  · exact absurd rfl hchosen

end Scan
end PhraseCatalog
