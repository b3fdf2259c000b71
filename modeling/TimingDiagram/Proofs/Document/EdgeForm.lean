import TimingDiagram.Proofs.Document.Parts
import TimingDiagram.Proofs.Basic

namespace TimingDiagram

theorem Course.isBlank_of_mem_text (course : Course) :
    ∀ d ∈ course.text.toList, Text.isBlank d = false := by
  cases course <;> simp [text, Text.isBlank]

namespace Connector

-- The connectors and how each is written.
def table : List (String × Connector) :=
  [("-", ⟨.straight, .none⟩), ("->", ⟨.straight, .target⟩),
    ("~", ⟨.curve, .none⟩), ("~>", ⟨.curve, .target⟩),
    ("-~", ⟨.curveOut, .none⟩), ("-~>", ⟨.curveOut, .target⟩),
    ("~-", ⟨.curveIn, .none⟩), ("~->", ⟨.curveIn, .target⟩),
    ("-|", ⟨.acrossDown, .none⟩), ("-|>", ⟨.acrossDown, .target⟩),
    ("|-", ⟨.downAcross, .none⟩), ("|->", ⟨.downAcross, .target⟩),
    ("-|-", ⟨.step, .none⟩), ("-|->", ⟨.step, .target⟩),
    ("<->", ⟨.straight, .both⟩), ("<~>", ⟨.curve, .both⟩), ("<-~>", ⟨.curveOut, .both⟩),
    ("<-|>", ⟨.acrossDown, .both⟩), ("<-|->", ⟨.step, .both⟩)]

theorem table_eq : table = all.map fun c => (c.text, c) := by decide

theorem lookup_map_text (connectors : List Connector) (s : String) :
    (connectors.map fun c => (c.text, c)).lookup s = connectors.find? fun c => c.text == s := by
  induction connectors with
  | nil => rfl
  | cons c rest ih => rw [List.map_cons, List.lookup_cons, List.find?_cons, ih, BEq.comm]

theorem ofText?_eq_lookup (s : String) : ofText? s = table.lookup s := by
  rw [table_eq, lookup_map_text, ofText?]

-- Each connector is read back from its own text.
theorem ofText?_text {c : Connector} (hc : c ∈ all) : ofText? c.text = some c := by
  have hall : ∀ c ∈ all, ofText? c.text = some c := by decide
  exact hall c hc

theorem mem_all_of_ofText? {s : String} {c : Connector} (h : ofText? s = some c) : c ∈ all :=
  List.mem_of_find?_eq_some h

theorem isBlank_of_mem_text (c : Connector) : ∀ d ∈ c.text.toList, Text.isBlank d = false := by
  obtain ⟨course, heads⟩ := c
  have hcourse := course.isBlank_of_mem_text
  have hleft : Text.isBlank '<' = false := rfl
  have hright : Text.isBlank '>' = false := rfl
  cases heads with
  | none => exact hcourse
  | target => simpa [text, or_imp, forall_and, hright] using hcourse
  | both => simpa [text, or_imp, forall_and, hleft, hright] using hcourse

end Connector

namespace Document

-- A text in three parts: the blanks in front of an edge, its first word and what follows the word.
structure EdgeCut (text indent word rest : List Char) : Prop where
  text_eq : text = indent ++ (word ++ rest)
  indent_blank : ∀ c ∈ indent, c ∈ [' ', '\t', '\r', '\n']
  indent_stops : ∀ c ∈ (word ++ rest).head?, c ∉ [' ', '\t', '\r', '\n']
  word_plain : ∀ c ∈ word, Text.isBlank c = false
  word_stops : ∀ c ∈ rest.head?, Text.isBlank c = true

theorem isIndent_iff (c : Char) : isIndent c = true ↔ c ∈ [' ', '\t', '\r', '\n'] := by
  simp [isIndent, or_assoc]

theorem isBlank_of_isIndent {c : Char} (hc : isIndent c = true) : Text.isBlank c = true := by
  have hall : ∀ c ∈ [' ', '\t', '\r', '\n'], Text.isBlank c = true := by simp [Text.isBlank]
  exact hall c ((isIndent_iff c).mp hc)

theorem exists_edgeCut (text : List Char) :
    ∃ indent word rest, EdgeCut text indent word rest := by
  let behind := text.dropWhile isIndent
  refine ⟨text.takeWhile isIndent, behind.takeWhile (!Text.isBlank ·),
    behind.dropWhile (!Text.isBlank ·), ?_, ?_, ?_, ?_, ?_⟩
  · rw [List.takeWhile_append_dropWhile, List.takeWhile_append_dropWhile]
  · exact fun c hc => (isIndent_iff c).mp (List.mem_takeWhile_imp hc)
  · intro c hc hindent
    rw [List.takeWhile_append_dropWhile] at hc
    rw [← isIndent_iff, Text.head_dropWhile isIndent text c hc] at hindent
    cases hindent
  · intro c hc
    simpa using List.mem_takeWhile_imp hc
  · intro c hc
    simpa using Text.head_dropWhile _ behind c hc

namespace EdgeCut

variable {text indent word rest : List Char}

theorem dropWhile_isIndent (h : EdgeCut text indent word rest) :
    text.dropWhile isIndent = word ++ rest := by
  rw [h.text_eq]
  refine Text.dropWhile_append_eq (fun c hc => (isIndent_iff c).mpr (h.indent_blank c hc)) ?_
  exact fun c hc => Bool.eq_false_iff.mpr (mt (isIndent_iff c).mp (h.indent_stops c hc))

theorem takeWhile_word (h : EdgeCut text indent word rest) :
    (word ++ rest).takeWhile (!Text.isBlank ·) = word :=
  Text.takeWhile_append_eq (fun c hc => by simp [h.word_plain c hc])
    fun c hc => by simp [h.word_stops c hc]

theorem dropWhile_word (h : EdgeCut text indent word rest) :
    (word ++ rest).dropWhile (!Text.isBlank ·) = rest :=
  Text.dropWhile_append_eq (fun c hc => by simp [h.word_plain c hc])
    fun c hc => by simp [h.word_stops c hc]

-- The word is missing exactly if what stands behind the indent is a blank or nothing.
theorem word_eq_nil_iff (h : EdgeCut text indent word rest) :
    word = [] ↔ word ++ rest = [] ∨ ∃ c ∈ (word ++ rest).head?, Text.isBlank c = true := by
  cases word with
  | nil =>
      cases hrest : rest with
      | nil => simp
      | cons c others =>
          have hblank := h.word_stops c (by rw [hrest]; rfl)
          simp [hblank]
  | cons c others => simp [h.word_plain c List.mem_cons_self]

theorem ofText?_nil {text : String} (h : EdgeCut text.toList indent [] rest) :
    EdgeText.ofText? text = none := by
  have htake := h.takeWhile_word
  rw [← h.dropWhile_isIndent] at htake
  rw [EdgeText.ofText?, htake]

theorem ofText?_cons {text : String} {first : Char} {others : List Char}
    (h : EdgeCut text.toList indent (first :: others) rest) :
    EdgeText.ofText? text = some
      { source := first
        target := others.getLastD first
        between := String.ofList others.dropLast
        label := if rest.tail = [] then none else some (String.ofList rest.tail) } := by
  have htake := h.takeWhile_word
  have hdrop := h.dropWhile_word
  rw [← h.dropWhile_isIndent] at htake hdrop
  rw [EdgeText.ofText?, htake, hdrop]
  simp only [List.drop_one, List.isEmpty_iff]

end EdgeCut

theorem connector_eq (path : Path) (between : String) :
    connector path between =
      ⟨(Connector.table.lookup between).getD {},
        if between = "" ∨ (Connector.table.lookup between).isSome then []
        else [.unknownConnector path between]⟩ := by
  rw [← Connector.ofText?_eq_lookup, connector]
  by_cases hempty : between = ""
  · subst hempty
    have hnone : Connector.ofText? "" = none := by decide
    rw [hnone, if_pos (Or.inl rfl)]
    rfl
  · rw [if_neg (by simpa using hempty)]
    cases Connector.ofText? between with
    | some c => simp [pure]
    | none =>
        rw [if_neg (by simp [hempty])]
        rfl

theorem edge_of_ofText?_none (path : Path) {text : String} (h : EdgeText.ofText? text = none) :
    edge path text = ⟨none, [.malformedEdge path text]⟩ := by
  rw [edge, h]
  rfl

theorem edge_of_ofText?_some (path : Path) {text : String} {e : EdgeText}
    (h : EdgeText.ofText? text = some e) :
    edge path text =
      ⟨some ⟨e.source, e.target, (connector path e.between).value, e.label⟩,
        (connector path e.between).problems⟩ := by
  rw [edge, h]
  exact congrArg (Noted.mk _) (List.append_nil _)

-- An edge as it is written, in three parts.
theorem edgeCut_written {source target : Char} (hsource : Text.isBlank source = false)
    (htarget : Text.isBlank target = false) (c : Connector) (label : String) :
    EdgeCut s!"{source}{c.text}{target} {label}".toList []
      (source :: (c.text.toList ++ [target])) (' ' :: label.toList) := by
  constructor
  · simp [toString]
  · simp
  · intro first hfirst hindent
    obtain rfl : source = first := Option.some.inj hfirst
    rw [← isIndent_iff] at hindent
    rw [isBlank_of_isIndent hindent] at hsource
    cases hsource
  · intro d hd
    rcases List.mem_cons.mp hd with rfl | hd
    · exact hsource
    · rcases List.mem_append.mp hd with hd | hd
      · exact c.isBlank_of_mem_text d hd
      · rw [List.mem_singleton.mp hd]
        exact htarget
  · rintro d ⟨⟩
    rfl

-- An edge is read by its form: there is none if its word is missing, and that is the only error;
-- else the ends, the connector and the label stand where the form says, and a connector that is
-- not in the table is noted. So each edge is read back as it was written.
theorem edge_reads_form :
    (∀ text, ∃ indent word rest, EdgeCut text indent word rest) ∧
    (∀ (path : Path) (text : String) (indent word rest : List Char),
      EdgeCut text.toList indent word rest →
      ((edge path text).value = none ↔
        word ++ rest = [] ∨ ∃ c ∈ (word ++ rest).head?, Text.isBlank c) ∧
      ((edge path text).value = none → (edge path text).problems = [.malformedEdge path text]) ∧
      ∀ hword : word ≠ [],
        let between := String.ofList word.tail.dropLast
        let known := Connector.table.lookup between
        edge path text =
          ⟨some ⟨word.head hword, word.getLast hword, known.getD {},
              if rest.tail = [] then none else some (String.ofList rest.tail)⟩,
            if between = "" ∨ known.isSome then [] else [.unknownConnector path between]⟩) ∧
    (∀ (path : Path) (text : String), (Problem.malformedEdge path text).kind.code = "E200" ∧
      (Problem.unknownConnector path text).kind.code = "W200") ∧
    ∀ (path : Path) (source target : Char) (shape : String) (c : Connector) (label : String),
      Text.isBlank source = false → Text.isBlank target = false →
      Connector.ofText? shape = some c → label ≠ "" →
        edge path s!"{source}{c.text}{target} {label}" =
          ⟨some ⟨source, target, c, some label⟩, []⟩ := by
  refine ⟨exists_edgeCut, ?_, fun _ _ => ⟨rfl, rfl⟩, ?_⟩
  · intro path text indent word rest hcut
    rw [← hcut.word_eq_nil_iff]
    cases word with
    | nil =>
        rw [edge_of_ofText?_none path hcut.ofText?_nil]
        exact ⟨by simp, fun _ => rfl, fun hword => absurd rfl hword⟩
    | cons first others =>
        rw [edge_of_ofText?_some path hcut.ofText?_cons, connector_eq]
        refine ⟨by simp, by simp, fun hword => ?_⟩
        rw [List.getLast_eq_getLastD]
        rfl
  · intro path source target shape c label hsource htarget hshape hlabel
    have hknown : Connector.table.lookup c.text = some c := by
      rw [← Connector.ofText?_eq_lookup]
      exact Connector.ofText?_text (Connector.mem_all_of_ofText? hshape)
    rw [edge_of_ofText?_some path (edgeCut_written hsource htarget c label).ofText?_cons,
      connector_eq]
    simp [hknown, hlabel]

-- A connector that is not known, in front of a label behind a wide blank; and ends that look like
-- arrowheads.
theorem edge_reads_form_arrows :
    let path : Path := [.member "edge", .item 0]
    EdgeCut "\n a=>b\u2003 x".toList ['\n', ' '] ['a', '=', '>', 'b'] ['\u2003', ' ', 'x'] ∧
      edge path "\n a=>b\u2003 x" =
        ⟨some ⟨'a', 'b', {}, some " x"⟩, [.unknownConnector path "=>"]⟩ ∧
      edge path "<-> x" = ⟨some ⟨'<', '>', {}, some "x"⟩, []⟩ := by
  intro path
  have hcut : EdgeCut "\n a=>b\u2003 x".toList ['\n', ' '] ['a', '=', '>', 'b']
      ['\u2003', ' ', 'x'] := by
    constructor <;> simp [Text.isBlank]
  have hunknown := (edge_reads_form.2.1 path _ _ _ _ hcut).2.2 (by decide)
  have hprinted := edge_reads_form.2.2.2 path '<' '>' "-" {} "x" (by decide) (by decide)
    (by decide) (by decide)
  exact ⟨hcut, hunknown, hprinted⟩

end Document

end TimingDiagram
