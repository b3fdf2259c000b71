import Mathlib
import TimingDiagram.Markup.Svg

namespace TimingDiagram.Svg

-- What a reader of markup comes across: a character of text, and where an element starts and ends.
inductive Event where
  | char (c : Char)
  | start (tag : String) (attrs : List (String × String))
  | finish (tag : String)
deriving DecidableEq, Repr

-- Puts the characters back that cannot stand for themselves.
def unescape : List Char → List Char
  | '&' :: 'a' :: 'm' :: 'p' :: ';' :: rest => '&' :: unescape rest
  | '&' :: 'l' :: 't' :: ';' :: rest => '<' :: unescape rest
  | '&' :: 'g' :: 't' :: ';' :: rest => '>' :: unescape rest
  | '&' :: 'q' :: 'u' :: 'o' :: 't' :: ';' :: rest => '"' :: unescape rest
  | '&' :: 'a' :: 'p' :: 'o' :: 's' :: ';' :: rest => '\'' :: unescape rest
  | c :: rest => c :: unescape rest
  | [] => []

-- Where a reader stands, with the characters it has seen since it came there: in text, in the name
-- of an element that starts or ends, in the name or the value of an attribute, between the two,
-- behind a value, or behind the slash of an element without children.
inductive Reading where
  | text (seen : List Char)
  | starting (seen : List Char)
  | finishing (seen : List Char)
  | naming (tag : String) (attrs : List (String × String)) (seen : List Char)
  | assigned (tag : String) (attrs : List (String × String)) (name : String)
  | value (tag : String) (attrs : List (String × String)) (name : String) (seen : List Char)
  | behindValue (tag : String) (attrs : List (String × String))
  | behindSlash (tag : String) (attrs : List (String × String))

def chars (seen : List Char) : List Event := (unescape seen).map .char

-- Reads one character.
def Reading.step : Reading → Char → Option (Reading × List Event)
  | text seen, c =>
    if c = '<' then some (starting [], chars seen) else some (text (seen ++ [c]), [])
  | starting seen, c =>
    if c = ' ' then some (naming (String.ofList seen) [] [], [])
    else if c = '>' then some (text [], [.start (String.ofList seen) []])
    else if c = '/' then
      some (if seen = [] then finishing [] else behindSlash (String.ofList seen) [], [])
    else some (starting (seen ++ [c]), [])
  | finishing seen, c =>
    if c = '>' then some (text [], [.finish (String.ofList seen)])
    else some (finishing (seen ++ [c]), [])
  | naming tag attrs seen, c =>
    if c = '=' then some (assigned tag attrs (String.ofList seen), [])
    else some (naming tag attrs (seen ++ [c]), [])
  | assigned tag attrs name, c => if c = '"' then some (value tag attrs name [], []) else none
  | value tag attrs name seen, c =>
    if c = '"' then
      some (behindValue tag (attrs ++ [(name, String.ofList (unescape seen))]), [])
    else some (value tag attrs name (seen ++ [c]), [])
  | behindValue tag attrs, c =>
    if c = ' ' then some (naming tag attrs [], [])
    else if c = '>' then some (text [], [.start tag attrs])
    else if c = '/' then some (behindSlash tag attrs, [])
    else none
  | behindSlash tag attrs, c =>
    if c = '>' then some (text [], [.start tag attrs, .finish tag]) else none

-- Reads on from some place, up to another one.
def read (r : Reading) : List Char → Option (Reading × List Event)
  | [] => some (r, [])
  | c :: rest => do
    let (next, events) ← r.step c
    let (last, more) ← read next rest
    return (last, events ++ more)

-- Reads a whole text.
def scan (cs : List Char) : Option (List Event) :=
  match read (.text []) cs with
  | some (.text seen, events) => some (events ++ chars seen)
  | _ => none

theorem read_append {r next last : Reading} {front back : List Char} {events more : List Event}
    (hfront : read r front = some (next, events)) (hback : read next back = some (last, more)) :
    read r (front ++ back) = some (last, events ++ more) := by
  induction front generalizing r events with
  | nil =>
      cases hfront
      exact hback
  | cons c rest ih =>
      obtain ⟨⟨r', first⟩, hstep, hfront⟩ := Option.bind_eq_some_iff.mp hfront
      obtain ⟨⟨r'', others⟩, hrest, hfront⟩ := Option.bind_eq_some_iff.mp hfront
      cases hfront
      rw [List.cons_append, read, hstep, List.append_assoc]
      simp only [Option.bind_eq_bind, Option.bind_some, ih hrest]
      rfl

theorem read_cons {r next last : Reading} {c : Char} {rest : List Char} {events more : List Event}
    (hstep : r.step c = some (next, events)) (hrest : read next rest = some (last, more)) :
    read r (c :: rest) = some (last, events ++ more) := by
  rw [read, hstep]
  simp only [Option.bind_eq_bind, Option.bind_some, hrest]
  rfl

theorem read_singleton {r next : Reading} {c : Char} {events : List Event}
    (hstep : r.step c = some (next, events)) : read r [c] = some (next, events) := by
  rw [← List.append_nil events]
  exact read_cons hstep rfl

-- Characters that end nothing are only kept.
theorem read_seen {place : List Char → Reading} {cs : List Char}
    (h : ∀ c ∈ cs, ∀ seen, (place seen).step c = some (place (seen ++ [c]), []))
    (seen : List Char) : read (place seen) cs = some (place (seen ++ cs), []) := by
  induction cs generalizing seen with
  | nil => rw [read, List.append_nil]
  | cons c rest ih =>
      obtain ⟨hc, hrest⟩ := List.forall_mem_cons.mp h
      have hread := read_cons (hc seen) (ih hrest (seen ++ [c]))
      rwa [List.append_assoc] at hread

theorem read_seen_nil {place : List Char → Reading} {cs : List Char}
    (h : ∀ c ∈ cs, ∀ seen, (place seen).step c = some (place (seen ++ [c]), [])) :
    read (place []) cs = some (place cs, []) := by
  have hread := read_seen h []
  rwa [List.nil_append] at hread

section Escape

theorem unescape_cons {c : Char} (hc : c ≠ '&') (rest : List Char) :
    unescape (c :: rest) = c :: unescape rest := by
  conv_lhs => unfold unescape
  split <;> simp_all

theorem unescape_escapeChar (c : Char) (rest : List Char) :
    unescape (escapeChar c ++ rest) = c :: unescape rest := by
  unfold escapeChar
  split
  · rfl
  · rfl
  · rfl
  · rename_i hamp _ _
    exact unescape_cons hamp rest

theorem unescape_escapeQuotedChar (c : Char) (rest : List Char) :
    unescape (escapeQuotedChar c ++ rest) = c :: unescape rest := by
  unfold escapeQuotedChar
  split
  · rfl
  · rfl
  · exact unescape_escapeChar c rest

theorem unescape_flatMap {escaped : Char → List Char}
    (h : ∀ c rest, unescape (escaped c ++ rest) = c :: unescape rest) (cs : List Char) :
    unescape (cs.flatMap escaped) = cs := by
  induction cs with
  | nil => rfl
  | cons c rest ih => rw [List.flatMap_cons, h, ih]

-- Escaping loses nothing.
theorem unescape_escape (s : String) : unescape (escape s).toList = s.toList := by
  rw [escape, String.toList_ofList, unescape_flatMap unescape_escapeChar]

theorem unescape_escapeQuoted (s : String) : unescape (escapeQuoted s).toList = s.toList := by
  rw [escapeQuoted, String.toList_ofList, unescape_flatMap unescape_escapeQuotedChar]

theorem ne_of_mem_escapeChar (c : Char) : ∀ d ∈ escapeChar c, d ≠ '<' ∧ d ≠ '>' := by
  unfold escapeChar
  split
  · simp
  · simp
  · simp
  · rename_i hless hgreater
    simpa using ⟨hless, hgreater⟩

theorem ne_of_mem_escapeQuotedChar (c : Char) :
    ∀ d ∈ escapeQuotedChar c, d ≠ '<' ∧ d ≠ '>' ∧ d ≠ '"' ∧ d ≠ '\'' := by
  unfold escapeQuotedChar
  split
  · simp
  · simp
  · rename_i hdouble hsingle
    unfold escapeChar
    split
    · simp
    · simp
    · simp
    · rename_i hless hgreater
      simpa using ⟨hless, hgreater, hdouble, hsingle⟩

-- No tag starts or ends in an escaped text, and no value ends in one between quotes.
theorem ne_of_mem_escape {s : String} {c : Char} (h : c ∈ (escape s).toList) :
    c ≠ '<' ∧ c ≠ '>' := by
  rw [escape, String.toList_ofList] at h
  obtain ⟨d, -, hc⟩ := List.mem_flatMap.mp h
  exact ne_of_mem_escapeChar d c hc

theorem ne_of_mem_escapeQuoted {s : String} {c : Char} (h : c ∈ (escapeQuoted s).toList) :
    c ≠ '<' ∧ c ≠ '>' ∧ c ≠ '"' ∧ c ≠ '\'' := by
  rw [escapeQuoted, String.toList_ofList] at h
  obtain ⟨d, -, hc⟩ := List.mem_flatMap.mp h
  exact ne_of_mem_escapeQuotedChar d c hc

end Escape

-- A name that no tag is cut at.
def IsName (name : String) : Prop :=
  name.toList ≠ [] ∧ name.toList.all (fun c => c != ' ' && c != '>' && c != '/' && c != '=')

instance : DecidablePred IsName := fun name =>
  inferInstanceAs (Decidable (name.toList ≠ [] ∧
    name.toList.all (fun c => c != ' ' && c != '>' && c != '/' && c != '=')))

theorem IsName.ne {name : String} (h : IsName name) {c : Char} (hc : c ∈ name.toList) :
    c ≠ ' ' ∧ c ≠ '>' ∧ c ≠ '/' ∧ c ≠ '=' := by
  have hall := List.all_eq_true.mp h.2 c hc
  simp only [Bool.and_eq_true, bne_iff_ne, and_assoc] at hall
  exact hall

-- The attributes of an element as they are written.
def byName (attrs : List (String × String)) : List (String × String) :=
  attrs.mergeSort fun a b => a.1 ≤ b.1

theorem byName_perm (attrs : List (String × String)) : (byName attrs).Perm attrs :=
  List.mergeSort_perm attrs _

theorem pairwise_byName (attrs : List (String × String)) :
    (byName attrs).Pairwise fun a b => a.1 ≤ b.1 := by
  have hsorted : (byName attrs).Pairwise fun a b => decide (a.1 ≤ b.1) :=
    List.pairwise_mergeSort
      (fun a b c hab hbc => by
        simpa using le_trans (of_decide_eq_true hab) (of_decide_eq_true hbc))
      (fun a b => by simpa using le_total a.1 b.1) attrs
  exact hsorted.imp of_decide_eq_true

-- What a reader can go on with behind the name of an element and some attributes.
structure Behind (tag : String) (attrs : List (String × String)) (r : Reading) : Prop where
  space : r.step ' ' = some (.naming tag attrs [], [])
  close : r.step '>' = some (.text [], [.start tag attrs])
  slash : r.step '/' = some (.behindSlash tag attrs, [])

section Tags

variable {tag : String} {attrs : List (String × String)}

theorem behind_starting (h : IsName tag) : Behind tag [] (.starting tag.toList) := by
  constructor
  · simp [Reading.step]
  · simp [Reading.step]
  · simp [Reading.step, h.1]

theorem behind_behindValue : Behind tag attrs (.behindValue tag attrs) := by
  constructor <;> simp [Reading.step]

theorem read_starting (h : IsName tag) :
    read (.starting []) tag.toList = some (.starting tag.toList, []) :=
  read_seen_nil fun c hc seen => by
    obtain ⟨hspace, hclose, hslash, -⟩ := h.ne hc
    simp [Reading.step, hspace, hclose, hslash]

theorem read_finishing (h : IsName tag) :
    read (.finishing []) (tag.toList ++ ['>']) = some (.text [], [.finish tag]) := by
  have hname : read (.finishing []) tag.toList = some (.finishing tag.toList, []) :=
    read_seen_nil fun c hc seen => by simp [Reading.step, (h.ne hc).2.1]
  exact read_append hname (read_singleton (by simp [Reading.step]))

theorem read_attribute {r : Reading} {name : String} (h : Behind tag attrs r)
    (hname : IsName name) (value : String) :
    read r (" " ++ name ++ "=\"" ++ escapeQuoted value ++ "\"").toList =
      some (.behindValue tag (attrs ++ [(name, value)]), []) := by
  have hnaming : read (.naming tag attrs []) name.toList =
      some (.naming tag attrs name.toList, []) :=
    read_seen_nil fun c hc seen => by simp [Reading.step, (hname.ne hc).2.2.2]
  have hvalue : read (.value tag attrs name []) (escapeQuoted value).toList =
      some (.value tag attrs name (escapeQuoted value).toList, []) :=
    read_seen_nil fun c hc seen => by simp [Reading.step, (ne_of_mem_escapeQuoted hc).2.2.1]
  have hquote : read (.value tag attrs name (escapeQuoted value).toList) ['"'] =
      some (.behindValue tag (attrs ++ [(name, value)]), []) :=
    read_singleton (by simp [Reading.step, unescape_escapeQuoted])
  have hequals : read (.naming tag attrs name.toList) ['=', '"'] =
      some (.value tag attrs name [], []) := by
    simp [read, Reading.step]
  -- a space, the name, the equals sign with the first quote, the value, and the second quote
  have hread := read_append (read_append (read_append (read_append
    (read_singleton h.space) hnaming) hequals) hvalue) hquote
  simpa using hread

theorem read_attributes {r : Reading} {added : List (String × String)} (h : Behind tag attrs r)
    (hnames : ∀ a ∈ added, IsName a.1) :
    ∃ next, read r (String.join (added.map fun (name, value) =>
        " " ++ name ++ "=\"" ++ escapeQuoted value ++ "\"")).toList = some (next, []) ∧
      Behind tag (attrs ++ added) next := by
  induction added generalizing r attrs with
  | nil =>
      refine ⟨r, ?_, by simpa using h⟩
      simp [read]
  | cons a rest ih =>
      obtain ⟨ha, hrest⟩ := List.forall_mem_cons.mp hnames
      obtain ⟨next, hread, hbehind⟩ := ih behind_behindValue hrest
      refine ⟨next, ?_, ?_⟩
      · have hfirst := read_append (read_attribute h ha a.2) hread
        simpa using hfirst
      · rwa [List.append_assoc] at hbehind

end Tags

mutual

-- What a reader comes across in the text of a node. Lines are broken where the text breaks them.
def eventsOf : Node → List Event
  | .element tag attrs children =>
    .start tag (byName attrs) :: (eventsIn children
      ++ (if children.isEmpty || endsInline children then [] else [.char '\n']) ++ [.finish tag])
  | .text s => s.toList.map .char
  | .raw markup => (scan markup.toList).getD []

def eventsIn : List Node → List Event
  | [] => []
  | n :: rest => (if isInline n then [] else [.char '\n']) ++ eventsOf n ++ eventsIn rest

end

mutual

-- Whether a node can be read at all: its names are names, and markup that is taken over consists of
-- whole elements.
def IsReadable : Node → Prop
  | .element tag attrs children =>
    IsName tag ∧ (∀ a ∈ attrs, IsName a.1) ∧ AreReadable children
  | .text _ => True
  | .raw markup => ∃ rest events, markup.toList = '<' :: rest ∧
    read (.starting []) rest = some (.text [], events)

def AreReadable : List Node → Prop
  | [] => True
  | n :: rest => IsReadable n ∧ AreReadable rest

end

section Nodes

theorem areReadable_iff (nodes : List Node) : AreReadable nodes ↔ ∀ n ∈ nodes, IsReadable n := by
  induction nodes with
  | nil => simp [AreReadable]
  | cons n rest ih => rw [AreReadable, ih, List.forall_mem_cons]

-- Where a reader comes from text it has not given yet, it gives this text first. What it has seen
-- of text is kept as it was escaped, so that it can be put together in any pieces.
def ReadsFrom (cs : List Char) (events : List Event) : Prop :=
  ∀ front : List Char, ∃ (back : List Char) (given : List Event),
    read (.text (front.flatMap escapeChar)) cs = some (.text (back.flatMap escapeChar), given) ∧
    given ++ back.map .char = front.map .char ++ events

theorem ReadsFrom.append {cs ds : List Char} {events more : List Event} (hcs : ReadsFrom cs events)
    (hds : ReadsFrom ds more) : ReadsFrom (cs ++ ds) (events ++ more) := by
  intro front
  obtain ⟨middle, given, hread, hgiven⟩ := hcs front
  obtain ⟨back, others, hothers, hback⟩ := hds middle
  refine ⟨back, given ++ others, read_append hread hothers, ?_⟩
  rw [List.append_assoc, hback, ← List.append_assoc, hgiven, List.append_assoc]

theorem readsFrom_nil : ReadsFrom [] [] := fun front => ⟨front, [], rfl, by simp⟩

theorem readsFrom_chars (cs : List Char) : ReadsFrom (cs.flatMap escapeChar) (cs.map .char) := by
  intro front
  have hkept : ∀ c ∈ cs.flatMap escapeChar, ∀ seen,
      (Reading.text seen).step c = some (.text (seen ++ [c]), []) := by
    intro c hc seen
    obtain ⟨d, -, hd⟩ := List.mem_flatMap.mp hc
    simp [Reading.step, (ne_of_mem_escapeChar d c hd).1]
  refine ⟨front ++ cs, [], ?_, by simp⟩
  rw [List.flatMap_append]
  exact read_seen hkept _

-- A tag gives the text in front of it and then what it is itself.
theorem readsFrom_tag {cs : List Char} {events : List Event}
    (h : read (.starting []) cs = some (.text [], events)) : ReadsFrom ('<' :: cs) events := by
  intro front
  have hstep : (Reading.text (front.flatMap escapeChar)).step '<' =
      some (.starting [], front.map .char) := by
    simp [Reading.step, chars, unescape_flatMap unescape_escapeChar]
  exact ⟨[], _, read_cons hstep h, by simp⟩

theorem scan_of_readsFrom {cs : List Char} {events : List Event} (h : ReadsFrom cs events) :
    scan cs = some events := by
  obtain ⟨back, given, hread, hgiven⟩ := h []
  rw [List.flatMap_nil] at hread
  rw [scan, hread]
  simpa [chars, unescape_flatMap unescape_escapeChar] using hgiven

section Element

variable {tag : String} {attrs : List (String × String)}

theorem read_heading (htag : IsName tag) (hattrs : ∀ a ∈ attrs, IsName a.1) :
    ∃ next, read (.starting []) (tag ++ attributes attrs).toList = some (next, []) ∧
      Behind tag (byName attrs) next := by
  have hsorted : ∀ a ∈ byName attrs, IsName a.1 := fun a ha =>
    hattrs a ((byName_perm attrs).mem_iff.mp ha)
  obtain ⟨next, hread, hbehind⟩ := read_attributes (behind_starting htag) hsorted
  refine ⟨next, ?_, hbehind⟩
  rw [String.toList_append]
  exact read_append (read_starting htag) hread

theorem readsFrom_empty (htag : IsName tag) (hattrs : ∀ a ∈ attrs, IsName a.1) :
    ReadsFrom ("<" ++ tag ++ attributes attrs ++ "/>").toList
      [.start tag (byName attrs), .finish tag] := by
  obtain ⟨next, hread, hbehind⟩ := read_heading htag hattrs
  have hslash : read next ['/', '>'] =
      some (.text [], [.start tag (byName attrs), .finish tag]) :=
    read_cons hbehind.slash (read_singleton (by simp [Reading.step]))
  have htagged := readsFrom_tag (read_append hread hslash)
  simpa using htagged

theorem readsFrom_start (htag : IsName tag) (hattrs : ∀ a ∈ attrs, IsName a.1) :
    ReadsFrom ("<" ++ tag ++ attributes attrs ++ ">").toList [.start tag (byName attrs)] := by
  obtain ⟨next, hread, hbehind⟩ := read_heading htag hattrs
  have htagged := readsFrom_tag (read_append hread (read_singleton hbehind.close))
  simpa using htagged

theorem readsFrom_finish (htag : IsName tag) :
    ReadsFrom ("</" ++ tag ++ ">").toList [.finish tag] := by
  have hslash : (Reading.starting []).step '/' = some (.finishing [], []) := by
    simp [Reading.step]
  have htagged := readsFrom_tag (read_cons hslash (read_finishing htag))
  simpa using htagged

end Element

theorem readsFrom_break (b : Bool) :
    ReadsFrom (if b then "" else "\n").toList (if b then [] else [.char '\n']) := by
  cases b
  · exact readsFrom_chars ['\n']
  · exact readsFrom_nil

mutual

theorem readsFrom_node {n : Node} (h : IsReadable n) :
    ReadsFrom (nodeText n).toList (eventsOf n) := by
  cases n with
  | element tag attrs children =>
      obtain ⟨htag, hattrs, hchildren⟩ := h
      rw [nodeText, eventsOf]
      cases hempty : children.isEmpty with
      | true =>
          rw [List.isEmpty_iff.mp hempty]
          exact readsFrom_empty htag hattrs
      | false =>
          have hall := (((readsFrom_start htag hattrs).append (readsFrom_nodes hchildren)).append
            (readsFrom_break (endsInline children))).append (readsFrom_finish htag)
          simpa using hall
  | text s =>
      rw [nodeText, eventsOf, escape, String.toList_ofList]
      exact readsFrom_chars s.toList
  | raw markup =>
      obtain ⟨rest, events, hmarkup, hread⟩ := h
      have hmarkups := readsFrom_tag hread
      rw [nodeText, eventsOf, hmarkup, scan_of_readsFrom hmarkups]
      exact hmarkups

theorem readsFrom_nodes {nodes : List Node} (h : AreReadable nodes) :
    ReadsFrom (childrenText nodes).toList (eventsIn nodes) := by
  cases nodes with
  | nil => exact readsFrom_nil
  | cons n rest =>
      obtain ⟨hn, hrest⟩ := h
      have hall := ((readsFrom_break (isInline n)).append (readsFrom_node hn)).append
        (readsFrom_nodes hrest)
      rw [childrenText, eventsIn]
      simpa using hall

end

-- What is written of a node can be read back.
theorem scan_nodeText {n : Node} (h : IsReadable n) :
    scan (nodeText n).toList = some (eventsOf n) :=
  scan_of_readsFrom (readsFrom_node h)

end Nodes

section Document

theorem isReadable_backdrop (color : String) : IsReadable (backdrop color) := by
  simp +decide [backdrop, IsReadable, AreReadable]

theorem assign_of_not_mem {name : String} {attrs : List (String × String)}
    (h : name ∉ attrs.map Prod.fst) (value : String) :
    Element.assign name value attrs = attrs ++ [(name, value)] := by
  induction attrs with
  | nil => rfl
  | cons a rest ih =>
      obtain ⟨hne, hrest⟩ := not_or.mp (mt List.mem_cons.mpr h)
      rw [Element.assign, if_neg (Ne.symm hne), ih hrest, List.cons_append]

theorem foldl_assign {found attrs : List (String × String)}
    (h : ((found ++ attrs).map Prod.fst).Nodup) :
    attrs.foldl (fun found p => Element.assign p.1 p.2 found) found = found ++ attrs := by
  induction attrs generalizing found with
  | nil => rw [List.foldl_nil, List.append_nil]
  | cons a rest ih =>
      have hfresh : a.1 ∉ found.map Prod.fst := by
        rw [List.map_append, List.nodup_append'] at h
        exact fun hmem => h.2.2 hmem List.mem_cons_self
      have hmove : found ++ a :: rest = (found ++ [a]) ++ rest := List.append_cons found a rest
      rw [List.foldl_cons, assign_of_not_mem hfresh, ih (hmove ▸ h), hmove]

-- A document has the drawing at its root, in its namespace and in front of the background.
theorem document_eq (background : Option String) {root : Element}
    (h : ("xmlns" :: root.attrs.map Prod.fst).Nodup) :
    document background root =
      nodeText (.element root.tag (("xmlns", "http://www.w3.org/2000/svg") :: root.attrs)
        (background.toList.map backdrop ++ root.children)) := by
  have hattrs := @foldl_assign [("xmlns", "http://www.w3.org/2000/svg")] root.attrs h
  unfold document
  simp only [Element.assign, hattrs]
  cases background <;> rfl

theorem scan_document (background : Option String) {root : Element}
    (h : ("xmlns" :: root.attrs.map Prod.fst).Nodup) (hroot : IsReadable root.toNode) :
    scan (document background root).toList =
      some (eventsOf (.element root.tag (("xmlns", "http://www.w3.org/2000/svg") :: root.attrs)
        (background.toList.map backdrop ++ root.children))) := by
  obtain ⟨htag, hattrs, hchildren⟩ := hroot
  have hxmlns : IsName "xmlns" := by decide
  have hnames : ∀ a ∈ ("xmlns", "http://www.w3.org/2000/svg") :: root.attrs, IsName a.1 :=
    List.forall_mem_cons.mpr ⟨hxmlns, hattrs⟩
  have hnodes : AreReadable (background.toList.map backdrop ++ root.children) := by
    rw [areReadable_iff] at hchildren
    rw [areReadable_iff, List.forall_mem_append]
    refine ⟨?_, hchildren⟩
    intro n hn
    obtain ⟨color, -, rfl⟩ := List.mem_map.mp hn
    exact isReadable_backdrop color
  have hread : IsReadable (.element root.tag
      (("xmlns", "http://www.w3.org/2000/svg") :: root.attrs)
      (background.toList.map backdrop ++ root.children)) := by
    rw [IsReadable]
    exact ⟨htag, hnames, hnodes⟩
  rw [document_eq background h]
  exact scan_nodeText hread

end Document

end TimingDiagram.Svg
