import TimingDiagram.Proofs.Basic
import TimingDiagram.Document.Span

namespace TimingDiagram.Span

open String (utf8Len)

section Steps

variable (source : String)

-- The text from a byte on. There is none if the byte lies past the end or inside of a character.
def textFrom? (byte : ℕ) : Option String :=
  if h : (⟨byte⟩ : String.Pos.Raw).IsValid source then
    some (source.sliceFrom (source.pos ⟨byte⟩ h)).copy
  else none

-- Goes back from a byte to where a character starts. In front of the first byte there is no other.
def backToChar? : ℕ → Option ℕ
  | 0 => if (⟨0⟩ : String.Pos.Raw).IsValid source then some 0 else none
  | byte + 1 =>
    if (⟨byte + 1⟩ : String.Pos.Raw).IsValid source then some (byte + 1) else backToChar? byte

-- The lines of a text, each with the line break that ends it.
def brokenLines : List Char → List (List Char)
  | [] => []
  | c :: rest =>
    if c = '\n' then [c] :: brokenLines rest
    else
      match brokenLines rest with
      | [] => [[c]]
      | first :: others => (c :: first) :: others

-- The number of bytes before the first line break of a text, or of all of it.
def bytesToBreak (text : String) : ℕ :=
  match text.toList.findIdx? (· = '\n') with
  | some i => utf8Len (text.toList.take i)
  | none => text.utf8ByteSize

-- The character at a line and a column, found among the bytes of the text. There is none if one of
-- the bytes on the way is not where a character starts or the text ends.
def atLineColumn? (line column : ℕ) : Option Span := do
  let lineStart := utf8Len ((brokenLines source.toList).take (line - 1)).flatten
  let rest ← textFrom? source lineStart
  let start ← backToChar? source (lineStart + min (column - 1) (bytesToBreak rest))
  let found ← textFrom? source start
  return between start (found.toList.head?.elim start (start + ·.utf8Size))

end Steps

-- A line of a text, counted from 1, with what stands before and behind it. Its line break, if it
-- has one, comes first in what stands behind it.
structure IsLine (text : List Char) (line : ℕ) (before own behind : List Char) : Prop where
  text_eq : text = before ++ (own ++ behind)
  before_ends : ∀ c ∈ before.getLast?, c = '\n'
  line_eq : line = before.count '\n' + 1
  own_unbroken : '\n' ∉ own
  behind_breaks : ∀ c ∈ behind.head?, c = '\n'

-- A range of a text that is one whole character, or is empty at the end of the text.
structure OnCharacters (s : Span) (source : String) : Prop where
  start_le : s.start ≤ s.stop
  stop_le : s.stop ≤ source.utf8ByteSize
  start_valid : (⟨s.start⟩ : String.Pos.Raw).IsValid source
  stop_valid : (⟨s.stop⟩ : String.Pos.Raw).IsValid source
  empty_iff : s.start = s.stop ↔ s.start = source.utf8ByteSize
  character : s.start ≠ s.stop → ∃ front c back, source.toList = front ++ c :: back ∧
    s.start = utf8Len front ∧ s.stop = s.start + c.utf8Size

section Bytes

theorem utf8ByteSize_eq (source : String) : source.utf8ByteSize = utf8Len source.toList := by
  rw [← String.utf8ByteSize_ofList, String.ofList_toList]

theorem lineBytes_eq (cs : List Char) : lineBytes cs = utf8Len (cs.takeWhile (· ≠ '\n')) := by
  have hsum : ∀ cs : List Char, (cs.map Char.utf8Size).foldr (· + ·) 0 = utf8Len cs := by
    intro cs
    induction cs with
    | nil => rfl
    | cons c rest ih => rw [List.map_cons, List.foldr_cons, ih, String.utf8Len_cons, Nat.add_comm]
  exact hsum _

theorem lineBytes_le (cs : List Char) : lineBytes cs ≤ utf8Len cs := by
  rw [lineBytes_eq]
  conv_rhs => rw [← List.takeWhile_append_dropWhile (p := (· ≠ '\n')) (l := cs)]
  rw [String.utf8Len_append]
  exact Nat.le_add_right _ _

theorem bytesToBreak_eq (text : String) : bytesToBreak text = lineBytes text.toList := by
  have htake : text.toList.takeWhile (· ≠ '\n') =
      text.toList.take (text.toList.findIdx (· = '\n')) := by
    simp [List.takeWhile_eq_take_findIdx_not]
  rw [bytesToBreak, lineBytes_eq, htake]
  split
  · next i hi => rw [(List.findIdx?_eq_some_iff_findIdx_eq.mp hi).2]
  · next hi =>
      rw [List.findIdx?_eq_none_iff_findIdx_eq.mp hi, List.take_length, utf8ByteSize_eq]

-- A byte of a text lies in one of its characters.
theorem exists_char_at {byte : ℕ} {cs : List Char} (h : byte < utf8Len cs) :
    ∃ front c back, cs = front ++ c :: back ∧ utf8Len front ≤ byte ∧
      byte < utf8Len front + c.utf8Size := by
  induction cs generalizing byte with
  | nil => exact absurd h (Nat.not_lt_zero _)
  | cons c rest ih =>
      rw [String.utf8Len_cons] at h
      by_cases hc : byte < c.utf8Size
      · exact ⟨[], c, rest, rfl, Nat.zero_le _, by simpa using hc⟩
      · have hrest : byte - c.utf8Size < utf8Len rest := by omega
        obtain ⟨front, d, back, rfl, hfront, hd⟩ := ih hrest
        refine ⟨c :: front, d, back, rfl, ?_, ?_⟩
        · rw [String.utf8Len_cons]
          omega
        · rw [String.utf8Len_cons]
          omega

theorem charAt_append {byte : ℕ} (front : List Char) (c : Char) (back : List Char)
    (hfront : utf8Len front ≤ byte) (hc : byte < utf8Len front + c.utf8Size) :
    charAt byte (front ++ c :: back) = (utf8Len front, c.utf8Size) := by
  induction front generalizing byte with
  | nil =>
      rw [String.utf8Len_nil, Nat.zero_add] at hc
      rw [List.nil_append, charAt, if_pos hc, String.utf8Len_nil]
  | cons d rest ih =>
      rw [String.utf8Len_cons] at hfront hc
      rw [List.cons_append, charAt, if_neg (by omega), ih (by omega) (by omega),
        String.utf8Len_cons, Nat.add_comm]

theorem charAt_end {byte : ℕ} {cs : List Char} (h : utf8Len cs ≤ byte) :
    charAt byte cs = (utf8Len cs, 0) := by
  induction cs generalizing byte with
  | nil => rfl
  | cons c rest ih =>
      rw [String.utf8Len_cons] at h
      rw [charAt, if_neg (by omega), ih (by omega), String.utf8Len_cons, Nat.add_comm]

end Bytes

section Boundaries

variable {source : String} {front back : List Char}

theorem isValid_iff (source : String) (byte : ℕ) :
    (⟨byte⟩ : String.Pos.Raw).IsValid source ↔
      ∃ front back, source.toList = front ++ back ∧ byte = utf8Len front := by
  rw [String.Pos.Raw.isValid_iff_exists_append]
  constructor
  · rintro ⟨front, back, rfl, hbyte⟩
    refine ⟨front.toList, back.toList, String.toList_append, ?_⟩
    rw [← utf8ByteSize_eq]
    exact congrArg String.Pos.Raw.byteIdx hbyte
  · rintro ⟨front, back, hsource, rfl⟩
    refine ⟨String.ofList front, String.ofList back, ?_, ?_⟩
    · rw [← String.ofList_append, ← hsource, String.ofList_toList]
    · rw [String.Pos.Raw.ext_iff, String.byteIdx_rawEndPos, String.utf8ByteSize_ofList]

theorem isValid_of_append (hsource : source.toList = front ++ back) :
    (⟨utf8Len front⟩ : String.Pos.Raw).IsValid source :=
  (isValid_iff source _).mpr ⟨front, back, hsource, rfl⟩

-- Inside of a character no other one starts.
theorem not_isValid_inside {c : Char} {byte : ℕ} (hsource : source.toList = front ++ c :: back)
    (hfront : utf8Len front < byte) (hc : byte < utf8Len front + c.utf8Size) :
    ¬ (⟨byte⟩ : String.Pos.Raw).IsValid source := by
  rw [isValid_iff]
  rintro ⟨before, behind, hcut, rfl⟩
  rw [hsource] at hcut
  rcases List.append_eq_append_iff.mp hcut with ⟨gap, rfl, hgap⟩ | ⟨gap, rfl, -⟩
  · cases gap with
    | nil => simp at hfront
    | cons d rest =>
        obtain ⟨rfl, -⟩ := List.cons.inj hgap
        rw [String.utf8Len_append, String.utf8Len_cons] at hc
        omega
  · rw [String.utf8Len_append] at hfront
    omega

theorem textFrom?_append (hsource : source.toList = front ++ back) :
    textFrom? source (utf8Len front) = some (String.ofList back) := by
  have hvalid := isValid_of_append hsource
  have hsplits : (source.pos ⟨utf8Len front⟩ hvalid).Splits (String.ofList front)
      (String.ofList back) := by
    constructor
    · rw [← String.ofList_append, ← hsource, String.ofList_toList]
    · rw [String.Pos.Raw.ext_iff, String.byteIdx_rawEndPos, String.utf8ByteSize_ofList]
      rfl
  rw [textFrom?, dif_pos hvalid, (String.Pos.splits _).eq_right hsplits]

-- Going back ends at the nearest place where a character starts.
theorem backToChar?_eq {start byte : ℕ} (hle : start ≤ byte)
    (hstart : (⟨start⟩ : String.Pos.Raw).IsValid source)
    (hinside : ∀ place, start < place → place ≤ byte →
      ¬ (⟨place⟩ : String.Pos.Raw).IsValid source) :
    backToChar? source byte = some start := by
  induction byte with
  | zero =>
      obtain rfl : start = 0 := Nat.le_zero.mp hle
      rw [backToChar?, if_pos hstart]
  | succ byte ih =>
      rcases Nat.eq_or_lt_of_le hle with rfl | hlt
      · rw [backToChar?, if_pos hstart]
      · rw [backToChar?, if_neg (hinside _ hlt le_rfl)]
        exact ih (Nat.le_of_lt_succ hlt) fun place hplace hbyte =>
          hinside place hplace (Nat.le_succ_of_le hbyte)

end Boundaries

section Lines

-- Both ways of skipping lines cut a text at the same place.
theorem exists_afterLines (lines : ℕ) (cs : List Char) :
    ∃ behind, cs = ((brokenLines cs).take lines).flatten ++ behind ∧
      afterLines lines cs = (utf8Len ((brokenLines cs).take lines).flatten, behind) := by
  induction cs generalizing lines with
  | nil => exact ⟨[], by simp [brokenLines], by simp [brokenLines, afterLines]⟩
  | cons c rest ih =>
      cases lines with
      | zero => exact ⟨c :: rest, by simp, by simp [afterLines]⟩
      | succ lines =>
          by_cases hc : c = '\n'
          · obtain ⟨behind, hrest, hafter⟩ := ih lines
            refine ⟨behind, ?_, ?_⟩
            · rw [brokenLines, if_pos hc, List.take_succ_cons, List.flatten_cons]
              exact congrArg (c :: ·) hrest
            · rw [brokenLines, if_pos hc, List.take_succ_cons, List.flatten_cons, afterLines,
                if_pos hc, hafter]
              simp [Nat.add_comm]
          · obtain ⟨behind, hrest, hafter⟩ := ih (lines + 1)
            have hflat : ((brokenLines (c :: rest)).take (lines + 1)).flatten =
                c :: ((brokenLines rest).take (lines + 1)).flatten := by
              rw [brokenLines, if_neg hc]
              cases brokenLines rest <;> simp
            refine ⟨behind, ?_, ?_⟩
            · rw [hflat]
              exact congrArg (c :: ·) hrest
            · rw [hflat, afterLines, if_neg hc, hafter, String.utf8Len_cons]
              exact congrArg (·, behind) (Nat.add_comm _ _)

theorem afterLines_append {before : List Char} (hends : ∀ c ∈ before.getLast?, c = '\n')
    (behind : List Char) :
    afterLines (before.count '\n') (before ++ behind) = (utf8Len before, behind) := by
  induction before with
  | nil => cases behind <;> rfl
  | cons c rest ih =>
      have hrest : ∀ d ∈ rest.getLast?, d = '\n' := by
        intro d hd
        refine hends d ?_
        rw [List.getLast?_cons, Option.mem_def.mp hd]
        rfl
      by_cases hc : c = '\n'
      · rw [hc, List.count_cons_self, List.cons_append, afterLines, if_pos rfl, ih hrest,
          String.utf8Len_cons, Nat.add_comm]
      · -- The text goes on behind `c`, with at least the line break it ends with.
        have hmem : '\n' ∈ rest := by
          cases hlast : rest.getLast? with
          | none =>
              rw [List.getLast?_eq_none_iff.mp hlast] at hends
              exact absurd (hends c rfl) hc
          | some d =>
              rw [← hrest d hlast]
              exact List.mem_of_getLast? hlast
        obtain ⟨lines, hlines⟩ := Nat.exists_eq_succ_of_ne_zero (List.count_pos_iff.mpr hmem).ne'
        rw [List.count_cons_of_ne hc, hlines, List.cons_append, afterLines, if_neg hc,
          ← Nat.succ_eq_add_one, ← hlines, ih hrest, String.utf8Len_cons, Nat.add_comm]

-- As many lines are there as line breaks, and one more.
theorem exists_before {lines : ℕ} {cs : List Char} (h : lines ≤ cs.count '\n') :
    ∃ before rest, cs = before ++ rest ∧ (∀ c ∈ before.getLast?, c = '\n') ∧
      before.count '\n' = lines := by
  induction cs generalizing lines with
  | nil => exact ⟨[], [], rfl, by simp, (Nat.le_zero.mp h).symm⟩
  | cons c rest ih =>
      cases lines with
      | zero => exact ⟨[], c :: rest, rfl, by simp, rfl⟩
      | succ lines =>
          by_cases hc : c = '\n'
          · rw [hc, List.count_cons_self] at h
            obtain ⟨before, others, rfl, hends, hcount⟩ := ih (Nat.le_of_succ_le_succ h)
            refine ⟨c :: before, others, rfl, ?_, by rw [hc, List.count_cons_self, hcount]⟩
            cases before with
            | nil => simpa using hc
            | cons d more => simpa using hends
          · rw [List.count_cons_of_ne hc] at h
            obtain ⟨before, others, rfl, hends, hcount⟩ := ih h
            refine ⟨c :: before, others, rfl, ?_, by rw [List.count_cons_of_ne hc, hcount]⟩
            cases before with
            | nil => cases hcount
            | cons d more => simpa using hends

theorem exists_isLine {line : ℕ} {cs : List Char} (hpos : 1 ≤ line)
    (hle : line ≤ cs.count '\n' + 1) : ∃ before own behind, IsLine cs line before own behind := by
  obtain ⟨before, rest, rfl, hends, hcount⟩ := exists_before (Nat.sub_le_of_le_add hle)
  refine ⟨before, rest.takeWhile (· ≠ '\n'), rest.dropWhile (· ≠ '\n'), ?_, hends, ?_, ?_, ?_⟩
  · rw [List.takeWhile_append_dropWhile]
  · rw [hcount, Nat.sub_add_cancel hpos]
  · intro hbreak
    simpa using List.mem_takeWhile_imp hbreak
  · intro c hc
    simpa using Text.head_dropWhile _ rest c hc

theorem lineBytes_append {own behind : List Char} (hown : '\n' ∉ own)
    (hbehind : ∀ c ∈ behind.head?, c = '\n') : lineBytes (own ++ behind) = utf8Len own := by
  rw [lineBytes_eq]
  congr 1
  refine Text.takeWhile_append_eq ?_ ?_
  · intro c hc
    have hne : c ≠ '\n' := by
      rintro rfl
      exact hown hc
    simpa using hne
  · intro c hc
    simp [hbehind c hc]

end Lines

section Found

variable {source : String} {line column : ℕ} {before behind front back : List Char} {c : Char}

theorem start_between (start stop : ℕ) : (between start stop).start = start := rfl

theorem stop_between {start stop : ℕ} (h : start ≤ stop) : (between start stop).stop = stop :=
  Nat.max_eq_right h

theorem onCharacters_char (hsource : source.toList = front ++ c :: back) :
    (between (utf8Len front) (utf8Len front + c.utf8Size)).OnCharacters source := by
  have hstop := stop_between (Nat.le_add_right (utf8Len front) c.utf8Size)
  have hpos := c.utf8Size_pos
  have hnext : source.toList = (front ++ [c]) ++ back := by simpa using hsource
  have hbyte : utf8Len (front ++ [c]) = utf8Len front + c.utf8Size := by simp
  have hsize : utf8Len front + c.utf8Size ≤ source.utf8ByteSize := by
    rw [utf8ByteSize_eq, hnext, String.utf8Len_append, hbyte]
    exact Nat.le_add_right _ _
  constructor
  · exact Span.start_le_stop _
  · rw [hstop]
    exact hsize
  · exact isValid_of_append hsource
  · rw [hstop, ← hbyte]
    exact isValid_of_append hnext
  · rw [hstop, start_between]
    omega
  · intro _
    exact ⟨front, c, back, hsource, rfl, hstop⟩

theorem onCharacters_end (source : String) :
    (between source.utf8ByteSize source.utf8ByteSize).OnCharacters source := by
  have hstop := stop_between (le_refl source.utf8ByteSize)
  have hvalid : (⟨source.utf8ByteSize⟩ : String.Pos.Raw).IsValid source :=
    String.Pos.Raw.isValid_rawEndPos
  constructor
  · exact Span.start_le_stop _
  · rw [hstop]
  · exact hvalid
  · rw [hstop]
    exact hvalid
  · rw [hstop, start_between]
  · intro hne
    exact absurd hstop.symm hne

theorem atLineColumn_char
    (hafter : afterLines (line - 1) source.toList = (utf8Len before, front ++ c :: back))
    (hfront : utf8Len front ≤ min (column - 1) (lineBytes (front ++ c :: back)))
    (hc : min (column - 1) (lineBytes (front ++ c :: back)) < utf8Len front + c.utf8Size) :
    atLineColumn source line column =
      between (utf8Len (before ++ front)) (utf8Len (before ++ front) + c.utf8Size) := by
  rw [atLineColumn, hafter]
  simp only [charAt_append front c back hfront hc, String.utf8Len_append]

theorem atLineColumn_end
    (hafter : afterLines (line - 1) source.toList = (utf8Len before, behind))
    (hend : utf8Len behind ≤ min (column - 1) (lineBytes behind)) :
    atLineColumn source line column =
      between (utf8Len (before ++ behind)) (utf8Len (before ++ behind)) := by
  rw [atLineColumn, hafter]
  simp only [charAt_end hend, String.utf8Len_append, Nat.add_zero]

-- What is left of the search once its line is found.
theorem atLineColumn?_eq {rest : List Char} {start : ℕ}
    (hbefore : ((brokenLines source.toList).take (line - 1)).flatten = before)
    (hsource : source.toList = before ++ behind)
    (hback : backToChar? source (utf8Len before + min (column - 1) (lineBytes behind)) = some start)
    (hfound : textFrom? source start = some (String.ofList rest)) :
    atLineColumn? source line column =
      some (between start (rest.head?.elim start (start + ·.utf8Size))) := by
  subst hbefore
  change (textFrom? source _).bind _ = _
  rw [textFrom?_append hsource, Option.bind_some, bytesToBreak_eq, String.toList_ofList]
  change (backToChar? source _).bind _ = _
  rw [hback, Option.bind_some]
  change (textFrom? source start).bind _ = _
  rw [hfound, Option.bind_some, String.toList_ofList]
  rfl

-- The bytes lead to the same range, which is one character or, at the end of the text, empty.
theorem atLineColumn_cases (source : String) (line column : ℕ) :
    atLineColumn? source line column = some (atLineColumn source line column) ∧
      ((∃ front c back, source.toList = front ++ c :: back ∧
          atLineColumn source line column =
            between (utf8Len front) (utf8Len front + c.utf8Size)) ∨
        atLineColumn source line column =
          between source.utf8ByteSize source.utf8ByteSize) := by
  obtain ⟨behind, hsource, hafter⟩ := exists_afterLines (line - 1) source.toList
  let before := ((brokenLines source.toList).take (line - 1)).flatten
  let byte := min (column - 1) (lineBytes behind)
  have hbyte : byte ≤ utf8Len behind := (Nat.min_le_right _ _).trans (lineBytes_le behind)
  rcases Nat.lt_or_eq_of_le hbyte with hlt | heq
  · obtain ⟨front, c, back, rfl, hfront, hc⟩ := exists_char_at hlt
    have hwhole : source.toList = (before ++ front) ++ c :: back := by
      rw [List.append_assoc]
      exact hsource
    have hback : backToChar? source (utf8Len before + byte) = some (utf8Len (before ++ front)) := by
      refine backToChar?_eq ?_ (isValid_of_append hwhole) ?_
      · rw [String.utf8Len_append]
        omega
      · intro place hplace hle
        refine not_isValid_inside hwhole hplace ?_
        rw [String.utf8Len_append]
        omega
    have hfound := atLineColumn_char hafter hfront hc
    refine ⟨?_, Or.inl ⟨_, c, back, hwhole, hfound⟩⟩
    rw [hfound, atLineColumn?_eq rfl hsource hback (textFrom?_append hwhole)]
    rfl
  · have hwhole : source.toList = (before ++ behind) ++ [] := by
      rw [List.append_nil]
      exact hsource
    have hsize : utf8Len (before ++ behind) = source.utf8ByteSize := by
      rw [utf8ByteSize_eq, hwhole, List.append_nil]
    have hback : backToChar? source (utf8Len before + byte) =
        some (utf8Len (before ++ behind)) := by
      rw [heq, ← String.utf8Len_append]
      exact backToChar?_eq le_rfl (isValid_of_append hwhole) fun place hlt hle =>
        absurd hle (Nat.not_le_of_lt hlt)
    have hfound := atLineColumn_end hafter heq.ge
    refine ⟨?_, Or.inr (hsize ▸ hfound)⟩
    rw [hfound, atLineColumn?_eq rfl hsource hback (textFrom?_append hwhole)]
    rfl

-- In a line that is there, a column inside of it is where the character with that byte is found,
-- and any other column is where the line ends.
theorem atLineColumn_of_isLine {own : List Char}
    (h : IsLine source.toList line before own behind) (column : ℕ) :
    (column - 1 < utf8Len own → ∃ front c back, own = front ++ c :: back ∧
      utf8Len front ≤ column - 1 ∧ column - 1 < utf8Len front + c.utf8Size ∧
      atLineColumn source line column =
        between (utf8Len (before ++ front)) (utf8Len (before ++ front) + c.utf8Size)) ∧
    (utf8Len own ≤ column - 1 →
      (atLineColumn source line column).start = utf8Len (before ++ own)) := by
  have hafter : afterLines (line - 1) source.toList = (utf8Len before, own ++ behind) := by
    rw [h.text_eq, h.line_eq, Nat.add_sub_cancel]
    exact afterLines_append h.before_ends _
  have hbytes := lineBytes_append h.own_unbroken h.behind_breaks
  constructor
  · intro hcolumn
    obtain ⟨front, c, back, rfl, hfront, hc⟩ := exists_char_at hcolumn
    refine ⟨front, c, back, rfl, hfront, hc, ?_⟩
    have hmin : min (column - 1) (lineBytes (front ++ c :: back ++ behind)) = column - 1 := by
      rw [hbytes]
      exact Nat.min_eq_left hcolumn.le
    rw [List.append_assoc, List.cons_append] at hafter hmin
    exact atLineColumn_char hafter (hmin.symm ▸ hfront) (hmin.symm ▸ hc)
  · intro hcolumn
    have hmin : min (column - 1) (lineBytes (own ++ behind)) = utf8Len own := by
      rw [hbytes]
      exact Nat.min_eq_right hcolumn
    cases behind with
    | nil =>
        rw [List.append_nil] at hafter hmin
        rw [atLineColumn_end hafter hmin.ge]
        rfl
    | cons c back =>
        rw [atLineColumn_char hafter hmin.ge (hmin.symm ▸ Nat.lt_add_of_pos_right c.utf8Size_pos)]
        rfl

end Found

-- The place of an error is one whole character of its source, or the end. It is found by steps that
-- stay inside the source, and in a line that is there it is the character at the column or where
-- the line ends.
theorem atLineColumn_on_characters (source : String) (line column : ℕ) :
    atLineColumn? source line column = some (atLineColumn source line column) ∧
    let s := atLineColumn source line column
    s.OnCharacters source ∧
    (1 ≤ line → line ≤ source.toList.count '\n' + 1 →
      ∃ before own behind, IsLine source.toList line before own behind) ∧
    ∀ before own behind, IsLine source.toList line before own behind →
      (column - 1 < utf8Len own → ∃ front c back, own = front ++ c :: back ∧
        utf8Len front ≤ column - 1 ∧ column - 1 < utf8Len front + c.utf8Size ∧
        s.start = utf8Len before + utf8Len front ∧ s.stop = s.start + c.utf8Size) ∧
      (utf8Len own ≤ column - 1 → s.start = utf8Len before + utf8Len own ∧
        (behind.head? = some '\n' ∨ s.start = source.utf8ByteSize)) := by
  obtain ⟨hsearch, hcases⟩ := atLineColumn_cases source line column
  refine ⟨hsearch, ?_⟩
  intro s
  refine ⟨?_, exists_isLine, ?_⟩
  · simp only [s]
    rcases hcases with ⟨front, c, back, hsource, hs⟩ | hs
    · rw [hs]
      exact onCharacters_char hsource
    · rw [hs]
      exact onCharacters_end source
  · intro before own behind hline
    obtain ⟨hinside, hpast⟩ := atLineColumn_of_isLine hline column
    constructor
    · intro hcolumn
      obtain ⟨front, c, back, hown, hfront, hc, hs⟩ := hinside hcolumn
      refine ⟨front, c, back, hown, hfront, hc, ?_, ?_⟩
      · rw [← String.utf8Len_append]
        exact congrArg Span.start hs
      · simp only [s, hs, start_between, stop_between (Nat.le_add_right _ _)]
    · intro hcolumn
      have hstart := hpast hcolumn
      rw [String.utf8Len_append] at hstart
      refine ⟨hstart, ?_⟩
      cases behind with
      | nil =>
          right
          rw [hstart, utf8ByteSize_eq, hline.text_eq, List.append_nil, String.utf8Len_append]
      | cons c back => exact Or.inl (congrArg some (hline.behind_breaks c rfl))

-- A column inside of a letter of two bytes, one far behind the end of the same line, and an empty
-- line.
theorem atLineColumn_on_characters_accent :
    let source := "[\n \"é\", ?\n"
    let own := [' ', '"', 'é', '"', ',', ' ', '?']
    IsLine source.toList 2 ['[', '\n'] own ['\n'] ∧
      (∃ front c back, own = front ++ c :: back ∧ utf8Len front ≤ 3 ∧
        3 < utf8Len front + c.utf8Size ∧
        (atLineColumn source 2 4).start = 2 + utf8Len front ∧
        (atLineColumn source 2 4).stop = (atLineColumn source 2 4).start + c.utf8Size) ∧
      (atLineColumn source 2 4).start = 4 ∧ (atLineColumn source 2 4).stop = 6 ∧
      (atLineColumn source 2 900).start = 10 ∧
      ∃ before own behind, IsLine source.toList 3 before own behind := by
  intro source own
  have hline : IsLine source.toList 2 ['[', '\n'] own ['\n'] := by
    constructor <;> simp [source, own]
  obtain ⟨-, -, -, hinside⟩ := atLineColumn_on_characters source 2 4
  obtain ⟨-, -, -, hpast⟩ := atLineColumn_on_characters source 2 900
  obtain ⟨-, -, hthird, -⟩ := atLineColumn_on_characters source 3 0
  refine ⟨hline, (hinside _ _ _ hline).1 (by decide), by decide, by decide, ?_,
    hthird (by decide) (by decide)⟩
  exact ((hpast _ _ _ hline).2 (by decide)).1

end TimingDiagram.Span
