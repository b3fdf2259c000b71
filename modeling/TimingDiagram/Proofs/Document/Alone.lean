import TimingDiagram.Proofs.Document.Parts

namespace TimingDiagram

namespace Document

theorem lookup_cons_eq (name other : String) (value : Json) (members : Members) :
    ((name, value) :: members).lookup other =
      if other = name then some value else members.lookup other := by
  by_cases hother : other = name
  · rw [hother, List.lookup_cons_self, if_pos rfl]
  · rw [List.lookup_cons, beq_eq_false_iff_ne.mpr hother, if_neg hother]

theorem lookup_insert (name other : String) (value : Json) (members : Members) :
    (Json.insert name value members).lookup other =
      if other = name then some value else members.lookup other := by
  induction members with
  | nil => rw [Json.insert, lookup_cons_eq]
  | cons first rest ih =>
      obtain ⟨n, v⟩ := first
      rw [Json.insert]
      split
      · rw [lookup_cons_eq]
      · split
        · next hn =>
            rw [lookup_cons_eq, lookup_cons_eq, hn]
            split <;> rfl
        · next hn =>
            rw [lookup_cons_eq, lookup_cons_eq, ih]
            by_cases hother : other = n
            · rw [if_pos hother, if_pos hother, if_neg (hother.trans_ne (Ne.symm hn))]
            · rw [if_neg hother, if_neg hother]

-- A member with what an object needs to be a lane, and what it needs to be a document.
def accompanied (name : String) (value : Json) : Members :=
  Json.insert name value [("name", .string ""), ("signal", .array [])]

theorem lookup_accompanied_self (name : String) (value : Json) :
    (accompanied name value).lookup name = some value := by
  rw [accompanied, lookup_insert, if_pos rfl]

theorem lookup_accompanied_of_ne {name other : String} (hother : other ≠ name) (value : Json) :
    (accompanied name value).lookup other =
      [("name", .string ""), ("signal", .array [])].lookup other := by
  rw [accompanied, lookup_insert, if_neg hother]

theorem isSome_lookup_accompanied (name : String) (value : Json) {other : String}
    (hother : other = "name" ∨ other = "signal") :
    ((accompanied name value).lookup other).isSome := by
  by_cases hname : other = name
  · rw [hname, lookup_accompanied_self]
    rfl
  · rw [lookup_accompanied_of_ne hname]
    rcases hother with rfl | rfl <;> rfl

-- A value at the end of a path, with nothing beside it that anything would be noted about.
def Json.wrapped (value : Json) : Path → Json
  | [] => value
  | .member name :: rest => .object (accompanied name (value.wrapped rest))
  | .item i :: rest => .array (List.replicate i (.string "a") ++ [value.wrapped rest])

def IsClean (parts : List Part) : Prop := ∀ p ∈ parts, p.report = []

theorem IsClean.append {parts others : List Part} (h : IsClean parts) (hothers : IsClean others) :
    IsClean (parts ++ others) :=
  fun p hp => (List.mem_append.mp hp).elim (h p) (hothers p)

-- Whether all parts but one are clean.
def Part.IsAlone (p : Part) (parts : List Part) : Prop :=
  ∃ front back, parts = front ++ p :: back ∧ IsClean (front ++ back)

theorem isClean_nil : IsClean [] := fun _ hp => absurd hp List.not_mem_nil

theorem isClean_singleton {p : Part} (h : p.report = []) : IsClean [p] := by
  intro q hq
  rw [List.mem_singleton.mp hq]
  exact h

theorem Part.isAlone_singleton (p : Part) : p.IsAlone [p] :=
  ⟨[], [], rfl, isClean_nil⟩

theorem Part.IsAlone.append {p : Part} {parts front back : List Part} (h : p.IsAlone parts)
    (hfront : IsClean front) (hback : IsClean back) : p.IsAlone (front ++ (parts ++ back)) := by
  obtain ⟨before, behind, rfl, hclean⟩ := h
  refine ⟨front ++ before, behind ++ back, by simp, ?_⟩
  have hwhole := (hfront.append hclean).append hback
  simpa only [List.append_assoc] using hwhole

theorem Part.IsAlone.cons {p own : Part} {parts : List Part} (h : p.IsAlone parts)
    (hown : own.report = []) : p.IsAlone (own :: parts) := by
  have hwhole := h.append (isClean_singleton hown) isClean_nil
  rwa [List.append_nil] at hwhole

-- Whether each part inside a value is also inside a value that has nothing else to note.
def Isolates (inside : Inside) : Prop :=
  ∀ path value, ∀ p ∈ inside path value, p.report ≠ [] →
    ∃ steps, p.IsAlone (inside path (p.value.wrapped steps))

theorem isolates_inRole (role : Role) : Isolates (inRole role) := by
  intro path value p hp _
  rw [inRole, List.mem_singleton] at hp
  subst hp
  exact ⟨[], Part.isAlone_singleton _⟩

section Fields

variable {fields : Fields}

-- A table of members whose parts can be told apart and whose company is clean.
structure Separates (fields : Fields) : Prop where
  names : (fields.map Prod.fst).Nodup
  isolates : ∀ field ∈ fields, Isolates field.2
  title : ∀ field ∈ fields, field.1 = "name" → ∀ path, IsClean (field.2 path (.string ""))
  signal : ∀ field ∈ fields, field.1 = "signal" → ∀ path, IsClean (field.2 path (.array []))

namespace Separates

-- What accompanies a member is clean.
theorem isClean_company (h : Separates fields) {others : Fields}
    (hothers : ∀ field ∈ others, field ∈ fields) {name : String}
    (hname : ∀ field ∈ others, field.1 ≠ name) (path : Path) (value : Json) :
    IsClean (fieldParts others path (accompanied name value)) := by
  intro p hp
  obtain ⟨field, hfield, found, hlookup, hp⟩ := mem_fieldParts.mp hp
  rw [lookup_accompanied_of_ne (hname field hfield), lookup_cons_eq, lookup_cons_eq] at hlookup
  split at hlookup
  · next htitle =>
      cases hlookup
      exact h.title field (hothers field hfield) htitle _ p hp
  · split at hlookup
    · next hsignal =>
        cases hlookup
        exact h.signal field (hothers field hfield) hsignal _ p hp
    · cases hlookup

theorem exists_isAlone (h : Separates fields) {path : Path} {members : Members} {p : Part}
    (hp : p ∈ fieldParts fields path members) (hreport : p.report ≠ []) :
    ∃ name steps,
      p.IsAlone (fieldParts fields path (accompanied name (p.value.wrapped steps))) := by
  obtain ⟨own, hown, value, -, hp⟩ := mem_fieldParts.mp hp
  obtain ⟨steps, halone⟩ := h.isolates own hown _ _ p hp hreport
  obtain ⟨front, back, rfl⟩ := List.append_of_mem hown
  refine ⟨own.1, steps, ?_⟩
  have hnames := h.names
  rw [List.map_append, List.map_cons, List.nodup_append] at hnames
  obtain ⟨-, hback, hfront⟩ := hnames
  have hinside : memberParts path (accompanied own.1 (p.value.wrapped steps)) own.1 own.2 =
      own.2 (path ++ [.member own.1]) (p.value.wrapped steps) := by
    rw [memberParts, lookup_accompanied_self]
  rw [fieldParts, List.flatMap_append, List.flatMap_cons, hinside]
  apply halone.append
  · refine h.isClean_company (fun field hmem => List.mem_append_left _ hmem) ?_ path _
    intro field hmem
    exact hfront _ (List.mem_map_of_mem hmem) _ List.mem_cons_self
  · refine h.isClean_company
      (fun field hmem => List.mem_append_right _ (List.mem_cons_of_mem _ hmem)) ?_ path _
    intro field hmem heq
    exact (List.nodup_cons.mp hback).1 (heq ▸ List.mem_map_of_mem hmem)

theorem isolates_recordParts (h : Separates fields) : Isolates (recordParts fields) := by
  intro path value p hp hreport
  rcases List.mem_cons.mp hp with rfl | hp
  · refine ⟨[], ?_⟩
    cases value with
    | object members => exact absurd rfl hreport
    | null | bool b | number n | string s | array items => exact Part.isAlone_singleton _
  · cases value with
    | object members =>
        obtain ⟨name, steps, halone⟩ := h.exists_isAlone hp hreport
        exact ⟨.member name :: steps, halone.cons rfl⟩
    | null | bool b | number n | string s | array items => cases hp

end Separates

end Fields

theorem separates_laneFields : Separates laneFields where
  names := by decide
  isolates := by simp [laneFields, isolates_inRole]
  title := by
    intro field hfield htitle path
    have hfirst : field = ("name", inRole .title) := by
      simp only [laneFields, List.mem_cons, List.not_mem_nil, or_false] at hfield
      rcases hfield with rfl | rfl | rfl | rfl | rfl | rfl | rfl
      · rfl
      all_goals simp at htitle
    rw [hfirst]
    exact isClean_singleton rfl
  signal := by simp [laneFields]

theorem separates_settingsFields : Separates settingsFields where
  names := by decide
  isolates := by simp [settingsFields, isolates_inRole]
  title := by simp [settingsFields]
  signal := by simp [settingsFields]

theorem separates_axisFields : Separates axisFields where
  names := by decide
  isolates := by simp [axisFields, isolates_inRole]
  title := by simp [axisFields]
  signal := by simp [axisFields]

section Entries

def entriesIn (path : Path) (value : Json) : List Part :=
  (objectsIn path value).flatMap entryParts

theorem objectsFrom_replicate (path : Path) (i count : ℕ) (value : Json) :
    objectsFrom path i (List.replicate count (.string "a") ++ [value]) =
      objectsIn (path ++ [.item (i + count)]) value := by
  induction count generalizing i with
  | zero => simp [objectsFrom]
  | succ count ih =>
      rw [List.replicate_succ, List.cons_append, objectsFrom, ih]
      simp [objectsIn, Nat.add_assoc, Nat.add_comm 1]

mutual

theorem isolates_entriesIn (path : Path) (value : Json) (p : Part)
    (hp : p ∈ entriesIn path value) (hreport : p.report ≠ []) :
    ∃ steps, p.IsAlone (entriesIn path (p.value.wrapped steps)) := by
  cases value with
  | array items =>
      obtain ⟨i, steps, halone⟩ := exists_isAlone_entriesFrom path 0 items p hp hreport
      refine ⟨.item i :: steps, ?_⟩
      rw [Nat.zero_add] at halone
      rw [entriesIn, Json.wrapped, objectsIn, objectsFrom_replicate, Nat.zero_add]
      exact halone
  | object members =>
      rw [entriesIn, objectsIn, List.flatMap_singleton, entryParts] at hp
      split at hp
      · obtain ⟨name, steps, halone⟩ := separates_laneFields.exists_isAlone hp hreport
        refine ⟨.member name :: steps, ?_⟩
        have hlane : isLane (accompanied name (p.value.wrapped steps)) = true :=
          List.any_eq_true.mpr ⟨"name", by decide, isSome_lookup_accompanied name _ (Or.inl rfl)⟩
        rw [entriesIn, Json.wrapped, objectsIn, List.flatMap_singleton, entryParts, if_pos hlane]
        exact halone
      · cases hp
  | null | bool b | number n | string s => cases hp

theorem exists_isAlone_entriesFrom (path : Path) (i : ℕ) (items : List Json) (p : Part)
    (hp : p ∈ (objectsFrom path i items).flatMap entryParts) (hreport : p.report ≠ []) :
    ∃ j steps, p.IsAlone (entriesIn (path ++ [.item (i + j)]) (p.value.wrapped steps)) := by
  cases items with
  | nil => cases hp
  | cons item rest =>
      rw [objectsFrom, List.flatMap_append, List.mem_append] at hp
      rcases hp with hp | hp
      · have hfirst : p ∈ entriesIn (path ++ [.item i]) item := hp
        obtain ⟨steps, halone⟩ := isolates_entriesIn (path ++ [.item i]) item p hfirst hreport
        exact ⟨0, steps, halone⟩
      · obtain ⟨j, steps, halone⟩ := exists_isAlone_entriesFrom path (i + 1) rest p hp hreport
        refine ⟨j + 1, steps, ?_⟩
        rwa [Nat.add_assoc, Nat.add_comm 1] at halone

end

theorem isolates_signalParts : Isolates signalParts := by
  intro path value p hp hreport
  rcases List.mem_cons.mp hp with rfl | hp
  · refine ⟨[], ?_⟩
    cases value with
    | array items => exact absurd rfl hreport
    | null | bool b | number n | string s | object members => exact Part.isAlone_singleton _
  · cases value with
    | array items =>
        obtain ⟨i, steps, halone⟩ := exists_isAlone_entriesFrom path 0 items p hp hreport
        rw [entriesIn, ← objectsFrom_replicate] at halone
        exact ⟨.item i :: steps, halone.cons rfl⟩
    | null | bool b | number n | string s | object members => cases hp

end Entries

theorem isolates_edgesParts : Isolates edgesParts := by
  intro path value p hp hreport
  cases value with
  | array items =>
      obtain ⟨⟨item, i⟩, -, rfl⟩ := List.mem_map.mp hp
      refine ⟨[.item i], (List.replicate i (Json.string "a")).zipIdx.map fun place =>
        ⟨path ++ [.item place.2], place.1, .edge⟩, [], ?_, ?_⟩
      · simp [edgesParts, Json.wrapped, List.zipIdx_append]
      · intro q hq
        rw [List.append_nil] at hq
        obtain ⟨⟨beside, j⟩, hbeside, rfl⟩ := List.mem_map.mp hq
        have hfiller : beside = .string "a" :=
          List.eq_of_mem_replicate (List.fst_mem_of_mem_zipIdx hbeside)
        subst hfiller
        rfl
  | null | bool b | number n | string s | object members =>
      rw [List.mem_singleton.mp hp]
      exact ⟨[], Part.isAlone_singleton _⟩

theorem separates_documentFields : Separates documentFields where
  names := by decide
  isolates := by
    simp [documentFields, isolates_signalParts, isolates_edgesParts,
      separates_settingsFields.isolates_recordParts, separates_axisFields.isolates_recordParts]
  title := by simp [documentFields]
  signal := by
    intro field hfield hsignal path
    simp only [documentFields, List.mem_cons, List.not_mem_nil, or_false] at hfield
    rcases hfield with rfl | rfl | rfl | rfl | rfl
    · exact isClean_singleton rfl
    all_goals simp at hsignal

-- Whatever is noted about a part of a document is noted alone in some other document.
theorem exists_isAlone_documentParts {members : Members} {p : Part}
    (hp : p ∈ documentParts members) (hreport : p.report ≠ []) :
    ∃ others value, others.lookup "signal" = some value ∧ p.IsAlone (documentParts others) := by
  obtain ⟨name, steps, halone⟩ := separates_documentFields.exists_isAlone hp hreport
  have hsignal := isSome_lookup_accompanied name (p.value.wrapped steps) (Or.inr rfl)
  obtain ⟨value, hvalue⟩ := Option.isSome_iff_exists.mp hsignal
  exact ⟨_, value, hvalue, halone⟩

end Document

end TimingDiagram
