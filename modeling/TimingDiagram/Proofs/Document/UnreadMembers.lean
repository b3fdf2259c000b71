import TimingDiagram.Proofs.Document.Rows

namespace TimingDiagram

namespace Document

-- A member is put into an object that is reached through lists and is not asked for it. Only a
-- lane is asked for a period and a phase.
inductive EntryWidened : Json → Json → Prop
  | other {name : String} (value : Json) (members : Members)
    (h : name ∉ ["name", "wave", "period", "phase", "data", "node", "label"]) :
    EntryWidened (.object members) (.object (Json.insert name value members))
  | timing {name : String} (value : Json) {members : Members} (h : name ∈ ["period", "phase"])
    (hspacer : ∀ key ∈ ["name", "wave", "data", "node", "label"], members.lookup key = none) :
    EntryWidened (.object members) (.object (Json.insert name value members))
  | inside {item widened : Json} (front back : List Json) (h : EntryWidened item widened) :
    EntryWidened (.array (front ++ item :: back)) (.array (front ++ widened :: back))

-- A member is put into a document, at a place where it is not asked for.
inductive Widened (members : Members) : Members → Prop
  | root {name : String} (value : Json) (h : name ∉ ["signal", "config", "head", "foot", "edge"]) :
    Widened members (Json.insert name value members)
  | entry {value widened : Json} (hsignal : members.lookup "signal" = some value)
    (h : EntryWidened value widened) : Widened members (Json.insert "signal" widened members)
  | settings {fields : Members} {name : String} (value : Json)
    (hconfig : members.lookup "config" = some (.object fields))
    (h : name ∉ ["hscale", "skin", "hbounds"]) :
    Widened members (Json.insert "config" (.object (Json.insert name value fields)) members)
  | axis {side : String} {fields : Members} {name : String} (value : Json)
    (hside : side ∈ ["head", "foot"]) (haxis : members.lookup side = some (.object fields))
    (h : name ∉ ["text", "tick", "tock"]) :
    Widened members (Json.insert side (.object (Json.insert name value fields)) members)

section Members

variable {α : Type} {path : Path} {members others : Members} {name other : String}

theorem lookup_insert_of_not_mem {names : List String} (h : name ∉ names) (value : Json)
    (members : Members) (hother : other ∈ names) :
    (Json.insert name value members).lookup other = members.lookup other := by
  rw [lookup_insert, if_neg (ne_of_mem_of_not_mem hother h)]

theorem member_eq_of_lookup (h : others.lookup name = members.lookup name) (absent : α)
    (load : Path → Json → Noted α) :
    member path others name absent load = member path members name absent load := by
  rw [member, member, h]

theorem member_insert_of_ne (hother : other ≠ name) (value : Json) (absent : α)
    (load : Path → Json → Noted α) :
    member path (Json.insert name value members) other absent load =
      member path members other absent load :=
  member_eq_of_lookup (by rw [lookup_insert, if_neg hother]) absent load

-- Whether a new value changes what is made of a member is decided where the member is loaded.
theorem member_insert {old new : Json} {load : Path → Json → Noted α} (absent : α)
    (hold : members.lookup name = some old)
    (hload : load (path ++ [.member name]) new = load (path ++ [.member name]) old) :
    member path (Json.insert name new members) name absent load =
      member path members name absent load := by
  rw [member, member, lookup_insert, if_pos rfl, hold]
  exact hload

theorem lane_eq_of_lookup
    (h : ∀ key ∈ ["name", "wave", "period", "phase", "data", "node", "label"],
      others.lookup key = members.lookup key) : lane path others = lane path members := by
  simp only [List.forall_mem_cons] at h
  obtain ⟨hname, hwave, hperiod, hphase, hdata, hnode, hlabel, -⟩ := h
  simp only [lane, member, hname, hwave, hperiod, hphase, hdata, hnode, hlabel]

theorem isLane_eq_of_lookup
    (h : ∀ key ∈ ["name", "wave", "node", "data", "label"],
      others.lookup key = members.lookup key) : isLane others = isLane members := by
  simp only [List.forall_mem_cons] at h
  obtain ⟨hname, hwave, hnode, hdata, hlabel, -⟩ := h
  simp only [isLane, laneMembers, List.any_cons, List.any_nil, hname, hwave, hnode, hdata, hlabel]

end Members

section Entries

theorem groupName_append {item widened : Json} (h : EntryWidened item widened)
    (front back : List Json) : groupName (front ++ widened :: back) =
      groupName (front ++ item :: back) := by
  cases front with
  | nil => cases h <;> rfl
  | cons first rest =>
      cases first with
      | number n => cases n <;> rfl
      | null | bool b | string s | array items | object members => rfl

theorem entriesFrom_append {item widened : Json}
    (h : ∀ path, entry path widened = entry path item) (front back : List Json) (path : Path)
    (i : ℕ) : entriesFrom path i (front ++ widened :: back) =
      entriesFrom path i (front ++ item :: back) := by
  induction front generalizing i with
  | nil => rw [List.nil_append, List.nil_append, entriesFrom, entriesFrom, h]
  | cons first rest ih => rw [List.cons_append, List.cons_append, entriesFrom, entriesFrom, ih]

theorem entry_eq_of_widened {item widened : Json} (h : EntryWidened item widened) (path : Path) :
    entry path widened = entry path item := by
  induction h generalizing path with
  | @other name value members h =>
      have hlane : ∀ key ∈ ["name", "wave", "period", "phase", "data", "node", "label"],
          (Json.insert name value members).lookup key = members.lookup key :=
        fun key hkey => lookup_insert_of_not_mem h value members hkey
      have hkind : isLane (Json.insert name value members) = isLane members :=
        isLane_eq_of_lookup fun key hkey => hlane key (by revert key; decide)
      rw [entry, entry, hkind, lane_eq_of_lookup hlane]
  | @timing name value members h hspacer =>
      have hname : name ∉ ["name", "wave", "node", "data", "label"] := by
        revert name
        decide
      have hkind : isLane (Json.insert name value members) = isLane members :=
        isLane_eq_of_lookup fun key hkey => lookup_insert_of_not_mem hname value members hkey
      have hspacer : isLane members = false :=
        (isLane_eq_false_iff members).mpr fun key hkey => hspacer key (by revert key; decide)
      rw [entry, entry, hkind, hspacer]
      rfl
  | inside front back h ih =>
      rw [entry, entry, groupName_append h, entriesFrom_append ih]

theorem signal_eq_of_widened {value widened : Json} (h : EntryWidened value widened)
    (path : Path) : signal path widened = signal path value := by
  cases h with
  | other | timing => rfl
  | inside front back h =>
      rw [signal, signal, groupName_append h, entriesFrom_append (entry_eq_of_widened h)]

end Entries

theorem settings_insert {name : String} (h : name ∉ ["hscale", "skin", "hbounds"]) (value : Json)
    (fields : Members) (d : Diagram) (path : Path) :
    settings d path (.object (Json.insert name value fields)) =
      settings d path (.object fields) := by
  have hlookup : ∀ key ∈ ["hscale", "skin", "hbounds"],
      (Json.insert name value fields).lookup key = fields.lookup key :=
    fun key hkey => lookup_insert_of_not_mem h value fields hkey
  simp only [List.forall_mem_cons] at hlookup
  obtain ⟨hscale, hskin, hbounds, -⟩ := hlookup
  simp only [settings, member, hscale, hskin, hbounds]

theorem axis_insert {name : String} (h : name ∉ ["text", "tick", "tock"]) (value : Json)
    (fields : Members) (path : Path) :
    axis path (.object (Json.insert name value fields)) = axis path (.object fields) := by
  have hlookup : ∀ key ∈ ["text", "tick", "tock"],
      (Json.insert name value fields).lookup key = fields.lookup key :=
    fun key hkey => lookup_insert_of_not_mem h value fields hkey
  simp only [List.forall_mem_cons] at hlookup
  obtain ⟨htext, htick, htock, -⟩ := hlookup
  simp only [axis, member, htext, htick, htock]

theorem ofJson_eq {members : Members} {value : Json}
    (hsignal : members.lookup "signal" = some value) :
    ofJson (.object members) = settle (diagram members value) := by
  simp only [ofJson, hsignal]

section Diagrams

variable {members others : Members} {value widened : Json}

theorem diagram_eq_of_members (hsignal : ∀ path, signal path widened = signal path value)
    (hconfig : ∀ d, member [] others "config" d (settings d) =
      member [] members "config" d (settings d))
    (haxis : ∀ side ∈ ["head", "foot"],
      member [] others side none axis = member [] members side none axis)
    (hedge : member [] others "edge" [] edges = member [] members "edge" [] edges) :
    diagram others widened = diagram members value := by
  have hhead := haxis "head" (by simp)
  have hfoot := haxis "foot" (by simp)
  simp only [diagram, hsignal, hconfig, hhead, hfoot, hedge]

-- A member that is not asked for changes nothing of the diagram, and nothing of what is noted.
theorem diagram_eq_of_widened (hsignal : members.lookup "signal" = some value)
    (h : Widened members others) :
    ∃ widened, others.lookup "signal" = some widened ∧
      diagram others widened = diagram members value := by
  cases h with
  | @root name added h =>
      have hlookup : ∀ key ∈ ["signal", "config", "head", "foot", "edge"],
          (Json.insert name added members).lookup key = members.lookup key :=
        fun key hkey => lookup_insert_of_not_mem h added members hkey
      refine ⟨value, (hlookup "signal" (by simp)).trans hsignal, ?_⟩
      apply diagram_eq_of_members
      · exact fun _ => rfl
      · exact fun d => member_eq_of_lookup (hlookup "config" (by simp)) d (settings d)
      · intro side hside
        refine member_eq_of_lookup (hlookup side ?_) none axis
        revert side
        decide
      · exact member_eq_of_lookup (hlookup "edge" (by simp)) [] edges
  | @entry old new hold h =>
      rw [hsignal, Option.some_inj] at hold
      subst hold
      refine ⟨new, by rw [lookup_insert, if_pos rfl], ?_⟩
      apply diagram_eq_of_members
      · exact signal_eq_of_widened h
      · exact fun d => member_insert_of_ne (by simp) new d (settings d)
      · intro side hside
        exact member_insert_of_ne (by rintro rfl; simp at hside) new none axis
      · exact member_insert_of_ne (by simp) new [] edges
  | @settings fields name added hconfig h =>
      refine ⟨value, by rw [lookup_insert, if_neg (by simp), hsignal], ?_⟩
      apply diagram_eq_of_members
      · exact fun _ => rfl
      · exact fun d => member_insert d hconfig (settings_insert h added fields d _)
      · intro side hside
        exact member_insert_of_ne (by rintro rfl; simp at hside) _ none axis
      · exact member_insert_of_ne (by simp) _ [] edges
  | @axis side fields name added hside haxis h =>
      have hother : ∀ key, key ∉ ["head", "foot"] → key ≠ side := by
        rintro key hkey rfl
        exact hkey hside
      refine ⟨value, by rw [lookup_insert, if_neg (hother _ (by simp)), hsignal], ?_⟩
      apply diagram_eq_of_members
      · exact fun _ => rfl
      · exact fun d => member_insert_of_ne (hother _ (by simp)) _ d (settings d)
      · intro key _
        by_cases hkey : key = side
        · rw [hkey]
          exact member_insert none haxis (axis_insert h added fields _)
        · exact member_insert_of_ne hkey _ none axis
      · exact member_insert_of_ne (hother _ (by simp)) _ [] edges

-- The outcome of loading does not depend on members that are not asked for.
theorem load_ignores_other_members (hsignal : members.lookup "signal" = some value)
    (h : Widened members others) :
    ofJson (.object others) = ofJson (.object members) ∧
      ∀ source extended, Json.parse source = .ok (.object members) →
        Json.parse extended = .ok (.object others) → load extended = load source := by
  obtain ⟨widened, hwidened, hdiagram⟩ := diagram_eq_of_widened hsignal h
  have hsame : ofJson (.object others) = ofJson (.object members) := by
    rw [ofJson_eq hwidened, ofJson_eq hsignal, hdiagram]
  refine ⟨hsame, ?_⟩
  intro source extended hsource hextended
  rw [load, load, hsource, hextended]
  exact hsame

end Diagrams

-- A period in an empty row would be an error in a lane.
theorem load_ignores_other_members_spacer :
    let source := "\x7b\"signal\":[\x7b\"wave\":\"01\"\x7d,[\"bus\",\x7b\x7d]]\x7d"
    let extended := "\x7b\"signal\":[\x7b\"wave\":\"01\"\x7d,[\"bus\",\x7b\"period\":-1\x7d]]\x7d"
    let wave : Json := .object [("wave", .string "01")]
    let members (spacer : Json) : Members :=
      [("signal", .array [wave, .array [.string "bus", spacer]])]
    let widened : Json := .object [("period", .number (.integer (-1)))]
    Json.parse source = .ok (.object (members (.object []))) ∧
      Json.parse extended = .ok (.object (members widened)) ∧
      Widened (members (.object [])) (members widened) ∧ load extended = load source := by
  intro source extended wave members widened
  have hsource : Json.parse source = .ok (.object (members (.object []))) := by
    simp only [source, members, wave]
    rfl
  have hextended : Json.parse extended = .ok (.object (members widened)) := by
    simp only [extended, members, wave, widened]
    rfl
  have hspacer : EntryWidened (.object []) widened :=
    @EntryWidened.timing "period" (.number (.integer (-1))) [] (by simp) (by simp)
  have hwidened : Widened (members (.object [])) (members widened) :=
    .entry rfl (.inside [wave] [] (.inside [.string "bus"] [] hspacer))
  exact ⟨hsource, hextended, hwidened,
    (load_ignores_other_members rfl hwidened).2 source extended hsource hextended⟩

end Document

end TimingDiagram
