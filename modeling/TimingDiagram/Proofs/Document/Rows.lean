import TimingDiagram.Proofs.Document.Reports
import TimingDiagram.Proofs.Signal.Nesting

namespace TimingDiagram

namespace Outline

theorem ofEntries_append (depth start : ℕ) (front back : List Entry) :
    ofEntries depth start (front ++ back) =
      let first := ofEntries depth start front
      let others := ofEntries depth (start + first.rows.length) back
      ⟨first.rows ++ others.rows, first.boxes ++ others.boxes⟩ := by
  induction front generalizing start with
  | nil => rfl
  | cons e rest ih => simp [ofEntries, ih, Nat.add_assoc]

theorem ofEntries_singleton (depth start : ℕ) (e : Entry) :
    ofEntries depth start [e] = ofEntry depth start e := by
  simp [ofEntries]

end Outline

namespace Document

mutual

-- The objects that are reached through lists only, in document order.
def Json.objects : Json → List Members
  | .array items => objectsOf items
  | .object members => [members]
  | _ => []

def objectsOf : List Json → List Members
  | [] => []
  | item :: rest => item.objects ++ objectsOf rest

end

mutual

-- The lists that are reached through lists only, each behind the lists inside it.
def Json.lists : Json → List (List Json)
  | .array items => listsOf items ++ [items]
  | _ => []

def listsOf : List Json → List (List Json)
  | [] => []
  | item :: rest => item.lists ++ listsOf rest

end

mutual

theorem map_snd_objectsIn (path : Path) (value : Json) :
    (objectsIn path value).map Prod.snd = value.objects := by
  cases value with
  | array items => exact map_snd_objectsFrom path 0 items
  | object members => rfl
  | null | bool b | number n | string s => rfl

theorem map_snd_objectsFrom (path : Path) (i : ℕ) (items : List Json) :
    (objectsFrom path i items).map Prod.snd = objectsOf items := by
  cases items with
  | nil => rfl
  | cons item rest =>
      rw [objectsFrom, objectsOf, List.map_append, map_snd_objectsIn, map_snd_objectsFrom]

end

-- What an object of the signal list is loaded as.
def laneOf : Path × Members → Option Lane
  | (path, members) => if isLane members then some (lane path members).value else none

-- What the outline of loaded entries has to do with the objects and lists they come from.
structure Outlines (o : Outline) (objects : List (Path × Members)) (lists : List (List Json)) :
    Prop where
  rows : o.rows.map Row.lane = objects.map laneOf
  boxes : (o.boxes.map fun b => (b.name, b.height)) =
    lists.map fun items => (groupName items, (objectsOf items).length)

namespace Outlines

theorem nil : Outlines ⟨[], []⟩ [] [] := ⟨rfl, rfl⟩

theorem append {o others : Outline} {objects objects' : List (Path × Members)}
    {lists lists' : List (List Json)} (h : Outlines o objects lists)
    (hothers : Outlines others objects' lists') :
    Outlines ⟨o.rows ++ others.rows, o.boxes ++ others.boxes⟩ (objects ++ objects')
      (lists ++ lists') where
  rows := by rw [List.map_append, h.rows, hothers.rows, List.map_append]
  boxes := by rw [List.map_append, h.boxes, hothers.boxes, List.map_append]

-- A list adds its own box behind those inside it.
theorem enclose {depth start : ℕ} {entries : List Entry} {path : Path} {items : List Json}
    (h : Outlines (Outline.ofEntries (depth + Outline.indent (groupName items)) start entries)
      (objectsFrom path 0 items) (listsOf items)) :
    Outlines (Outline.ofEntry depth start (.group (groupName items) entries))
      (objectsFrom path 0 items) (listsOf items ++ [items]) where
  rows := h.rows
  boxes := by
    have hcount := congrArg List.length h.rows
    rw [List.length_map, List.length_map, ← List.length_map (f := Prod.snd),
      map_snd_objectsFrom] at hcount
    simp only [Outline.ofEntry, List.map_append, h.boxes, List.map_cons, List.map_nil, hcount]

end Outlines

mutual

theorem outlines_entry (depth start : ℕ) (path : Path) (value : Json) :
    Outlines (Outline.ofEntries depth start (entry path value).value.toList) (objectsIn path value)
      value.lists := by
  cases value with
  | array items =>
      have hinside := (outlines_entriesFrom (depth + Outline.indent (groupName items)) start path 0
        items).enclose
      rw [← Outline.ofEntries_singleton] at hinside
      exact hinside
  | object members =>
      rw [entry, objectsIn]
      split
      · next hlane => exact ⟨by simp [Outline.ofEntries, Outline.ofEntry, laneOf, hlane], rfl⟩
      · next hlane => exact ⟨by simp [Outline.ofEntries, Outline.ofEntry, laneOf, hlane], rfl⟩
  | null | bool b | number n | string s => exact Outlines.nil

theorem outlines_entriesFrom (depth start : ℕ) (path : Path) (i : ℕ) (items : List Json) :
    Outlines (Outline.ofEntries depth start (entriesFrom path i items).value)
      (objectsFrom path i items) (listsOf items) := by
  cases items with
  | nil => exact Outlines.nil
  | cons item rest =>
      have hfirst := outlines_entry depth start (path ++ [.item i]) item
      rw [entriesFrom, objectsFrom, listsOf, Noted.value_bind, Noted.value_bind, Noted.value_pure,
        Outline.ofEntries_append]
      exact hfirst.append (outlines_entriesFrom depth _ path (i + 1) rest)

end

-- What a lane has to do with the object it comes from.
structure Describes (l : Lane) (members : Members) : Prop where
  name : members.lookup "name" = none ∧ l.name = "" ∨
    (∃ s, members.lookup "name" = some (.string s) ∧ l.name = Text.trim s) ∨
    ∃ n, members.lookup "name" = some (.number n) ∧ l.name = n.text
  wave : members.lookup "wave" = none ∧ l.wave = "" ∨ members.lookup "wave" = some (.string l.wave)
  node : members.lookup "node" = l.node.map Json.string

section Accepted

variable {path : Path} {members : Members}

-- A part that nothing is wrong with.
def Part.IsAccepted (p : Part) : Prop := ∀ problem ∈ p.report, ¬ problem.isError

theorem accepts_of_isAccepted {expected : Expected} {value : Json}
    (h : Part.IsAccepted ⟨path, value, .value expected⟩) : expected.accepts value := by
  by_contra hvalue
  refine h (.wrongType path expected) ?_ rfl
  simp [Part.report, Role.report, hvalue]

theorem exists_string_of_isAccepted {value : Json}
    (h : Part.IsAccepted ⟨path, value, .value .string⟩) : ∃ s, value = .string s := by
  have haccepts := accepts_of_isAccepted h
  cases value with
  | string s => exact ⟨s, rfl⟩
  | null | bool b | number n | array items | object members => cases haccepts

section Member

variable {fields : Fields} {name : String}

theorem isAccepted_member {role : Role} {value : Json}
    (h : ∀ p ∈ fieldParts fields path members, p.IsAccepted) (hfield : (name, inRole role) ∈ fields)
    (hvalue : members.lookup name = some value) :
    Part.IsAccepted ⟨path ++ [.member name], value, role⟩ :=
  h _ (mem_fieldParts.mpr ⟨_, hfield, value, hvalue, List.mem_singleton_self _⟩)

theorem value_stringMember (h : ∀ p ∈ fieldParts fields path members, p.IsAccepted)
    (hfield : (name, inRole (.value .string)) ∈ fields) :
    members.lookup name =
      (member path members name none stringValue).value.map Json.string := by
  cases hvalue : members.lookup name with
  | none => simp [member, hvalue]
  | some value =>
      obtain ⟨s, rfl⟩ := exists_string_of_isAccepted (isAccepted_member h hfield hvalue)
      simp [member, hvalue, stringValue]

end Member

-- Whatever holds of what is there without a member, and is kept by loading it, holds.
theorem member_induction {α : Type} {P : α → Prop} {absent : α} {load : Path → Json → Noted α}
    (habsent : P absent) (hload : ∀ path value, P (load path value).value) (path : Path)
    (members : Members) (name : String) : P (member path members name absent load).value := by
  unfold member
  cases members.lookup name with
  | none => exact habsent
  | some value => exact hload _ value

theorem setPeriod_keeps (l : Lane) (path : Path) (value : Json) :
    (setPeriod l path value).value.name = l.name ∧
      (setPeriod l path value).value.wave = l.wave := by
  cases value with
  | number n =>
      simp only [setPeriod]
      split <;> exact ⟨rfl, rfl⟩
  | null | bool b | string s | array items | object members => exact ⟨rfl, rfl⟩

theorem setPhase_keeps (l : Lane) (path : Path) (value : Json) :
    (setPhase l path value).value.name = l.name ∧ (setPhase l path value).value.wave = l.wave := by
  cases value <;> exact ⟨rfl, rfl⟩

theorem lane_keeps (path : Path) (members : Members) :
    (lane path members).value.name = (member path members "name" "" laneName).value ∧
      (lane path members).value.wave =
        (member path members "wave" none stringValue).value.getD "" := by
  let l : Lane :=
    { name := (member path members "name" "" laneName).value
      wave := (member path members "wave" none stringValue).value.getD "" }
  have hperiod := member_induction (P := fun l' : Lane => l'.name = l.name ∧ l'.wave = l.wave)
    ⟨rfl, rfl⟩ (setPeriod_keeps l) path members "period"
  have hphase := member_induction (P := fun l' : Lane => l'.name = l.name ∧ l'.wave = l.wave)
    hperiod (fun path value => ⟨(setPhase_keeps _ path value).1.trans hperiod.1,
      (setPhase_keeps _ path value).2.trans hperiod.2⟩) path members "phase"
  exact hphase

theorem describes_lane (h : ∀ p ∈ fieldParts laneFields path members, p.IsAccepted) :
    Describes (lane path members).value members := by
  obtain ⟨hname, hwave⟩ := lane_keeps path members
  constructor
  · rw [hname]
    cases hvalue : members.lookup "name" with
    | none => exact Or.inl ⟨rfl, by simp [member, hvalue]⟩
    | some value =>
        have haccepted := isAccepted_member h List.mem_cons_self hvalue
        cases value with
        | string s => exact Or.inr (Or.inl ⟨s, rfl, by simp [member, hvalue, laneName]⟩)
        | number n => exact Or.inr (Or.inr ⟨n, rfl, by simp [member, hvalue, laneName]⟩)
        | null | bool b | array items | object members =>
            exact absurd rfl (haccepted (.wrongType _ .string) (List.mem_singleton_self _))
  · rw [hwave, value_stringMember h (by simp [laneFields])]
    cases (member path members "wave" none stringValue).value with
    | none => exact Or.inl ⟨rfl, rfl⟩
    | some s => exact Or.inr rfl
  · exact value_stringMember h (by simp [laneFields])

end Accepted

theorem setHscale_keeps (d : Diagram) (path : Path) (value : Json) :
    (setHscale d path value).value.signal = d.signal := by
  cases value with
  | number n =>
      simp only [setHscale]
      split <;> rfl
  | null | bool b | string s | array items | object members => rfl

theorem setSkin_keeps (d : Diagram) (path : Path) (value : Json) :
    (setSkin d path value).value.signal = d.signal := by
  cases value <;> rfl

theorem settings_keeps (d : Diagram) (path : Path) (value : Json) :
    (settings d path value).value.signal = d.signal := by
  cases value with
  | object members =>
      have hscale := member_induction (P := fun d' : Diagram => d'.signal = d.signal) rfl
        (setHscale_keeps d) path members "hscale"
      exact member_induction (P := fun d' : Diagram => d'.signal = d.signal) hscale
        (fun path value => (setSkin_keeps _ path value).trans hscale) path members "skin"
  | null | bool b | number n | string s | array items => rfl

-- The settings of a document do not touch its signal list.
theorem signal_diagram (members : Members) (value : Json) :
    (diagram members value).value.signal = (signal [.member "signal"] value).value :=
  member_induction (P := fun d : Diagram => d.signal = (signal [.member "signal"] value).value) rfl
    (settings_keeps { signal := (signal [.member "signal"] value).value }) [] members "config"

theorem exists_of_load {source : String} {loaded : Loaded} (h : load source = .ok loaded) :
    ∃ members value, Json.parse source = .ok (.object members) ∧
      members.lookup "signal" = some value ∧ (∀ p ∈ documentParts members, p.IsAccepted) ∧
      loaded.diagram = (diagram members value).value := by
  have hload := h
  unfold load at h
  split at h
  · next value hsource =>
      unfold ofJson at h
      split at h
      · next members =>
          split at h
          · next signalValue hsignal =>
              refine ⟨members, signalValue, hsource, hsignal, ?_⟩
              rw [load_eq hsource hsignal] at hload
              by_cases herror : ∃ problem ∈ (diagram members signalValue).problems, problem.isError
              · rw [settle_of_error herror] at hload
                cases hload
              · rw [settle_of_no_error herror] at hload
                cases hload
                refine ⟨?_, rfl⟩
                intro p hp problem hproblem hisError
                refine herror ⟨problem, ?_, hisError⟩
                rw [problems_diagram hsignal]
                exact List.mem_flatMap.mpr ⟨p, hp, hproblem⟩
          · cases h
      · cases h
  · cases h

theorem isLane_eq_false_iff (members : Members) :
    isLane members = false ↔
      ∀ name ∈ ["name", "wave", "node", "data", "label"], members.lookup name = none := by
  rw [isLane, List.any_eq_false]
  apply forall₂_congr
  intro name _
  rw [Bool.not_eq_true, Option.isSome_eq_false_iff, Option.isNone_iff_eq_none]

theorem groupName_eq_some_iff (items : List Json) (name : String) :
    groupName items = some name ↔ (∃ rest, items = .string name :: rest) ∨
      ∃ n rest, items = .number (.integer n) :: rest ∧ toString n = name := by
  unfold groupName
  split
  · simp
  · simp
  · next hstring hinteger =>
      constructor
      · intro h
        cases h
      · rintro (⟨rest, rfl⟩ | ⟨n, rest, rfl, -⟩)
        · exact absurd rfl (hstring name rest)
        · exact absurd rfl (hinteger n rest)

-- What row an object of an accepted signal list has.
theorem laneOf_accepted {path : Path} {members : Members}
    (h : ∀ p ∈ entryParts (path, members), p.IsAccepted) :
    (laneOf (path, members) = none ↔
      ∀ name ∈ ["name", "wave", "node", "data", "label"], members.lookup name = none) ∧
    ∀ l, laneOf (path, members) = some l → Describes l members := by
  rw [← isLane_eq_false_iff]
  simp only [entryParts] at h
  cases hlane : isLane members with
  | false => simp [laneOf, hlane]
  | true =>
      rw [if_pos hlane] at h
      refine ⟨by simp [laneOf, hlane], ?_⟩
      intro l hl
      rw [laneOf, if_pos hlane, Option.some.injEq] at hl
      rw [← hl]
      exact describes_lane h

-- The rows of a document are its objects, and the boxes its lists.
theorem load_lists_objects {source : String} {loaded : Loaded} (h : load source = .ok loaded) :
    ∃ members items, Json.parse source = .ok (.object members) ∧
      members.lookup "signal" = some (.array items) ∧
      loaded.diagram.signal.outline.rows.length = (objectsOf items).length ∧
      (∀ (r : ℕ) (o : Members), (objectsOf items)[r]? = some o →
        ∃ row : Row, loaded.diagram.signal.outline.rows[r]? = some row ∧ row.number = r ∧
          (row.lane = none ↔
            ∀ name ∈ ["name", "wave", "node", "data", "label"], o.lookup name = none) ∧
          ∀ l, row.lane = some l → Describes l o) ∧
      loaded.diagram.signal.outline.boxes.length = (listsOf items).length ∧
      ∀ (g : ℕ) (list : List Json), (listsOf items)[g]? = some list →
        ∃ box : GroupBox, loaded.diagram.signal.outline.boxes[g]? = some box ∧
          box.height = (objectsOf list).length ∧
          ∀ name, box.name = some name ↔ (∃ rest, list = .string name :: rest) ∨
            ∃ n rest, list = .number (.integer n) :: rest ∧ toString n = name := by
  obtain ⟨members, value, hsource, hsignal, haccepted, hdiagram⟩ := exists_of_load h
  have hinside : ∀ p ∈ signalParts [.member "signal"] value, p.IsAccepted := by
    intro p hp
    exact haccepted p (mem_fieldParts.mpr ⟨_, List.mem_cons_self, value, hsignal, hp⟩)
  have hlist := accepts_of_isAccepted (hinside _ List.mem_cons_self)
  obtain ⟨items, rfl⟩ : ∃ items, value = .array items := by
    cases value with
    | array items => exact ⟨items, rfl⟩
    | null | bool b | number n | string s | object members => cases hlist
  have hentries : loaded.diagram.signal.outline =
      Outline.ofEntries (Outline.indent (groupName items)) 0
        (entriesFrom [.member "signal"] 0 items).value := by
    rw [hdiagram, signal_diagram]
    rfl
  have hout := outlines_entriesFrom (Outline.indent (groupName items)) 0 [.member "signal"] 0 items
  have hnested := Outline.nested_ofEntries (Outline.indent (groupName items)) 0
    (entriesFrom [.member "signal"] 0 items).value
  have hobjects := map_snd_objectsFrom [.member "signal"] 0 items
  rw [← hentries] at hout hnested
  refine ⟨members, items, hsource, hsignal, ?_, ?_, ?_, ?_⟩
  · have hrows := congrArg List.length hout.rows
    rwa [List.length_map, List.length_map, ← List.length_map (f := Prod.snd), hobjects] at hrows
  · intro r o ho
    rw [← hobjects, List.getElem?_map, Option.map_eq_some_iff] at ho
    obtain ⟨⟨path, members⟩, hobject, rfl⟩ := ho
    have hrow := congrArg (·[r]?) hout.rows
    simp only [List.getElem?_map, hobject, Option.map_some, Option.map_eq_some_iff] at hrow
    obtain ⟨row, hrow, hlane⟩ := hrow
    refine ⟨row, hrow, (hnested.number_eq hrow).trans (Nat.zero_add r), ?_⟩
    rw [hlane]
    apply laneOf_accepted
    intro p hp
    refine hinside p (List.mem_cons_of_mem _ ?_)
    exact List.mem_flatMap.mpr ⟨_, List.mem_of_getElem? hobject, hp⟩
  · have hboxes := congrArg List.length hout.boxes
    rwa [List.length_map, List.length_map] at hboxes
  · intro g list hgroup
    have hbox := congrArg (·[g]?) hout.boxes
    simp only [List.getElem?_map, hgroup, Option.map_some, Option.map_eq_some_iff,
      Prod.mk.injEq] at hbox
    obtain ⟨box, hbox, hname, hheight⟩ := hbox
    refine ⟨box, hbox, hheight, ?_⟩
    intro name
    rw [hname, groupName_eq_some_iff]

-- A spacer and a list of a list, in a group that a number names.
theorem load_lists_nested_objects :
    let source := "\x7b\"signal\": [\"bus\", [3, \x7b\"name\": \" a \"\x7d, \x7b\x7d, " ++
      "[[null], \x7b\"node\": \"x\"\x7d]], \x7b\"label\": \"q\"\x7d]\x7d"
    ∃ loaded, load source = .ok loaded ∧
      loaded.diagram.signal.outline.rows.length = 4 ∧
      (∃ row : Row, loaded.diagram.signal.outline.rows[1]? = some row ∧ row.lane = none) ∧
      loaded.diagram.signal.outline.boxes.length = 3 ∧
      ∃ box : GroupBox, loaded.diagram.signal.outline.boxes[2]? = some box ∧
        box.name = some "3" ∧ box.height = 3 := by
  intro source
  let items : List Json := [.string "bus",
    .array [.number (.integer 3), .object [("name", .string " a ")], .object [],
      .array [.array [.null], .object [("node", .string "x")]]],
    .object [("label", .string "q")]]
  let members : Members := [("signal", .array items)]
  have hsource : Json.parse source = .ok (.object members) := by
    simp only [source, members, items]
    rfl
  have hsignal : members.lookup "signal" = some (.array items) := rfl
  have hproblems : (diagram members (.array items)).problems = [] := by
    rw [problems_diagram hsignal]
    rfl
  have hload := (load_eq hsource hsignal).trans (settle_of_no_error (by simp [hproblems]))
  obtain ⟨members', items', hsource', hsignal', hrows, hobjects, hboxes, hlists⟩ :=
    load_lists_objects hload
  cases hsource.symm.trans hsource'
  cases hsignal.symm.trans hsignal'
  refine ⟨_, hload, hrows, ?_, hboxes, ?_⟩
  · obtain ⟨row, hrow, -, hspacer, -⟩ := hobjects 1 [] rfl
    exact ⟨row, hrow, hspacer.mpr (by decide)⟩
  · obtain ⟨box, hbox, hheight, hname⟩ := hlists 2 _ rfl
    exact ⟨box, hbox, (hname "3").mpr (Or.inr ⟨3, _, rfl, rfl⟩), hheight⟩

end Document

end TimingDiagram
