import Mathlib
import TimingDiagram.Document.Load

namespace TimingDiagram

namespace Noted

variable {α β : Type}

@[simp] theorem problems_pure (a : α) : (pure a : Noted α).problems = [] := rfl

@[simp] theorem problems_bind (x : Noted α) (f : α → Noted β) :
    (x >>= f).problems = x.problems ++ (f x.value).problems := rfl

@[simp] theorem value_pure (a : α) : (pure a : Noted α).value = a := rfl

@[simp] theorem value_bind (x : Noted α) (f : α → Noted β) :
    (x >>= f).value = (f x.value).value := rfl

@[simp] theorem problems_map (f : α → β) (x : Noted α) : (f <$> x).problems = x.problems :=
  List.append_nil x.problems

@[simp] theorem value_map (f : α → β) (x : Noted α) : (f <$> x).value = f x.value := rfl

@[simp] theorem problems_note (p : Problem) : (note p).problems = [p] := rfl

@[simp] theorem problems_noteIf (condition : Prop) [Decidable condition] (p : Problem) :
    (noteIf condition p).problems = if condition then [p] else [] := rfl

instance : LawfulMonad Noted :=
  LawfulMonad.mk' Noted (fun x => congrArg (Noted.mk x.value) (List.append_nil x.problems))
    (fun _ _ => rfl) fun _ _ _ => congrArg (Noted.mk _) (List.append_assoc _ _ _)

theorem problems_mapM (load : α → Noted β) (items : List α) :
    (items.mapM load).problems = items.flatMap fun a => (load a).problems := by
  induction items with
  | nil => rfl
  | cons a rest ih => simp [List.mapM_cons, ih]

end Noted

-- Whether a value is of the type that was expected.
def Expected.accepts : Expected → Document.Json → Bool
  | .list, .array _ | .string, .string _ | .number, .number _ | .object, .object _ => true
  | _, _ => false

namespace Document

-- What a part of a document is read as.
inductive Role where
  | value (expected : Expected)
  | title | period | labels | scale | unsupported | caption | ticks | edge
deriving DecidableEq

-- What is noted about a value that stands at a path in a role.
def Role.report (path : Path) (value : Json) : Role → List Problem
  | .value expected => if expected.accepts value then [] else [.wrongType path expected]
  | .title => if (scalarText? value).isSome then [] else [.wrongType path .string]
  | .period =>
    match value with
    | .number n =>
      if n.toFloat ≤ 0.0 then [.notPositive path]
      else if Lane.maxPeriod < n.toFloat then [.periodCapped path Lane.maxPeriod]
      else []
    | _ => [.wrongType path .number]
  | .labels =>
    match value with
    | .string _ => []
    | .array items =>
      items.flatMap fun item =>
        if (scalarText? item).isSome then [] else [.wrongType path .stringList]
    | _ => [.wrongType path .stringOrList]
  | .scale =>
    match value with
    | .number n =>
      let hscale := roundHalfEven n.toFloat
      if hscale ≤ 0.0 then [.scaleIgnored path hscale]
      else if Float.ofNat Diagram.maxHscale < hscale then [.scaleCapped path Diagram.maxHscale]
      else []
    | _ => [.wrongType path .number]
  | .unsupported => [.unsupportedSetting path]
  | .caption =>
    match value with
    | .string _ => []
    | .array items =>
      match markupElement path (.array items) with
      | .ok _ => []
      | .error problem => [problem]
    | _ => [.wrongType path .captionForm]
  | .ticks => if (ticks? value).isSome then [] else [.noLabels path value]
  | .edge =>
    match value with
    | .string s =>
      match EdgeText.ofText? s with
      | none => [.malformedEdge path s]
      | some e =>
        if e.between.isEmpty || (Connector.ofText? e.between).isSome then []
        else [.unknownConnector path e.between]
    | _ => [.wrongType path .string]

-- A value of a document with its path and its role.
structure Part where
  path : Path
  value : Json
  role : Role

def Part.report (p : Part) : List Problem := p.role.report p.path p.value

-- The parts inside a value that stands at a path.
abbrev Inside := Path → Json → List Part

-- A value that is a part by itself.
def inRole (role : Role) : Inside := fun path value => [⟨path, value, role⟩]

-- The parts inside a member, if it is there.
def memberParts (path : Path) (members : Members) (name : String) (inside : Inside) : List Part :=
  match members.lookup name with
  | some value => inside (path ++ [.member name]) value
  | none => []

-- The members that an object is asked for, in this order.
abbrev Fields := List (String × Inside)

def fieldParts (fields : Fields) (path : Path) (members : Members) : List Part :=
  fields.flatMap fun field => memberParts path members field.1 field.2

theorem mem_fieldParts {fields : Fields} {path : Path} {members : Members} {p : Part} :
    p ∈ fieldParts fields path members ↔ ∃ field ∈ fields, ∃ value,
      members.lookup field.1 = some value ∧ p ∈ field.2 (path ++ [.member field.1]) value := by
  rw [fieldParts, List.mem_flatMap]
  apply exists_congr
  intro field
  apply and_congr_right
  intro _
  cases hvalue : members.lookup field.1 <;> simp [memberParts, hvalue]

def laneFields : Fields :=
  [("name", inRole .title), ("wave", inRole (.value .string)), ("period", inRole .period),
    ("phase", inRole (.value .number)), ("data", inRole .labels),
    ("node", inRole (.value .string)), ("label", inRole (.value .string))]

mutual

-- The objects that are reached through lists only, each with its path, in document order.
def objectsIn (path : Path) : Json → List (Path × Members)
  | .array items => objectsFrom path 0 items
  | .object members => [(path, members)]
  | _ => []

-- The objects in the items of a list from item `i` on.
def objectsFrom (path : Path) (i : ℕ) : List Json → List (Path × Members)
  | [] => []
  | item :: rest => objectsIn (path ++ [.item i]) item ++ objectsFrom path (i + 1) rest

end

-- The parts of an entry that is an object: a spacer has none.
def entryParts : Path × Members → List Part
  | (path, members) => if isLane members then fieldParts laneFields path members else []

def signalParts : Inside := fun path value =>
  ⟨path, value, .value .list⟩ ::
    match value with
    | .array items => (objectsFrom path 0 items).flatMap entryParts
    | _ => []

-- An object, and what is inside the members it is asked for.
def recordParts (fields : Fields) : Inside := fun path value =>
  ⟨path, value, .value .object⟩ ::
    match value with
    | .object members => fieldParts fields path members
    | _ => []

def settingsFields : Fields :=
  [("hscale", inRole .scale), ("skin", inRole (.value .string)), ("hbounds", inRole .unsupported)]

def axisFields : Fields :=
  [("text", inRole .caption), ("tick", inRole .ticks), ("tock", inRole .ticks)]

-- The edges themselves; only what is no list is a part as a whole.
def edgesParts : Inside := fun path value =>
  match value with
  | .array items => items.zipIdx.map fun place => ⟨path ++ [.item place.2], place.1, .edge⟩
  | _ => [⟨path, value, .value .stringList⟩]

def documentFields : Fields :=
  [("signal", signalParts), ("config", recordParts settingsFields),
    ("head", recordParts axisFields), ("foot", recordParts axisFields), ("edge", edgesParts)]

-- The parts of a document in the order they are read.
def documentParts (members : Members) : List Part := fieldParts documentFields [] members

section Loading

variable {α : Type} (path : Path) (value : Json)

-- A member is reported by what is inside it.
theorem problems_member {load : Path → Json → Noted α} {inside : Inside}
    (h : ∀ path value, (load path value).problems = (inside path value).flatMap Part.report)
    (members : Members) (name : String) (absent : α) :
    (member path members name absent load).problems =
      (memberParts path members name inside).flatMap Part.report := by
  unfold member memberParts
  cases members.lookup name with
  | none => rfl
  | some value => exact h _ value

theorem flatMap_report_inRole (role : Role) :
    (inRole role path value).flatMap Part.report = role.report path value :=
  List.append_nil _

theorem problems_laneName :
    (laneName path value).problems = (inRole .title path value).flatMap Part.report := by
  cases value <;> rfl

theorem problems_stringValue :
    (stringValue path value).problems =
      (inRole (.value .string) path value).flatMap Part.report := by
  cases value <;> rfl

theorem problems_setPeriod (l : Lane) :
    (setPeriod l path value).problems = (inRole .period path value).flatMap Part.report := by
  rw [flatMap_report_inRole]
  cases value with
  | number n =>
      simp only [setPeriod, Role.report]
      split <;> simp
  | _ => rfl

theorem problems_setPhase (l : Lane) :
    (setPhase l path value).problems =
      (inRole (.value .number) path value).flatMap Part.report := by
  cases value <;> rfl

theorem problems_dataItem (item : Json) :
    (dataItem path item).problems =
      if (scalarText? item).isSome then [] else [.wrongType path .stringList] := by
  unfold dataItem
  cases scalarText? item <;> rfl

theorem problems_laneData :
    (laneData path value).problems = (inRole .labels path value).flatMap Part.report := by
  rw [flatMap_report_inRole]
  cases value with
  | array items => simp only [laneData, Noted.problems_mapM, problems_dataItem, Role.report]
  | _ => rfl

theorem problems_lane (members : Members) :
    (lane path members).problems = (fieldParts laneFields path members).flatMap Part.report := by
  simp only [lane, fieldParts, laneFields, Noted.problems_bind, Noted.problems_pure,
    problems_member path problems_laneName, problems_member path problems_stringValue,
    problems_member path fun path value => problems_setPeriod path value _,
    problems_member path fun path value => problems_setPhase path value _,
    problems_member path problems_laneData, List.flatMap_cons, List.flatMap_nil,
    List.flatMap_append, List.append_nil]

mutual

theorem problems_entry (path : Path) (value : Json) :
    (entry path value).problems =
      ((objectsIn path value).flatMap entryParts).flatMap Part.report := by
  cases value with
  | array items => simpa [entry, objectsIn] using problems_entriesFrom path 0 items
  | object members =>
      rw [entry, objectsIn, List.flatMap_singleton, entryParts]
      split
      · simpa using problems_lane path members
      · rfl
  | null | bool b | number n | string s => rfl

theorem problems_entriesFrom (path : Path) (i : ℕ) (items : List Json) :
    (entriesFrom path i items).problems =
      ((objectsFrom path i items).flatMap entryParts).flatMap Part.report := by
  cases items with
  | nil => rfl
  | cons item rest =>
      simp only [entriesFrom, objectsFrom, Noted.problems_bind, Noted.problems_pure,
        problems_entry, problems_entriesFrom, List.flatMap_append, List.append_nil]

end

theorem problems_signal :
    (signal path value).problems = (signalParts path value).flatMap Part.report := by
  cases value with
  | array items => simpa [signal, signalParts, Part.report, Role.report, Expected.accepts] using
      problems_entriesFrom path 0 items
  | _ => rfl

theorem problems_setHscale (d : Diagram) :
    (setHscale d path value).problems = (inRole .scale path value).flatMap Part.report := by
  rw [flatMap_report_inRole]
  cases value with
  | number n =>
      simp only [setHscale, Role.report]
      split <;> simp
  | _ => rfl

theorem problems_setSkin (d : Diagram) :
    (setSkin d path value).problems = (inRole (.value .string) path value).flatMap Part.report := by
  cases value <;> rfl

theorem problems_settings (d : Diagram) :
    (settings d path value).problems =
      (recordParts settingsFields path value).flatMap Part.report := by
  cases value with
  | object members =>
      have hskip : ∀ path value, (skip path value).problems =
          (inRole .unsupported path value).flatMap Part.report := fun _ _ => rfl
      simp only [settings, recordParts, fieldParts, settingsFields, Noted.problems_bind,
        Noted.problems_pure, problems_member path fun path value => problems_setHscale path value _,
        problems_member path fun path value => problems_setSkin path value _,
        problems_member path hskip, List.flatMap_cons, List.flatMap_nil, List.flatMap_append,
        List.append_nil]
      rfl
  | _ => rfl

theorem problems_caption :
    (caption path value).problems = (inRole .caption path value).flatMap Part.report := by
  rw [flatMap_report_inRole]
  cases value with
  | array items =>
      simp only [caption, Role.report]
      cases markupElement path (.array items) <;> rfl
  | _ => rfl

theorem problems_ticks :
    (ticks path value).problems = (inRole .ticks path value).flatMap Part.report := by
  rw [flatMap_report_inRole]
  unfold ticks Role.report
  cases ticks? value <;> rfl

theorem problems_axis :
    (axis path value).problems = (recordParts axisFields path value).flatMap Part.report := by
  cases value with
  | object members =>
      simp only [axis, recordParts, fieldParts, axisFields, Noted.problems_bind,
        Noted.problems_pure, problems_member path problems_caption,
        problems_member path problems_ticks, List.flatMap_cons, List.flatMap_nil,
        List.flatMap_append, List.append_nil]
      rfl
  | _ => rfl

theorem problems_edgeItem : (edgeItem path value).problems = Role.edge.report path value := by
  cases value with
  | string s =>
      simp only [edgeItem, edge, Role.report]
      cases EdgeText.ofText? s with
      | none => rfl
      | some e =>
          simp only [connector]
          cases hbetween : e.between.isEmpty with
          | true => rfl
          | false => cases Connector.ofText? e.between <;> rfl
  | _ => rfl

theorem problems_edgesFrom (i : ℕ) (items : List Json) :
    (edgesFrom path i items).problems =
      (items.zipIdx i).flatMap fun place =>
        Role.edge.report (path ++ [.item place.2]) place.1 := by
  induction items generalizing i with
  | nil => rfl
  | cons item rest ih =>
      simp only [edgesFrom, Noted.problems_bind, Noted.problems_pure, problems_edgeItem, ih,
        List.zipIdx_cons, List.flatMap_cons, List.append_nil]

theorem problems_edges :
    (edges path value).problems = (edgesParts path value).flatMap Part.report := by
  cases value with
  | array items =>
      rw [edges, problems_edgesFrom, edgesParts, List.flatMap_map]
      rfl
  | _ => rfl

end Loading

-- What is noted about a document is what is noted about its parts, one after the other.
theorem problems_diagram {members : Members} {value : Json}
    (hsignal : members.lookup "signal" = some value) :
    (diagram members value).problems = (documentParts members).flatMap Part.report := by
  have hparts : memberParts [] members "signal" signalParts =
      signalParts [.member "signal"] value := by
    rw [memberParts, hsignal]
    rfl
  simp only [diagram, documentParts, fieldParts, documentFields, hparts, Noted.problems_bind,
    Noted.problems_pure, problems_signal,
    problems_member [] fun path value => problems_settings path value _,
    problems_member [] problems_axis, problems_member [] problems_edges, List.flatMap_cons,
    List.flatMap_nil, List.flatMap_append, List.append_nil]

end Document

end TimingDiagram
