import Mathlib
import TimingDiagram.Proofs.Document.EdgeForm
import TimingDiagram.Proofs.Document.MarkupForm
import TimingDiagram.Proofs.Document.QuotedPath
import TimingDiagram.Proofs.Document.Reports

namespace TimingDiagram

namespace Document

-- The value that a step leads to.
def Json.step? : Json → Step → Option Json
  | .object members, .member name => members.lookup name
  | .array items, .item i => items[i]?
  | _, _ => none

-- The value that a path leads to.
def Json.follow? (value : Json) (path : Path) : Option Json := path.foldlM Json.step? value

-- A list that has the form of markup as far as it can be told without looking into inner lists.
def IsMarkupLevel (items : List Json) : Prop :=
  ∃ tag members children first, MarkupParts tag items members children first ∧
    (∀ m ∈ members, IsText m.2) ∧ ∀ child ∈ children, IsText child ∨ ∃ inner, child = .array inner

end Document

open Document

-- Whether a value is what was expected.
def Expected.Admits : Expected → Json → Prop
  | .stringList, value => ∃ items, value = .array items ∧ ∀ item ∈ items, IsText item
  | .stringOrList, value | .captionForm, value =>
    (∃ s, value = .string s) ∨ ∃ items, value = .array items
  | expected, value => expected.accepts value = true

-- What is wrong with the value that a problem is about. A lane can be named by a number as well.
def Problem.Blames (found : Json) : Problem → Prop
  | .wrongType path expected =>
    ¬ expected.Admits found ∧ (path.getLast? = some (.member "name") → ¬ IsText found)
  | .notPositive _ => ∃ n, found = .number n ∧ n.toFloat ≤ 0.0
  | .periodCapped _ _ => ∃ n, found = .number n ∧ 100.0 < n.toFloat
  | .malformedMarkup _ _ => ∃ items, found = .array items ∧ ¬ IsMarkupLevel items
  | .malformedEdge _ text =>
    found = .string text ∧ ∀ indent word rest, EdgeCut text.toList indent word rest → word = []
  | .unknownConnector _ between =>
    between ≠ "" ∧ Connector.table.lookup between = none ∧ ∃ text indent word rest,
      found = .string text ∧ EdgeCut text.toList indent word rest ∧
        String.ofList word.tail.dropLast = between
  | .noLabels path value =>
    found = value ∧ ticks? value = none ∧
      (path.getLast? = some (.member "tick") ∨ path.getLast? = some (.member "tock"))
  | .scaleIgnored _ scale => ∃ n, found = .number n ∧ roundHalfEven n.toFloat = scale ∧ scale ≤ 0.0
  | .scaleCapped _ _ => ∃ n, found = .number n ∧ 100.0 < roundHalfEven n.toFloat
  | .unsupportedSetting path => path.getLast? = some (.member "hbounds")
  | _ => False

namespace Document

-- A value at one path and a value below it at another one.
inductive Leads : Path → Json → Path → Json → Prop
  | here {path : Path} {value : Json} : Leads path value path value
  | member {path target : Path} {name : String} {members : Members} {value found : Json}
    (word : ∀ c ∈ name.toList, c.isAlpha) (hvalue : members.lookup name = some value)
    (below : Leads (path ++ [.member name]) value target found) :
    Leads path (.object members) target found
  | item {path target : Path} {i : ℕ} {items : List Json} {value found : Json}
    (hvalue : items[i]? = some value) (below : Leads (path ++ [.item i]) value target found) :
    Leads path (.array items) target found

section Leads

variable {path middle target : Path} {value between found : Json}

theorem Leads.trans (h : Leads path value middle between)
    (hbelow : Leads middle between target found) : Leads path value target found := by
  induction h with
  | here => exact hbelow
  | member word hvalue _ ih => exact .member word hvalue (ih hbelow)
  | item hvalue _ ih => exact .item hvalue (ih hbelow)

theorem Json.follow?_cons {next : Json} {s : Step} {steps : Path} (h : value.step? s = some next) :
    value.follow? (s :: steps) = next.follow? steps := by
  rw [follow?, List.foldlM_cons, h]
  rfl

-- The steps from one to the other can be followed.
theorem Leads.exists_steps (h : Leads path value target found) :
    ∃ steps : Path, (∀ s ∈ steps, s.IsPlain) ∧ target = path ++ steps ∧
      value.follow? steps = some found := by
  induction h with
  | here => exact ⟨[], by simp, by simp, rfl⟩
  | @member path _ name members value _ word hvalue _ ih =>
      obtain ⟨steps, hplain, rfl, hfollow⟩ := ih
      refine ⟨.member name :: steps, List.forall_mem_cons.mpr ⟨word, hplain⟩, by simp, ?_⟩
      have hstep : Json.step? (.object members) (.member name) = some value := hvalue
      rw [Json.follow?_cons hstep, hfollow]
  | @item path _ i items value _ hvalue _ ih =>
      obtain ⟨steps, hplain, rfl, hfollow⟩ := ih
      refine ⟨.item i :: steps, List.forall_mem_cons.mpr ⟨trivial, hplain⟩, by simp, ?_⟩
      have hstep : Json.step? (.array items) (.item i) = some value := hvalue
      rw [Json.follow?_cons hstep, hfollow]

end Leads

section Objects

mutual

theorem leads_of_mem_objectsIn {path : Path} {value : Json} {place : Path × Members}
    (hplace : place ∈ objectsIn path value) : Leads path value place.1 (.object place.2) := by
  cases value with
  | array items =>
      obtain ⟨j, item, hitem, hbelow⟩ := exists_leads_of_mem_objectsFrom hplace
      rw [Nat.zero_add] at hbelow
      exact .item hitem hbelow
  | object members =>
      rw [List.mem_singleton.mp hplace]
      exact .here
  | null | bool b | number n | string s => cases hplace

theorem exists_leads_of_mem_objectsFrom {path : Path} {i : ℕ} {items : List Json}
    {place : Path × Members} (hplace : place ∈ objectsFrom path i items) :
    ∃ j item, items[j]? = some item ∧
      Leads (path ++ [.item (i + j)]) item place.1 (.object place.2) := by
  cases items with
  | nil => cases hplace
  | cons item rest =>
      rcases List.mem_append.mp hplace with hplace | hplace
      · exact ⟨0, item, rfl, leads_of_mem_objectsIn hplace⟩
      · obtain ⟨j, other, hother, hbelow⟩ := exists_leads_of_mem_objectsFrom hplace
        rw [Nat.add_assoc, Nat.add_comm 1] at hbelow
        exact ⟨j + 1, other, hother, hbelow⟩

end

end Objects

-- Some roles go with the name of the member that has them, and a type is all that is expected.
structure Part.IsSuited (p : Part) : Prop where
  typed : ∀ expected, p.role = .value expected → expected.Admits p.value →
    expected.accepts p.value = true
  title : p.path.getLast? = some (.member "name") → p.role = .title
  ticks : p.role = .ticks →
    p.path.getLast? = some (.member "tick") ∨ p.path.getLast? = some (.member "tock")
  unsupported : p.role = .unsupported → p.path.getLast? = some (.member "hbounds")

-- A part inside a value at a path.
structure Part.IsInside (p : Part) (path : Path) (value : Json) : Prop where
  leads : Leads path value p.path p.value
  suited : p.IsSuited

-- A member that is asked for by a plain name and has its parts inside it.
structure IsField (field : String × Inside) : Prop where
  word : ∀ c ∈ field.1.toList, c.isAlpha
  inside : ∀ (path : Path) value, ∀ p ∈ field.2 (path ++ [.member field.1]) value,
    p.IsInside (path ++ [.member field.1]) value

section Fields

variable {path : Path} {members : Members} {fields : Fields} {name : String} {p : Part}

theorem isInside_of_mem_fieldParts (hfields : ∀ field ∈ fields, IsField field)
    (hp : p ∈ fieldParts fields path members) : p.IsInside path (.object members) := by
  obtain ⟨field, hfield, value, hvalue, hp⟩ := mem_fieldParts.mp hp
  obtain ⟨word, inside⟩ := hfields field hfield
  obtain ⟨leads, suited⟩ := inside path value p hp
  exact ⟨.member word hvalue leads, suited⟩

theorem isField_inRole {role : Role} (word : ∀ c ∈ name.toList, c.isAlpha)
    (typed : ∀ expected, role = .value expected → ∀ value, expected.Admits value →
      expected.accepts value = true)
    (title : name = "name" → role = .title)
    (ticks : role = .ticks → name = "tick" ∨ name = "tock")
    (unsupported : role = .unsupported → name = "hbounds") : IsField (name, inRole role) where
  word := word
  inside path value p hp := by
    rw [List.mem_singleton.mp hp]
    refine ⟨.here, ?_, by simpa using title, by simpa using ticks, by simpa using unsupported⟩
    exact fun expected hrole => typed expected hrole value

theorem isField_laneFields : ∀ field ∈ laneFields, IsField field := by
  intro field hfield
  simp only [laneFields, List.mem_cons, List.not_mem_nil, or_false] at hfield
  rcases hfield with rfl | rfl | rfl | rfl | rfl | rfl | rfl
  all_goals exact isField_inRole (by simp) (by simp [Expected.Admits]) (by simp) (by simp) (by simp)

theorem isField_settingsFields : ∀ field ∈ settingsFields, IsField field := by
  intro field hfield
  simp only [settingsFields, List.mem_cons, List.not_mem_nil, or_false] at hfield
  rcases hfield with rfl | rfl | rfl
  all_goals exact isField_inRole (by simp) (by simp [Expected.Admits]) (by simp) (by simp) (by simp)

theorem isField_axisFields : ∀ field ∈ axisFields, IsField field := by
  intro field hfield
  simp only [axisFields, List.mem_cons, List.not_mem_nil, or_false] at hfield
  rcases hfield with rfl | rfl | rfl
  all_goals exact isField_inRole (by simp) (by simp [Expected.Admits]) (by simp) (by simp) (by simp)

-- A value as a whole, where its type is all that matters.
theorem isInside_whole {value : Json} {expected : Expected} (hname : name ≠ "name")
    (typed : expected.Admits value → expected.accepts value = true) :
    Part.IsInside ⟨path ++ [.member name], value, .value expected⟩ (path ++ [.member name])
      value := by
  refine ⟨.here, ?_, by simpa using hname, nofun, nofun⟩
  intro expected' hrole
  cases hrole
  exact typed

theorem isField_recordParts (word : ∀ c ∈ name.toList, c.isAlpha) (hname : name ≠ "name")
    (hfields : ∀ field ∈ fields, IsField field) : IsField (name, recordParts fields) where
  word := word
  inside path value p hp := by
    rcases List.mem_cons.mp hp with rfl | hp
    · exact isInside_whole hname id
    · cases value with
      | object members => exact isInside_of_mem_fieldParts hfields hp
      | null | bool b | number n | string s | array items => cases hp

theorem isField_signalParts : IsField ("signal", signalParts) where
  word := by simp
  inside path value p hp := by
    rcases List.mem_cons.mp hp with rfl | hp
    · exact isInside_whole (by simp) id
    · cases value with
      | array items =>
          obtain ⟨⟨place, members⟩, hplace, hp⟩ := List.mem_flatMap.mp hp
          have hplace : (place, members) ∈
              objectsIn (path ++ [.member "signal"]) (.array items) := hplace
          have hbelow := leads_of_mem_objectsIn hplace
          rw [entryParts] at hp
          split at hp
          · obtain ⟨leads, suited⟩ := isInside_of_mem_fieldParts isField_laneFields hp
            exact ⟨hbelow.trans leads, suited⟩
          · cases hp
      | null | bool b | number n | string s | object members => cases hp

theorem isField_edgesParts : IsField ("edge", edgesParts) where
  word := by simp
  inside path value p hp := by
    cases value with
    | array items =>
        obtain ⟨⟨item, i⟩, hplace, rfl⟩ := List.mem_map.mp hp
        have hitem : items[i]? = some item := List.mem_zipIdx_iff_getElem?.mp hplace
        exact ⟨.item hitem .here, nofun, by simp, nofun, nofun⟩
    | null | bool b | number n | string s | object members =>
        rw [List.mem_singleton.mp hp]
        exact isInside_whole (by simp) (by simp [Expected.Admits])

theorem isField_documentFields : ∀ field ∈ documentFields, IsField field := by
  intro field hfield
  simp only [documentFields, List.mem_cons, List.not_mem_nil, or_false] at hfield
  rcases hfield with rfl | rfl | rfl | rfl | rfl
  · exact isField_signalParts
  · exact isField_recordParts (by simp) (by simp) isField_settingsFields
  · exact isField_recordParts (by simp) (by simp) isField_axisFields
  · exact isField_recordParts (by simp) (by simp) isField_axisFields
  · exact isField_edgesParts

-- Every part of a document is inside the value of one of its members.
theorem exists_top_of_mem_documentParts (hp : p ∈ documentParts members) :
    ∃ name top, members.lookup name = some top ∧ (∀ c ∈ name.toList, c.isAlpha) ∧
      p.IsInside [.member name] top := by
  obtain ⟨field, hfield, top, htop, hp⟩ := mem_fieldParts.mp hp
  obtain ⟨word, inside⟩ := isField_documentFields field hfield
  exact ⟨field.1, top, htop, word, inside [] top p hp⟩

end Fields

section Markup

variable {tag : String} {items children : List Json} {members : Members} {first : ℕ}

theorem MarkupParts.unique {tag' : String} {members' : Members} {children' : List Json}
    {first' : ℕ} (parts : MarkupParts tag items members children first)
    (parts' : MarkupParts tag' items members' children' first') :
    tag = tag' ∧ members = members' ∧ children = children' ∧ first = first' := by
  cases parts with
  | attributed =>
      cases parts' with
      | attributed => exact ⟨rfl, rfl, rfl, rfl⟩
      | plain _ h => exact absurd rfl (h members)
  | plain _ h =>
      cases parts' with
      | attributed => exact absurd rfl (h members')
      | plain => exact ⟨rfl, rfl, rfl, rfl⟩

theorem MarkupParts.getElem?_children (parts : MarkupParts tag items members children first)
    (i : ℕ) : items[first + i]? = children[i]? := by
  cases parts with
  | attributed => rw [Nat.add_comm, List.getElem?_cons_succ, List.getElem?_cons_succ]
  | plain => rw [Nat.add_comm, List.getElem?_cons_succ]

theorem MarkupParts.isMarkupLevel_iff (parts : MarkupParts tag items members children first) :
    IsMarkupLevel items ↔ (∀ m ∈ members, IsText m.2) ∧
      ∀ child ∈ children, IsText child ∨ ∃ inner, child = .array inner := by
  constructor
  · rintro ⟨tag', members', children', first', parts', hattrs, hchildren⟩
    obtain ⟨-, rfl, rfl, -⟩ := parts.unique parts'
    exact ⟨hattrs, hchildren⟩
  · rintro ⟨hattrs, hchildren⟩
    exact ⟨tag, members, children, first, parts, hattrs, hchildren⟩

-- The list that the first fault is in is found at the path of the fault, and it is at fault itself.
theorem FirstFault.exists_leads {path p : Path} {value : Json} {fault : MarkupFault}
    (h : FirstFault path value p fault) (hlist : ∃ items, value = .array items) :
    ∃ inner, Leads path value p (.array inner) ∧ ¬ IsMarkupLevel inner := by
  induction h with
  | notList h =>
      obtain ⟨items, rfl⟩ := hlist
      exact absurd rfl (h items)
  | noTag h =>
      refine ⟨_, .here, ?_⟩
      rintro ⟨tag, members, children, first, parts, -⟩
      exact h tag parts.head?_eq
  | attr parts _ h =>
      refine ⟨_, .here, ?_⟩
      rw [parts.isMarkupLevel_iff]
      rintro ⟨hattrs, -⟩
      exact h (hattrs _ (List.mem_append_right _ List.mem_cons_self))
  | child parts _ _ h hother =>
      refine ⟨_, .here, ?_⟩
      rw [parts.isMarkupLevel_iff]
      rintro ⟨-, hchildren⟩
      rcases hchildren _ (List.mem_append_right _ List.mem_cons_self) with htext | ⟨inner, hinner⟩
      · exact h htext
      · exact hother inner hinner
  | inner parts _ _ _ ih =>
      obtain ⟨inner, hleads, hlevel⟩ := ih ⟨_, rfl⟩
      refine ⟨inner, .item ?_ hleads, hlevel⟩
      rw [parts.getElem?_children, List.getElem?_append_right (Nat.le_refl _), Nat.sub_self,
        List.getElem?_cons_zero]

end Markup

section Blame

variable {path : Path} {value : Json} {problem : Problem}

theorem not_isText_of_isSome_ne_true (h : ¬ (scalarText? value).isSome = true) :
    ¬ IsText value := by
  rwa [Option.not_isSome_iff_eq_none, scalarText?_eq_none_iff] at h

theorem exists_leads_of_blames (h : problem.path? = some path ∧ problem.Blames value) :
    ∃ target found, problem.path? = some target ∧ Leads path value target found ∧
      problem.Blames found :=
  ⟨path, value, h.1, .here, h.2⟩

theorem blames_of_mem_report_title (h : problem ∈ Role.title.report path value) :
    problem.path? = some path ∧ problem.Blames value := by
  rw [Role.report] at h
  split at h
  · cases h
  · rename_i hnone
    have htext := not_isText_of_isSome_ne_true hnone
    rw [List.mem_singleton.mp h]
    refine ⟨rfl, ?_, fun _ => htext⟩
    intro hstring
    cases value with
    | string s => exact htext ⟨s, .string s⟩
    | null | bool b | number n | array items | object members => cases hstring

section Unnamed

variable (hname : path.getLast? ≠ some (.member "name"))

include hname

theorem blames_of_wrongType {expected : Expected} (h : problem ∈ [.wrongType path expected])
    (hadmits : ¬ expected.Admits value) :
    problem.path? = some path ∧ problem.Blames value := by
  rw [List.mem_singleton.mp h]
  exact ⟨rfl, hadmits, fun hlast => absurd hlast hname⟩

theorem blames_of_mem_report_period (h : problem ∈ Role.period.report path value) :
    problem.path? = some path ∧ problem.Blames value := by
  cases value with
  | number n =>
      simp only [Role.report] at h
      split at h
      · rename_i hzero
        rw [List.mem_singleton.mp h]
        exact ⟨rfl, n, rfl, hzero⟩
      · split at h
        · rename_i hcap
          rw [List.mem_singleton.mp h]
          exact ⟨rfl, n, rfl, hcap⟩
        · cases h
  | null | bool b | string s | array items | object members =>
      exact blames_of_wrongType hname h (by simp [Expected.Admits, Expected.accepts])

theorem blames_of_mem_report_scale (h : problem ∈ Role.scale.report path value) :
    problem.path? = some path ∧ problem.Blames value := by
  cases value with
  | number n =>
      simp only [Role.report] at h
      split at h
      · rename_i hzero
        rw [List.mem_singleton.mp h]
        exact ⟨rfl, n, rfl, rfl, hzero⟩
      · split at h
        · rename_i hcap
          have hmax : Float.ofNat Diagram.maxHscale = 100.0 := rfl
          rw [hmax] at hcap
          rw [List.mem_singleton.mp h]
          exact ⟨rfl, n, rfl, hcap⟩
        · cases h
  | null | bool b | string s | array items | object members =>
      exact blames_of_wrongType hname h (by simp [Expected.Admits, Expected.accepts])

theorem blames_of_mem_report_labels (h : problem ∈ Role.labels.report path value) :
    problem.path? = some path ∧ problem.Blames value := by
  cases value with
  | string s => cases h
  | array items =>
      obtain ⟨item, hitem, h⟩ := List.mem_flatMap.mp h
      split at h
      · cases h
      · rename_i hnone
        have htext := not_isText_of_isSome_ne_true hnone
        refine blames_of_wrongType hname h ?_
        rintro ⟨_, ⟨⟩, hitems⟩
        exact htext (hitems item hitem)
  | null | bool b | number n | object members =>
      exact blames_of_wrongType hname h (by simp [Expected.Admits])

theorem blames_of_mem_report_edge (h : problem ∈ Role.edge.report path value) :
    problem.path? = some path ∧ problem.Blames value := by
  cases value with
  | string s =>
      obtain ⟨indent, word, rest, hcut⟩ := exists_edgeCut s.toList
      cases word with
      | nil =>
          simp only [Role.report, hcut.ofText?_nil] at h
          rw [List.mem_singleton.mp h]
          refine ⟨rfl, rfl, fun indent' word' rest' hcut' => ?_⟩
          by_contra hword
          obtain ⟨first, others, rfl⟩ := List.exists_cons_of_ne_nil hword
          have hread := hcut'.ofText?_cons
          rw [hcut.ofText?_nil] at hread
          cases hread
      | cons first others =>
          simp only [Role.report, hcut.ofText?_cons, Connector.ofText?_eq_lookup] at h
          split at h
          · cases h
          · rename_i hunknown
            rw [List.mem_singleton.mp h]
            rw [Bool.or_eq_true, not_or, String.isEmpty_iff, Option.not_isSome_iff_eq_none]
              at hunknown
            exact ⟨rfl, hunknown.1, hunknown.2, s, indent, _, rest, rfl, hcut, rfl⟩
  | null | bool b | number n | array items | object members =>
      exact blames_of_wrongType hname h (by simp [Expected.Admits, Expected.accepts])

-- A caption is at fault as a whole, or it is a list with a list at fault inside it.
theorem exists_blamed_caption (h : problem ∈ Role.caption.report path value) :
    ∃ target found, problem.path? = some target ∧ Leads path value target found ∧
      problem.Blames found := by
  cases value with
  | string s => cases h
  | array items =>
      simp only [Role.report] at h
      split at h
      · cases h
      · rename_i fault herror
        rw [List.mem_singleton.mp h]
        obtain ⟨p, fault, hfault, rfl⟩ := ((readsForm (.array items)).error_iff _ _).mp herror
        obtain ⟨inner, hleads, hlevel⟩ := hfault.exists_leads ⟨items, rfl⟩
        exact ⟨p, .array inner, rfl, hleads, inner, rfl, hlevel⟩
  | null | bool b | number n | object members =>
      exact exists_leads_of_blames (blames_of_wrongType hname h (by simp [Expected.Admits]))

end Unnamed

-- A part that something is noted about has a value at fault inside it.
theorem exists_blamed {p : Part} (hp : p.IsSuited) (h : problem ∈ p.report) :
    ∃ target found, problem.path? = some target ∧ Leads p.path p.value target found ∧
      problem.Blames found := by
  obtain ⟨path, value, role⟩ := p
  obtain ⟨typed, title, ticks, unsupported⟩ := hp
  have hname : role ≠ .title → path.getLast? ≠ some (.member "name") := mt title
  cases role with
  | value expected =>
      simp only [Part.report, Role.report] at h
      split at h
      · cases h
      · rename_i haccepts
        exact exists_leads_of_blames (blames_of_wrongType (hname (by simp)) h
          fun hadmits => haccepts (typed _ rfl hadmits))
  | title => exact exists_leads_of_blames (blames_of_mem_report_title h)
  | period => exact exists_leads_of_blames (blames_of_mem_report_period (hname (by simp)) h)
  | labels => exact exists_leads_of_blames (blames_of_mem_report_labels (hname (by simp)) h)
  | scale => exact exists_leads_of_blames (blames_of_mem_report_scale (hname (by simp)) h)
  | unsupported =>
      rw [List.mem_singleton.mp h]
      exact exists_leads_of_blames ⟨rfl, unsupported rfl⟩
  | caption => exact exists_blamed_caption (hname (by simp)) h
  | ticks =>
      simp only [Part.report, Role.report] at h
      split at h
      · cases h
      · rename_i hnone
        rw [List.mem_singleton.mp h]
        exact exists_leads_of_blames ⟨rfl, rfl, Option.not_isSome_iff_eq_none.mp hnone, ticks rfl⟩
  | edge => exact exists_leads_of_blames (blames_of_mem_report_edge (hname (by simp)) h)

-- Every kind of problem that a value can be blamed for.
theorem code_of_blames {found : Json} (h : problem.Blames found) : problem.kind.code ∈
    ["E103", "E104", "E200", "E201", "W100", "W101", "W102", "W200"] := by
  cases problem with
  | unreadable | notObject | missingSignal | unsupportedDiagram => cases h
  | _ => simp [Problem.kind, ProblemKind.code]

end Blame

-- Whatever is noted about a document quotes the path of a value that is there, and this value is
-- at fault.
theorem load_blames_values {source : String} {members : Members} {value : Json}
    (hsource : Json.parse source = .ok (.object members))
    (hsignal : members.lookup "signal" = some value) :
    let reports := (diagram members value).problems
    (∀ errors, load source = .error errors → errors ⊆ reports) ∧
      (∀ loaded, load source = .ok loaded → loaded.warnings ⊆ reports) ∧
      ∀ problem ∈ reports,
        problem.kind.code ∈ ["E103", "E104", "E200", "E201", "W100", "W101", "W102", "W200"] ∧
        ∃ path found, problem.path? = some path ∧
          Path.ofText? (Path.firstQuoted problem.message) = some path ∧
          (Json.object members).follow? path = some found ∧ problem.Blames found := by
  intro reports
  rw [load_eq hsource hsignal]
  refine ⟨fun _ => errors_subset_of_settle, fun _ => warnings_subset_of_settle, ?_⟩
  intro problem hproblem
  have hparts : reports = (documentParts members).flatMap Part.report := problems_diagram hsignal
  rw [hparts] at hproblem
  obtain ⟨p, hp, hreport⟩ := List.mem_flatMap.mp hproblem
  obtain ⟨name, top, htop, word, leads, suited⟩ := exists_top_of_mem_documentParts hp
  obtain ⟨path, found, hpath, hbelow, hblames⟩ := exists_blamed suited hreport
  obtain ⟨steps, hplain, rfl, hfollow⟩ := (leads.trans hbelow).exists_steps
  have hall : ∀ s ∈ Step.member name :: steps, s.IsPlain :=
    List.forall_mem_cons.mpr ⟨word, hplain⟩
  have hstep : Json.step? (.object members) (.member name) = some top := htop
  refine ⟨code_of_blames hblames, .member name :: steps, found, hpath, ?_, ?_, hblames⟩
  · rw [Problem.firstQuoted_message hpath (Path.mem_text hall)]
    exact Path.ofText?_text hall
  · rw [Json.follow?_cons hstep, hfollow]

-- A list inside a list of markup, behind an object of attributes, with a wrong attribute itself.
theorem load_blames_values_inner_list :
    let source := "\x7b\"signal\":[1,\x7b\"wave\":5\x7d],\"head\":\x7b\"text\":" ++
      "[\"b\",\x7b\x7d,\"t\",[\"i\",[\"u\",\x7b\"y\":true\x7d]]]\x7d\x7d"
    let value : Json := .array [.number (.integer 1), .object [("wave", .number (.integer 5))]]
    let inner : Json := .array [.string "u", .object [("y", .bool true)]]
    let markup : Json := .array [.string "b", .object [], .string "t", .array [.string "i", inner]]
    let members : Members := [("head", .object [("text", markup)]), ("signal", value)]
    let path : Path := [.member "head", .member "text", .item 3, .item 1]
    Json.parse source = .ok (.object members) ∧ members.lookup "signal" = some value ∧
      .malformedMarkup path (.attribute "y") ∈ (diagram members value).problems ∧
      Path.ofText? "head.text[3][1]" = some path ∧
      (Json.object members).follow? path = some inner ∧
      ∀ problem ∈ (diagram members value).problems, ∃ path found,
        Path.ofText? (Path.firstQuoted problem.message) = some path ∧
        (Json.object members).follow? path = some found ∧ problem.Blames found := by
  intro source value inner markup members path
  have hsource : Json.parse source = .ok (.object members) := by
    simp only [source, value, inner, markup, members]
    rfl
  have hsignal : members.lookup "signal" = some value := rfl
  have hmarkup : markupElement [.member "head", .member "text"] markup =
      .error (.malformedMarkup path (.attribute "y")) := by
    simp only [inner, markup, path]
    cbv
  refine ⟨hsource, hsignal, ?_, by cbv, rfl, ?_⟩
  · have hcaption : ⟨[.member "head", .member "text"], markup, .caption⟩ ∈ documentParts members :=
      mem_fieldParts.mpr ⟨("head", recordParts axisFields), by simp [documentFields], _, rfl,
        List.mem_cons_of_mem _ (mem_fieldParts.mpr
          ⟨("text", inRole .caption), by simp [axisFields], _, rfl, List.mem_cons_self⟩)⟩
    rw [problems_diagram hsignal]
    refine List.mem_flatMap.mpr ⟨_, hcaption, ?_⟩
    simp only [Part.report, Role.report, markup] at hmarkup ⊢
    rw [hmarkup]
    exact List.mem_cons_self
  · intro problem hproblem
    obtain ⟨-, path, found, -, hquoted, hfollow, hblames⟩ :=
      (load_blames_values hsource hsignal).2.2 problem hproblem
    exact ⟨path, found, hquoted, hfollow, hblames⟩

end Document

end TimingDiagram
