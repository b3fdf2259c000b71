import TimingDiagram.Proofs.Document.Alone

namespace TimingDiagram

namespace Document

theorem isError_eq (problem : Problem) :
    problem.isError = !(problem.kind.severity == .warning) := by
  unfold Problem.isError
  cases problem.kind.severity <;> rfl

section Outcome

variable {noted : Noted Diagram}

-- If there are errors, they are the answer and nothing else is.
theorem settle_of_error (h : ∃ problem ∈ noted.problems, problem.isError) :
    settle noted = .error (noted.problems.filter Problem.isError) := by
  obtain ⟨problem, hmem, herror⟩ := h
  have hne : noted.problems.filter Problem.isError ≠ [] :=
    List.ne_nil_of_mem (List.mem_filter.mpr ⟨hmem, herror⟩)
  have hempty : (noted.problems.filter Problem.isError).isEmpty = false := by
    rwa [List.isEmpty_eq_false_iff]
  simp only [settle, hempty]
  rfl

-- Without errors all that was noted are warnings.
theorem settle_of_no_error (h : ¬ ∃ problem ∈ noted.problems, problem.isError) :
    settle noted = .ok ⟨noted.value,
      noted.problems.filter fun problem => problem.kind.severity == .warning⟩ := by
  have hnone : ∀ problem ∈ noted.problems, problem.isError = false := by simpa using h
  have herrors : noted.problems.filter Problem.isError = [] :=
    List.filter_eq_nil_iff.mpr fun problem hmem => by simp [hnone problem hmem]
  have hwarnings : noted.problems.filter (fun problem => problem.kind.severity == .warning) =
      noted.problems :=
    List.filter_eq_self.mpr fun problem hmem => by simpa [isError_eq] using hnone problem hmem
  rw [settle, herrors, hwarnings]
  rfl

-- Nothing is handed on that was not noted.
theorem errors_subset_of_settle {errors : List Problem} (h : settle noted = .error errors) :
    errors ⊆ noted.problems := by
  by_cases herror : ∃ problem ∈ noted.problems, problem.isError
  · rw [settle_of_error herror, Except.error.injEq] at h
    rw [← h]
    exact List.filter_subset_self _
  · rw [settle_of_no_error herror] at h
    cases h

theorem warnings_subset_of_settle {loaded : Loaded} (h : settle noted = .ok loaded) :
    loaded.warnings ⊆ noted.problems := by
  by_cases herror : ∃ problem ∈ noted.problems, problem.isError
  · rw [settle_of_error herror] at h
    cases h
  · rw [settle_of_no_error herror, Except.ok.injEq] at h
    rw [← h]
    exact List.filter_subset_self _

end Outcome

theorem load_eq {source : String} {members : Members} {value : Json}
    (hsource : Json.parse source = .ok (.object members))
    (hsignal : members.lookup "signal" = some value) :
    load source = settle (diagram members value) := by
  rw [load, hsource]
  simp only [ofJson, hsignal]

theorem problems_of_isAlone {others : Members} {value : Json} {p : Part}
    (hsignal : others.lookup "signal" = some value) (halone : p.IsAlone (documentParts others)) :
    (diagram others value).problems = p.report := by
  obtain ⟨front, back, hparts, hclean⟩ := halone
  have hfront : front.flatMap Part.report = [] :=
    List.flatMap_eq_nil_iff.mpr fun q hq => hclean q (List.mem_append_left back hq)
  have hback : back.flatMap Part.report = [] :=
    List.flatMap_eq_nil_iff.mpr fun q hq => hclean q (List.mem_append_right front hq)
  rw [problems_diagram hsignal, hparts, List.flatMap_append, List.flatMap_cons, hfront, hback,
    List.nil_append, List.append_nil]

-- What is noted about a part is what is noted where nothing else is, and all of it in the order of
-- the parts decides whether the document is loaded.
theorem load_reports_parts {source : String} {members : Members} {value : Json}
    (hsource : Json.parse source = .ok (.object members))
    (hsignal : members.lookup "signal" = some value) :
    let reports := (documentParts members).flatMap Part.report
    (diagram members value).problems = reports ∧
      (∀ p ∈ documentParts members,
        (∀ others otherValue, others.lookup "signal" = some otherValue →
          p.IsAlone (documentParts others) → (diagram others otherValue).problems = p.report) ∧
        (p.report ≠ [] → ∃ others otherValue, others.lookup "signal" = some otherValue ∧
          p.IsAlone (documentParts others))) ∧
      (∀ errors, load source = .error errors ↔
        (∃ problem ∈ reports, problem.isError) ∧ errors = reports.filter Problem.isError) ∧
      ∀ loaded, load source = .ok loaded ↔
        (¬ ∃ problem ∈ reports, problem.isError) ∧
          loaded = ⟨(diagram members value).value,
            reports.filter fun problem => problem.kind.severity == .warning⟩ := by
  intro reports
  have hproblems : (diagram members value).problems = reports := problems_diagram hsignal
  refine ⟨hproblems, ?_, ?_, ?_⟩
  · intro p hp
    exact ⟨fun _ _ => problems_of_isAlone, exists_isAlone_documentParts hp⟩
  · intro errors
    rw [load_eq hsource hsignal, ← hproblems]
    by_cases herror : ∃ problem ∈ (diagram members value).problems, problem.isError
    · rw [settle_of_error herror, Except.error.injEq, and_iff_right herror]
      exact eq_comm
    · rw [settle_of_no_error herror]
      exact iff_of_false (fun h => nomatch h) fun h => herror h.1
  · intro loaded
    rw [load_eq hsource hsignal, ← hproblems]
    by_cases herror : ∃ problem ∈ (diagram members value).problems, problem.isError
    · rw [settle_of_error herror]
      exact iff_of_false (fun h => nomatch h) fun h => h.1 herror
    · rw [settle_of_no_error herror, Except.ok.injEq, and_iff_right herror]
      exact eq_comm

-- Five problems in five places, two of them warnings. Alone, the fourth one would be noted as well.
theorem load_reports_three_errors :
    let source := "\x7b\"signal\": [\x7b\"wave\": 5\x7d, 7, [\x7b\x7d, " ++
      "\x7b\"data\": [true, 1]\x7d]], \"head\": \x7b\"tick\": []\x7d, \"edge\": [\"a=b\", \"\"]\x7d"
    let value : Json := .array [.object [("wave", .number (.integer 5))], .number (.integer 7),
      .array [.object [], .object [("data", .array [.bool true, .number (.integer 1)])]]]
    let members : Members := [("edge", .array [.string "a=b", .string ""]),
      ("head", .object [("tick", .array [])]), ("signal", value)]
    Json.parse source = .ok (.object members) ∧
      members.lookup "signal" = some value ∧
      (diagram members value).problems =
        [.wrongType [.member "signal", .item 0, .member "wave"] .string,
          .wrongType [.member "signal", .item 2, .item 1, .member "data"] .stringList,
          .noLabels [.member "head", .member "tick"] (.array []),
          .unknownConnector [.member "edge", .item 0] "=",
          .malformedEdge [.member "edge", .item 1] ""] ∧
      (diagram [("edge", .array [.string "a=b"]), ("signal", .array [])] (.array [])).problems =
        [.unknownConnector [.member "edge", .item 0] "="] ∧
      load source = .error
        [.wrongType [.member "signal", .item 0, .member "wave"] .string,
          .wrongType [.member "signal", .item 2, .item 1, .member "data"] .stringList,
          .malformedEdge [.member "edge", .item 1] ""] := by
  intro source value members
  have hsource : Json.parse source = .ok (.object members) := by
    simp only [source, value, members]
    rfl
  have hsignal : members.lookup "signal" = some value := rfl
  have hparts : (documentParts members).flatMap Part.report =
      [.wrongType [.member "signal", .item 0, .member "wave"] .string,
        .wrongType [.member "signal", .item 2, .item 1, .member "data"] .stringList,
        .noLabels [.member "head", .member "tick"] (.array []),
        .unknownConnector [.member "edge", .item 0] "=",
        .malformedEdge [.member "edge", .item 1] ""] := rfl
  obtain ⟨hproblems, halone, herrors, -⟩ := load_reports_parts hsource hsignal
  refine ⟨hsource, hsignal, hproblems.trans hparts, ?_, (herrors _).mpr ⟨?_, ?_⟩⟩
  · let p : Part := ⟨[.member "edge", .item 0], .string "a=b", .edge⟩
    have hp : p ∈ documentParts members :=
      mem_fieldParts.mpr
        ⟨("edge", edgesParts), by simp [documentFields], _, rfl, List.mem_cons_self⟩
    exact (halone p hp).1 _ _ rfl ⟨_, [], rfl, isClean_singleton rfl⟩
  · rw [hparts]
    exact ⟨_, List.mem_cons_self, rfl⟩
  · rw [hparts]
    rfl

end Document

end TimingDiagram
