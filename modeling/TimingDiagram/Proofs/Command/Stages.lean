import TimingDiagram.Command.Run
import TimingDiagram.Proofs.Command.FileTree
import TimingDiagram.Proofs.Document.Reports
import TimingDiagram.Proofs.Drawing.ReadBack
import TimingDiagram.Proofs.Drawing.TickNumbers

namespace TimingDiagram.Command

open FileView Files

section Answers

variable {σ : Type} [Files (StateM σ)] (s : σ)

-- The settings file that a run reads, if it reads one. One that is named need not be there.
def settingsPath (named user : Option String) : Option String :=
  named.or ((Settings.localPath :: user.toList).find? (presentIn s))

-- The settings of a file, or what is wrong with it.
def settingsOf (path : String) : Except Failure Settings :=
  if presentIn s path then
    match textIn s path with
    | .error e => .error (.file e)
    | .ok text =>
      match Settings.ofText? text with
      | some settings => .ok settings
      | none => .error (.settings (.malformed path))
  else .error (.settings (.missingFile path))

def settingsIn (named user : Option String) : Except Failure Settings :=
  match settingsPath s named user with
  | some path => settingsOf s path
  | none => .ok {}

-- The text of the glyph definitions that settings choose.
def glyphsIn (settings : Settings) : Except FileError (Option String) :=
  match settings.glyphFile with
  | some path => (textIn s path).map some
  | none => .ok none

-- The drawing of a document as the first one of a page, under the settings of a run.
def drawingOf (args : Arguments) (user : Option String) (source : String) : Option String := do
  let settings ← (settingsIn s args.settings user).toOption
  let loaded ← (Document.load source).toOption
  let background ← settings.backgroundColor.toOption
  let glyphs ← (glyphsIn s settings).toOption
  let root ← (loaded.diagram.draw { strict := settings.strict, glyphs } 0).toOption
  return Svg.document (background.map Color.text) root

theorem exists_of_drawingOf {s : σ} {args : Arguments} {user : Option String}
    {source drawing : String} (h : drawingOf s args user source = some drawing) :
    ∃ settings loaded background glyphs root,
      settingsIn s args.settings user = .ok settings ∧ Document.load source = .ok loaded ∧
      settings.backgroundColor = .ok background ∧ glyphsIn s settings = .ok glyphs ∧
      loaded.diagram.draw { strict := settings.strict, glyphs } 0 = .ok root ∧
      drawing = Svg.document (background.map Color.text) root := by
  obtain ⟨settings, hsettings, h⟩ := Option.bind_eq_some_iff.mp h
  obtain ⟨loaded, hloaded, h⟩ := Option.bind_eq_some_iff.mp h
  obtain ⟨background, hbackground, h⟩ := Option.bind_eq_some_iff.mp h
  obtain ⟨glyphs, hglyphs, h⟩ := Option.bind_eq_some_iff.mp h
  obtain ⟨root, hroot, h⟩ := Option.bind_eq_some_iff.mp h
  exact ⟨settings, loaded, background, glyphs, root, toOption_eq_some.mp hsettings,
    toOption_eq_some.mp hloaded, toOption_eq_some.mp hbackground, toOption_eq_some.mp hglyphs,
    toOption_eq_some.mp hroot, (Option.some.inj h).symm⟩

end Answers

-- What a run goes through.
inductive Stage where
  | settings | input | document | background | glyphs | drawing | output
deriving DecidableEq, Repr

namespace Stage

def beforeOutput : List Stage := [settings, input, document, background, glyphs, drawing]

def all : List Stage := beforeOutput ++ [output]

def errorOf {α : Type} : Except Failure α → Option Failure
  | .ok _ => none
  | .error failure => some failure

variable {σ : Type} [Files (StateM σ)] (s : σ) (args : Arguments) (user : Option String)

-- How a stage fails in a state, whatever becomes of the stages it does not build on. A stage that
-- lacks what it works on does not fail itself.
def failure? : Stage → Option Failure
  | settings => errorOf (settingsIn s args.settings user)
  | input => errorOf ((textIn s args.input).mapError .file)
  | document => do
    let source ← (textIn s args.input).toOption
    errorOf ((Document.load source).mapError .document)
  | background => do
    let settings ← (settingsIn s args.settings user).toOption
    errorOf (settings.backgroundColor.mapError fun e => .settings (.background e))
  | glyphs => do
    let settings ← (settingsIn s args.settings user).toOption
    errorOf ((glyphsIn s settings).mapError .file)
  | drawing => do
    let settings ← (settingsIn s args.settings user).toOption
    let source ← (textIn s args.input).toOption
    let loaded ← (Document.load source).toOption
    let glyphs ← (glyphsIn s settings).toOption
    errorOf ((loaded.diagram.draw { strict := settings.strict, glyphs } 0).mapError .drawing)
  | output => do
    let source ← (textIn s args.input).toOption
    let drawing ← drawingOf s args user source
    errorOf ((writtenIn s args.output drawing).1.mapError .file)

-- The failure of the first of some stages that fails.
def firstFailure (stages : List Stage) : Option Failure := stages.findSome? (failure? s args user)

@[simp] theorem firstFailure_nil : firstFailure s args user [] = none := rfl

@[simp] theorem firstFailure_cons (stage : Stage) (rest : List Stage) :
    firstFailure s args user (stage :: rest) =
      (stage.failure? s args user).or (firstFailure s args user rest) := by
  rw [firstFailure, List.findSome?_cons]
  cases failure? s args user stage with
  | none => rfl
  | some failure => rfl

theorem firstFailure_all :
    firstFailure s args user all =
      (firstFailure s args user beforeOutput).or (output.failure? s args user) := by
  rw [firstFailure, all, List.findSome?_append, List.findSome?_singleton]
  rfl

section Crashes

variable {s args user} {failure : Failure}

theorem errorOf_eq_some {α : Type} {x : Except Failure α} :
    errorOf x = some failure ↔ x = .error failure := by
  cases x with
  | error e => simp [errorOf]
  | ok a => simp [errorOf]

theorem exists_of_errorOf_mapError {ε α : Type} {x : Except ε α} {g : ε → Failure}
    (h : errorOf (x.mapError g) = some failure) : ∃ e, x = .error e ∧ failure = g e := by
  cases x with
  | error e => exact ⟨e, rfl, (Option.some.inj h).symm⟩
  | ok a => cases h

theorem crash?_of_settingsIn {named : Option String}
    (h : settingsIn s named user = .error failure) : failure.crash? = none := by
  unfold settingsIn at h
  split at h
  · unfold settingsOf at h
    split at h
    · split at h
      · cases h
        rfl
      · split at h
        · cases h
        · cases h
          rfl
    · cases h
      rfl
  · cases h

-- Only a drawing can crash, and only one for which some sum is too large.
theorem not_fits_of_crash {stage : Stage} {reason : Overflow}
    (h : stage.failure? s args user = some failure) (hcrash : failure.crash? = some reason) :
    failure = .drawing (.overflow reason) ∧ ∃ source loaded, textIn s args.input = .ok source ∧
      Document.load source = .ok loaded ∧ ¬ loaded.diagram.Fits := by
  cases stage with
  | settings =>
      rw [crash?_of_settingsIn (errorOf_eq_some.mp h)] at hcrash
      cases hcrash
  | input =>
      obtain ⟨e, -, rfl⟩ := exists_of_errorOf_mapError h
      cases hcrash
  | document =>
      obtain ⟨source, -, h⟩ := Option.bind_eq_some_iff.mp h
      obtain ⟨problems, -, rfl⟩ := exists_of_errorOf_mapError h
      cases hcrash
  | background =>
      obtain ⟨settings, -, h⟩ := Option.bind_eq_some_iff.mp h
      obtain ⟨e, -, rfl⟩ := exists_of_errorOf_mapError h
      cases hcrash
  | glyphs =>
      obtain ⟨settings, -, h⟩ := Option.bind_eq_some_iff.mp h
      obtain ⟨e, -, rfl⟩ := exists_of_errorOf_mapError h
      cases hcrash
  | drawing =>
      obtain ⟨settings, -, h⟩ := Option.bind_eq_some_iff.mp h
      obtain ⟨source, hsource, h⟩ := Option.bind_eq_some_iff.mp h
      obtain ⟨loaded, hloaded, h⟩ := Option.bind_eq_some_iff.mp h
      obtain ⟨glyphs, -, h⟩ := Option.bind_eq_some_iff.mp h
      obtain ⟨e, hdrawn, rfl⟩ := exists_of_errorOf_mapError h
      cases e with
      | undefinedEvent name => cases hcrash
      | overflow other =>
          cases hcrash
          exact ⟨rfl, source, loaded, toOption_eq_some.mp hsource, toOption_eq_some.mp hloaded,
            Diagram.not_fits_of_overflow hdrawn⟩
  | output =>
      obtain ⟨source, -, h⟩ := Option.bind_eq_some_iff.mp h
      obtain ⟨drawing, -, h⟩ := Option.bind_eq_some_iff.mp h
      obtain ⟨e, -, rfl⟩ := exists_of_errorOf_mapError h
      cases hcrash

end Crashes

end Stage

section Actions

variable {σ α β : Type} {x : ExceptT Failure (StateM σ) α}
  {f : α → ExceptT Failure (StateM σ) β} {s s' : σ}

theorem run_bind_ok {a : α} (h : x.run.run s = (.ok a, s')) :
    (x >>= f).run.run s = (f a).run.run s' := by
  rw [ExceptT.run_bind, StateT.run_bind, h]
  rfl

theorem run_bind_error {failure : Failure} (h : x.run.run s = (.error failure, s')) :
    (x >>= f).run.run s = (.error failure, s') := by
  rw [ExceptT.run_bind, StateT.run_bind, h]
  rfl

theorem run_lift {operation : StateM σ α} {a : α} (h : operation.run s = (a, s')) :
    (ExceptT.lift operation : ExceptT Failure (StateM σ) α).run.run s = (.ok a, s') := by
  rw [ExceptT.run_lift, StateT.run_map, h]
  rfl

theorem run_needed {operation : StateM σ (Except FileError α)} {r : Except FileError α}
    (h : operation.run s = (r, s')) :
    (Settings.needed operation).run.run s = (r.mapError Failure.file, s') := by
  refine (run_bind_ok (run_lift h)).trans ?_
  cases r with
  | error e => rfl
  | ok a => rfl

theorem run_parse {source : String} {r : Except (List Problem) Document.Loaded}
    (h : Document.load source = r) :
    (parse source : ExceptT Failure (StateM σ) Diagram).run.run s =
      ((r.map Document.Loaded.diagram).mapError Failure.document, s) := by
  rw [← h]
  unfold parse
  cases Document.load source with
  | error problems => rfl
  | ok loaded => rfl

end Actions

section Looking

variable {σ : Type} [FileView σ] [Files (StateM σ)] [LawfulFiles σ] (s : σ)

theorem run_isPresent (path : String) :
    (Settings.isPresent path : ExceptT Failure (StateM σ) Bool).run.run s =
      (.ok (presentIn s path), s) :=
  run_lift (Prod.ext rfl (LawfulFiles.isPresent_state s path))

theorem run_readText {path : String} {r : Except FileError String} (h : textIn s path = r) :
    (Settings.needed (Files.readText path) : ExceptT Failure (StateM σ) String).run.run s =
      (r.mapError Failure.file, s) :=
  run_needed (Prod.ext h (LawfulFiles.readText_state s path))

theorem run_readFrom (path : String) :
    (Settings.readFrom path : ExceptT Failure (StateM σ) Settings).run.run s =
      (settingsOf s path, s) := by
  rw [Settings.readFrom, run_bind_ok (run_isPresent s path), settingsOf]
  split
  · cases htext : textIn s path with
    | error e => rw [run_bind_error (run_readText s htext)]
    | ok text =>
        rw [run_bind_ok (run_readText s htext)]
        cases hsettings : Settings.ofText? text with
        | none =>
            simp only [hsettings]
            rfl
        | some settings =>
            simp only [hsettings]
            rfl
  · rfl

theorem run_choose {named user : Option String} {r : Except Failure Settings}
    (h : settingsIn s named user = r) :
    (Settings.choose named user : ExceptT Failure (StateM σ) Settings).run.run s = (r, s) := by
  rw [← h]
  cases named with
  | some path => exact run_readFrom s path
  | none =>
      refine (run_bind_ok (run_isPresent s _)).trans ?_
      cases hlocal : presentIn s Settings.localPath with
      | true =>
          have hpath : settingsPath s none user = some Settings.localPath := by
            rw [settingsPath, Option.none_or, List.find?_cons_of_pos hlocal]
          rw [if_pos rfl, run_readFrom, settingsIn, hpath]
      | false =>
          have hpath : settingsPath s none user = user.toList.find? (presentIn s) := by
            rw [settingsPath, Option.none_or, List.find?_cons_of_neg (by simp [hlocal])]
          rw [if_neg Bool.false_ne_true, settingsIn, hpath]
          cases user with
          | none => rfl
          | some path =>
              refine (run_bind_ok (run_isPresent s _)).trans ?_
              cases huser : presentIn s path with
              | true =>
                  rw [if_pos rfl, run_readFrom, Option.toList_some, List.find?_cons_of_pos huser]
              | false =>
                  rw [if_neg Bool.false_ne_true, Option.toList_some,
                    List.find?_cons_of_neg (by simp [huser])]
                  rfl

theorem run_readGlyphs {settings : Settings} {r : Except FileError (Option String)}
    (h : glyphsIn s settings = r) :
    (readGlyphs settings : ExceptT Failure (StateM σ) (Option String)).run.run s =
      (r.mapError Failure.file, s) := by
  rw [← h]
  unfold readGlyphs glyphsIn
  cases settings.glyphFile with
  | none => rfl
  | some path =>
      simp only
      cases htext : textIn s path with
      | error e =>
          rw [run_bind_error (run_readText s htext)]
          rfl
      | ok text =>
          rw [run_bind_ok (run_readText s htext)]
          rfl

-- All that can come of a drawing.
theorem run_draw (settings : Settings) (d : Diagram) (index : ℕ) :
    let drawn := (draw settings d index : ExceptT Failure (StateM σ) String).run.run s
    (∃ e, settings.backgroundColor = .error e ∧
      drawn = (.error (.settings (.background e)), s)) ∨
    ∃ background, settings.backgroundColor = .ok background ∧
      ((∃ e, glyphsIn s settings = .error e ∧ drawn = (.error (.file e), s)) ∨
      ∃ glyphs, glyphsIn s settings = .ok glyphs ∧
        ((∃ e, d.draw { strict := settings.strict, glyphs } index = .error e ∧
          drawn = (.error (.drawing e), s)) ∨
        ∃ root, d.draw { strict := settings.strict, glyphs } index = .ok root ∧
          drawn = (.ok (Svg.document (background.map Color.text) root), s))) := by
  intro drawn
  have hdrawn : drawn = (draw settings d index : ExceptT Failure (StateM σ) String).run.run s := rfl
  unfold draw at hdrawn
  cases hcolor : settings.backgroundColor with
  | error e =>
      rw [hcolor] at hdrawn
      exact .inl ⟨e, rfl, hdrawn⟩
  | ok background =>
      rw [hcolor] at hdrawn
      refine .inr ⟨background, rfl, ?_⟩
      cases hglyphs : glyphsIn s settings with
      | error e => exact .inl ⟨e, rfl, hdrawn.trans (run_bind_error (run_readGlyphs s hglyphs))⟩
      | ok glyphs =>
          rw [run_bind_ok (run_readGlyphs s hglyphs)] at hdrawn
          refine .inr ⟨glyphs, rfl, ?_⟩
          cases hroot : d.draw { strict := settings.strict, glyphs } index with
          | error e =>
              rw [hroot] at hdrawn
              exact .inl ⟨e, rfl, hdrawn⟩
          | ok root =>
              rw [hroot] at hdrawn
              exact .inr ⟨root, rfl, hdrawn⟩

end Looking

-- What a run does before it writes.
def prepare {m : Type → Type} [Monad m] [Files m] (args : Arguments) (user : Option String) :
    ExceptT Failure m String := do
  let settings ← Settings.choose args.settings user
  let source ← Settings.needed (Files.readText args.input)
  let d ← parse source
  draw settings d 0

theorem run_eq_prepare {m : Type → Type} [Monad m] [LawfulMonad m] [Files m] (args : Arguments)
    (user : Option String) :
    (run args user : ExceptT Failure m Unit) =
      prepare args user >>= fun drawing => Settings.needed (Files.writeText args.output drawing) := by
  simp only [run, prepare, bind_assoc]

section Stages

variable {σ : Type} [FileView σ] [Files (StateM σ)] [LawfulFiles σ]

open Stage

-- Before anything is written nothing changes, and of several failures the first one counts.
theorem run_prepare (s : σ) (args : Arguments) (user : Option String) :
    let prepared := (prepare args user : ExceptT Failure (StateM σ) String).run.run s
    (∃ failure, prepared = (.error failure, s) ∧
      firstFailure s args user beforeOutput = some failure) ∨
    ∃ source drawing, prepared = (.ok drawing, s) ∧
      firstFailure s args user beforeOutput = none ∧
      textIn s args.input = .ok source ∧ drawingOf s args user source = some drawing := by
  intro prepared
  have hprepared : prepared = (prepare args user : ExceptT Failure (StateM σ) String).run.run s :=
    rfl
  unfold prepare at hprepared
  cases hsettings : settingsIn s args.settings user with
  | error failure =>
      refine .inl ⟨failure, hprepared.trans (run_bind_error (run_choose s hsettings)), ?_⟩
      simp [beforeOutput, failure?, errorOf, hsettings]
  | ok settings =>
      rw [run_bind_ok (run_choose s hsettings)] at hprepared
      cases hsource : textIn s args.input with
      | error e =>
          refine .inl ⟨.file e, hprepared.trans (run_bind_error (run_readText s hsource)), ?_⟩
          simp [beforeOutput, failure?, errorOf, Except.mapError, hsettings, hsource]
      | ok source =>
          rw [run_bind_ok (run_readText s hsource)] at hprepared
          cases hload : Document.load source with
          | error problems =>
              refine .inl ⟨.document problems,
                hprepared.trans (run_bind_error (run_parse hload)), ?_⟩
              simp [beforeOutput, failure?, errorOf, Except.mapError, Except.toOption, hsettings,
                hsource, hload]
          | ok loaded =>
              rw [run_bind_ok (run_parse hload)] at hprepared
              obtain ⟨e, hcolor, hdrawn⟩ | ⟨background, hcolor, hrest⟩ :=
                run_draw s settings loaded.diagram 0
              · refine .inl ⟨.settings (.background e), hprepared.trans hdrawn, ?_⟩
                simp [beforeOutput, failure?, errorOf, Except.mapError, Except.toOption, hsettings,
                  hsource, hload, hcolor]
              obtain ⟨e, hglyphs, hdrawn⟩ | ⟨glyphs, hglyphs, hrest⟩ := hrest
              · refine .inl ⟨.file e, hprepared.trans hdrawn, ?_⟩
                simp [beforeOutput, failure?, errorOf, Except.mapError, Except.toOption, hsettings,
                  hsource, hload, hcolor, hglyphs]
              obtain ⟨e, hroot, hdrawn⟩ | ⟨root, hroot, hdrawn⟩ := hrest
              · refine .inl ⟨.drawing e, hprepared.trans hdrawn, ?_⟩
                simp [beforeOutput, failure?, errorOf, Except.mapError, Except.toOption, hsettings,
                  hsource, hload, hcolor, hglyphs, hroot]
              refine .inr ⟨source, _, hprepared.trans hdrawn, ?_, rfl, ?_⟩
              · simp [beforeOutput, failure?, errorOf, Except.mapError, Except.toOption, hsettings,
                  hsource, hload, hcolor, hglyphs, hroot]
              · simp [drawingOf, Except.toOption, hsettings, hload, hcolor, hglyphs, hroot]

theorem run_of_beforeOutput {s : σ} {args : Arguments} {user : Option String} {failure : Failure}
    (h : firstFailure s args user beforeOutput = some failure) :
    (run args user : ExceptT Failure (StateM σ) Unit).run.run s = (.error failure, s) := by
  rw [run_eq_prepare]
  obtain ⟨other, hprepared, hfirst⟩ | ⟨source, drawing, -, hfirst, -⟩ := run_prepare s args user
  · rw [h] at hfirst
    rw [Option.some_inj.mp hfirst]
    exact run_bind_error hprepared
  · rw [h] at hfirst
    cases hfirst

-- Either every stage comes to something, or the failure of the first stage that fails is the
-- failure of the run.
theorem run_stages (s : σ) (args : Arguments) (user : Option String) :
    (∃ source drawing s',
      (run args user : ExceptT Failure (StateM σ) Unit).run.run s = (.ok (), s') ∧
      firstFailure s args user all = none ∧
      Holds s args.input source ∧ drawingOf s args user source = some drawing ∧
      Holds s' args.output drawing ∧ ChangedOnly s s' args.output) ∨
    ∃ failure,
      (run args user : ExceptT Failure (StateM σ) Unit).run.run s = (.error failure, s) ∧
      firstFailure s args user all = some failure := by
  rw [firstFailure_all]
  obtain ⟨failure, -, hfirst⟩ | ⟨source, drawing, hprepared, hfirst, hsource, hdrawing⟩ :=
    run_prepare s args user
  · refine .inr ⟨failure, run_of_beforeOutput hfirst, ?_⟩
    rw [hfirst, Option.some_or]
  · rw [run_eq_prepare, run_bind_ok hprepared, hfirst, Option.none_or]
    have houtput : output.failure? s args user =
        errorOf ((writtenIn s args.output drawing).1.mapError .file) := by
      simp [failure?, Except.toOption, hsource, hdrawing]
    obtain ⟨⟨e | _, s'⟩, hwritten⟩ : ∃ r, writtenIn s args.output drawing = r := ⟨_, rfl⟩
    · obtain rfl := LawfulFiles.writeText_error hwritten
      refine .inr ⟨.file e, run_needed hwritten, ?_⟩
      rw [houtput, hwritten]
      rfl
    · obtain ⟨hholds, hchanged⟩ := LawfulFiles.writeText_ok hwritten
      refine .inl ⟨source, drawing, s', run_needed hwritten, ?_,
        LawfulFiles.readText_ok hsource, hdrawing, hholds, hchanged⟩
      rw [houtput, hwritten]
      rfl

-- What a run writes reads back as the drawing of its document, if neither captions nor glyphs bring
-- markup that cannot be read.
theorem written_reads_back {s s' : σ} {args : Arguments} {user : Option String}
    (h : (run args user : ExceptT Failure (StateM σ) Unit).run.run s = (.ok (), s')) :
    ∃ source drawing settings loaded background glyphs root,
      Holds s args.input source ∧ Holds s' args.output drawing ∧
      settingsIn s args.settings user = .ok settings ∧ Document.load source = .ok loaded ∧
      settings.backgroundColor = .ok background ∧ glyphsIn s settings = .ok glyphs ∧
      loaded.diagram.draw { strict := settings.strict, glyphs } 0 = .ok root ∧
      (loaded.diagram.HasPlainCaptions →
        Drawing.HasReadableGlyphs { strict := settings.strict, glyphs } →
        ∃ attrs : List (String × String),
          attrs.Perm (("xmlns", "http://www.w3.org/2000/svg") :: root.attrs) ∧
          attrs.Pairwise (fun a b => a.1 ≤ b.1) ∧
          Svg.scan drawing.toList = some (.start "svg" attrs ::
            (Svg.eventsIn ((background.map Color.text).toList.map Svg.backdrop ++ root.children)
              ++ [.char '\n', .finish "svg"]))) := by
  obtain ⟨source, drawing, t, hrun, -, hsource, hdrawing, houtput, -⟩ | ⟨failure, hrun, -⟩ :=
    run_stages s args user
  · rw [h] at hrun
    cases hrun
    obtain ⟨settings, loaded, background, glyphs, root, hsettings, hload, hbackground, hglyphs,
      hroot, rfl⟩ := exists_of_drawingOf hdrawing
    exact ⟨source, _, settings, loaded, background, glyphs, root, hsource, houtput, hsettings,
      hload, hbackground, hglyphs, hroot,
      fun hcaptions hreadable => Diagram.scan_draw hcaptions hreadable hroot _⟩
  · rw [h] at hrun
    cases hrun

-- Either every stage comes to something, and then all that changes is the file of the output path,
-- which comes to hold the drawing of the document; or the failure of the first stage that fails is
-- the failure of the run, and then nothing changes. Only where a sum in the drawing is too large,
-- the failure is a crash.
theorem run_writes_or_leaves_alone (s : σ) (args : Arguments) (user : Option String) :
    (∃ source drawing s',
      (run args user : ExceptT Failure (StateM σ) Unit).run.run s = (.ok (), s') ∧
      firstFailure s args user all = none ∧
      Holds s args.input source ∧ drawingOf s args user source = some drawing ∧
      Holds s' args.output drawing ∧ ChangedOnly s s' args.output) ∨
    (∃ failure,
      (run args user : ExceptT Failure (StateM σ) Unit).run.run s = (.error failure, s) ∧
      firstFailure s args user all = some failure ∧ failure.crash? = none) ∨
    ∃ reason source loaded,
      (run args user : ExceptT Failure (StateM σ) Unit).run.run s =
        (.error (.drawing (.overflow reason)), s) ∧
      firstFailure s args user all = some (.drawing (.overflow reason)) ∧
      Holds s args.input source ∧ Document.load source = .ok loaded ∧ ¬ loaded.diagram.Fits := by
  obtain hwritten | ⟨failure, hrun, hfirst⟩ := run_stages s args user
  · exact .inl hwritten
  · cases hcrash : failure.crash? with
    | none => exact .inr (.inl ⟨failure, hrun, hfirst, hcrash⟩)
    | some reason =>
        obtain ⟨stage, -, hstage⟩ := List.exists_of_findSome?_eq_some hfirst
        obtain ⟨rfl, source, loaded, hsource, hload, hfits⟩ := not_fits_of_crash hstage hcrash
        exact .inr (.inr ⟨reason, source, loaded, hrun, hfirst, LawfulFiles.readText_ok hsource,
          hload, hfits⟩)

section Sample

-- Three files: a document, settings that choose nothing, and settings that are malformed.
def sampleFiles (document : String) : FileTree :=
  ⟨[(["a"], .file document.toUTF8), (["b"], .file "".toUTF8), (["c"], .file "=".toUTF8)]⟩

variable (document : String)

theorem locate_sampleFiles :
    ∀ name ∈ ["a", "b", "c", "d"], (sampleFiles document).locate name = .ok [name] := by
  have hsplit : ∀ name ∈ ["a", "b", "c", "d"], name.splitOn "/" = [name] := by
    simp only [List.forall_mem_cons]
    refine ⟨?_, ?_, ?_, ?_, List.forall_mem_nil _⟩
    all_goals
      rw [String.splitOn, if_neg (by decide)]
      unfold String.splitOnAux
      rw [if_neg (by decide), if_neg (by decide)]
      unfold String.splitOnAux
      rw [if_pos (by decide)]
      decide
  intro name hname
  rw [FileTree.locate_eq_ok, hsplit name hname]
  revert name
  simp only [List.forall_mem_cons]
  exact ⟨⟨rfl, rfl⟩, ⟨rfl, rfl⟩, ⟨rfl, rfl⟩, ⟨rfl, rfl⟩, List.forall_mem_nil _⟩

theorem holds_sampleFiles :
    Holds (sampleFiles document) "a" document ∧ Holds (sampleFiles document) "b" "" ∧
      Holds (sampleFiles document) "c" "=" := by
  have hlocate := locate_sampleFiles document
  exact ⟨⟨["a"], FileTree.locate_eq_some.mpr (hlocate "a" (by simp)), rfl⟩,
    ⟨["b"], FileTree.locate_eq_some.mpr (hlocate "b" (by simp)), rfl⟩,
    ⟨["c"], FileTree.locate_eq_some.mpr (hlocate "c" (by simp)), rfl⟩⟩

theorem settingsIn_sampleFiles :
    settingsIn (sampleFiles document) (some "b") none = .ok {} ∧
      settingsIn (sampleFiles document) (some "c") none =
        .error (.settings (.malformed "c")) := by
  obtain ⟨-, hempty, hwrong⟩ := holds_sampleFiles document
  constructor
  · change settingsOf _ "b" = _
    rw [settingsOf, if_pos (FileTree.presentIn_of_holds hempty), FileTree.textIn_of_holds hempty]
    rfl
  · change settingsOf _ "c" = _
    rw [settingsOf, if_pos (FileTree.presentIn_of_holds hwrong), FileTree.textIn_of_holds hwrong]
    rfl

end Sample

-- A drawing that takes the place of its document, and a run for which two stages fail.
theorem run_writes_over_document :
    let document := "\x7b\"signal\": [\x7b\"wave\": \"01\"\x7d]\x7d"
    let t := sampleFiles document
    let written : Arguments := { input := "a", output := "a", settings := some "b" }
    let failed : Arguments := { input := "d", output := "a", settings := some "c" }
    (∃ drawing t',
      (run written none : ExceptT Failure (StateM FileTree) Unit).run.run t = (.ok (), t') ∧
      drawingOf t written none document = some drawing ∧ Holds t' "a" drawing ∧
      Holds t' "b" "") ∧
    settings.failure? t failed none = some (.settings (.malformed "c")) ∧
    input.failure? t failed none = some (.file .notFound) ∧
    (run failed none : ExceptT Failure (StateM FileTree) Unit).run.run t =
      (.error (.settings (.malformed "c")), t) := by
  intro document t written failed
  obtain ⟨hdocument, hempty, -⟩ : Holds t "a" document ∧ Holds t "b" "" ∧ Holds t "c" "=" :=
    holds_sampleFiles document
  obtain ⟨hsettings, hmalformed⟩ : settingsIn t (some "b") none = .ok {} ∧
      settingsIn t (some "c") none = .error (.settings (.malformed "c")) :=
    settingsIn_sampleFiles document
  have hlocate := locate_sampleFiles document
  have ha : t.locate "a" = .ok ["a"] := hlocate "a" (by simp)
  have hb : t.locate "b" = .ok ["b"] := hlocate "b" (by simp)
  constructor
  · have hsource := FileTree.textIn_of_holds hdocument
    obtain ⟨loaded, hload, hedges, hfits⟩ :
        ∃ loaded, Document.load document = .ok loaded ∧ loaded.diagram.edges = [] ∧
          loaded.diagram.Fits := by
      let value : Document.Json := .array [.object [("wave", .string "01")]]
      have hparsed : Document.Json.parse document = .ok (.object [("signal", value)]) := by
        simp only [document, value]
        rfl
      rw [Document.load_eq hparsed rfl]
      exact ⟨_, rfl, rfl, by decide +kernel⟩
    obtain ⟨root, hroot⟩ : ∃ root, loaded.diagram.draw {} 0 = .ok root :=
      (Diagram.exists_draw_iff_of_fits {} 0 hfits).mpr (by simp [hedges])
    have hdrawing : drawingOf t written none document = some (Svg.document none root) := by
      simp [drawingOf, Except.toOption, written, hsettings, hload, Settings.backgroundColor,
        glyphsIn, hroot]
    have hoverwritten : (writtenIn t "a" (Svg.document none root)).1 = .ok () := by
      have hslash : "a".endsWith "/" = false := by decide +kernel
      have hfree : t.find? ["a"] ≠ some .directory := by
        change some (FileNode.file document.toUTF8) ≠ _
        simp
      rw [FileTree.writtenIn_ok (FileTree.writeText_eq_ok.mpr ⟨hslash, ["a"], ha, hfree, rfl⟩)]
    have hnone : firstFailure t written none all = none := by
      simp [firstFailure_all, beforeOutput, failure?, errorOf, Except.mapError, Except.toOption,
        written, hsettings, hsource, hload, Settings.backgroundColor, glyphsIn, hroot, hdrawing,
        hoverwritten]
    obtain ⟨source, drawing, t', hrun, -, hread, hdrawn, houtput, hchanged⟩ |
      ⟨failure, -, hfailure, -⟩ | ⟨reason, _, _, -, hfailure, -⟩ :=
      run_writes_or_leaves_alone t written none
    · have hsame : source = document := by
        have h := FileTree.textIn_of_holds hread
        rw [hsource] at h
        exact (Except.ok.inj h).symm
      rw [hsame] at hdrawn
      refine ⟨drawing, t', hrun, hdrawn, houtput, hchanged.holds hempty ?_⟩
      rw [hchanged.locate_eq _ _ (FileTree.locate_eq_some.mpr ha),
        hchanged.locate_eq _ _ (FileTree.locate_eq_some.mpr hb)]
      intro hab
      have hplace : (["a"] : Place) = ["b"] := Option.some_inj.mp hab
      revert hplace
      decide
    · rw [hnone] at hfailure
      cases hfailure
    · rw [hnone] at hfailure
      cases hfailure
  · have hmissing : textIn t "d" = .error .notFound := by
      change t.readText "d" = _
      rw [FileTree.readText, hlocate "d" (by simp)]
      rfl
    have hfirst : firstFailure t failed none all = some (.settings (.malformed "c")) := by
      simp [firstFailure_all, beforeOutput, failure?, errorOf, failed, hmalformed]
    refine ⟨by simp [failure?, errorOf, failed, hmalformed],
      by simp [failure?, errorOf, Except.mapError, failed, hmissing], ?_⟩
    obtain ⟨-, -, -, -, hnone, -⟩ | ⟨failure, hrun, hfailure, -⟩ | ⟨reason, _, _, -, hfailure, -⟩ :=
      run_writes_or_leaves_alone t failed none
    · rw [hfirst] at hnone
      cases hnone
    · rw [hfirst] at hfailure
      rw [hrun, Option.some_inj.mp hfailure]
    · rw [hfirst] at hfailure
      cases hfailure

-- A run on a document whose labels leave the words neither writes nor reports anything.
theorem not_run_writes_or_reports :
    ¬ ∀ (t : FileTree) (args : Arguments) (user : Option String),
      (∃ t', (run args user : ExceptT Failure (StateM FileTree) Unit).run.run t = (.ok (), t')) ∨
      ∃ failure,
        (run args user : ExceptT Failure (StateM FileTree) Unit).run.run t = (.error failure, t) ∧
        failure.crash? = none := by
  intro h
  let t := sampleFiles Document.lastWord
  let args : Arguments := { input := "a", output := "d", settings := some "b" }
  have hsource := FileTree.textIn_of_holds (holds_sampleFiles Document.lastWord).1
  have hsettings := (settingsIn_sampleFiles Document.lastWord).1
  obtain ⟨loaded, hload, hdraw⟩ := Document.draw_lastWord
  have hfirst : firstFailure t args none beforeOutput = some (.drawing (.overflow .sum)) := by
    simp [beforeOutput, failure?, errorOf, Except.mapError, Except.toOption, args, t, hsettings,
      hsource, hload, Settings.backgroundColor, glyphsIn, hdraw]
  have hrun := run_of_beforeOutput hfirst
  obtain ⟨t', hwritten⟩ | ⟨failure, hfailed, hcrash⟩ := h t args none
  · rw [hrun] at hwritten
    cases hwritten
  · rw [hrun] at hfailed
    cases hfailed
    cases hcrash

end Stages

end TimingDiagram.Command
