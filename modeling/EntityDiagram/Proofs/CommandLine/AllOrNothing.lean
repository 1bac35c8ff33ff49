import EntityDiagram.CommandLine.Run
import EntityDiagram.Proofs.CommandLine.WrittenFiles
import EntityDiagram.Proofs.Render.ShownEntities

/-!
# All or nothing

A run of the program passes through stages: the paths are looked at, then the files are read, then
their diagram is rendered, and only the last step hands out anything. So a run that fails at any stage
before leaves the standard output empty and the files as they were, and a run whose rendering is a
string hands out exactly this string. A rendering that holds a surrogate has no bytes. It is not shown,
but where it is meant for a file, the file is left empty.
-/

namespace EntityDiagram.CommandLine

open Declaration (SourceFile)
open Layout (DrawingEngine)
open Model (Diagram)

/-! ## Paths on the command line -/

theorem pieces_of_not_mem
    {cs : List Char} (h : '/' ∉ cs) :
    Path.pieces cs = [cs] := by
  induction cs with
  | nil => rfl
  | cons c rest ih =>
    rw [List.mem_cons, not_or] at h
    rw [Path.pieces, if_neg (Ne.symm h.1), ih h.2]

/-- A text of several characters without slashes is a path of one part. -/
theorem ofText_ofList
    {c d : Char} {cs : List Char} (h : '/' ∉ c :: d :: cs) :
    Path.ofText (String.ofList (c :: d :: cs)) =
      { parts := [String.ofList (c :: d :: cs)] } := by
  have hc : c ≠ '/' := by
    rintro rfl
    exact h List.mem_cons_self
  rw [Path.ofText, String.toList_ofList, pieces_of_not_mem h]
  simp [Path.anchorOf, hc]

/-- The path leads to a file that can be decoded and parsed. -/
def Holds (system : FileSystem) (path : Path) (file : SourceFile) : Prop :=
  ∃ bytes cs, system.read? path = some bytes ∧ Text.Utf8.decode bytes = .ok cs ∧
    SourceFile.ofText path.text (String.ofList (Text.Utf8.unifyLines cs)) = .ok file

section

variable {system : FileSystem}

theorem readSource_eq_ok_iff
    {path : Path} (hpath : system.isFile path = true) {file : SourceFile} :
    readSource system path = .ok file ↔ Holds system path file := by
  obtain ⟨bytes, hbytes⟩ := Option.isSome_iff_exists.mp hpath
  rw [readSource, hbytes, Option.getD_some]
  cases hdecoded : Text.Utf8.decode bytes with
  | error e => simp [Holds, hbytes, hdecoded]
  | ok cs =>
    refine Declaration.Parse.mapError_eq_ok.trans ?_
    simp [Holds, hbytes, hdecoded]

/-- All files can be read if and only if each of them can. -/
theorem readSources_eq_ok_iff
    {paths : List Path} (hpaths : ∀ path ∈ paths, system.isFile path = true)
    {files : List SourceFile} :
    (readSources system paths).2 = .ok files ↔ List.Forall₂ (Holds system) paths files := by
  induction paths generalizing files with
  | nil => simp [readSources, eq_comm]
  | cons path rest ih =>
    obtain ⟨hpath, hrest⟩ := List.forall_mem_cons.mp hpaths
    rw [readSources]
    cases hread : readSource system path with
    | error failure =>
      refine iff_of_false (by simp) ?_
      rintro (_ | ⟨hholds, -⟩)
      rw [(readSource_eq_ok_iff hpath).mpr hholds] at hread
      cases hread
    | ok file =>
      have hfile := (readSource_eq_ok_iff hpath).mp hread
      change (readSources system rest).2.map (file :: ·) = .ok files ↔ _
      constructor
      · intro h
        cases hmore : (readSources system rest).2 with
        | error failure =>
          rw [hmore] at h
          cases h
        | ok more =>
          rw [hmore] at h
          obtain rfl := Except.ok.inj h
          exact .cons hfile ((ih hrest).mp hmore)
      · rintro (_ | ⟨hholds, hmore⟩)
        rw [(readSource_eq_ok_iff hpath).mpr hholds] at hread
        obtain rfl := Except.ok.inj hread
        rw [(ih hrest).mpr hmore]
        rfl

end

/-! ## Stages -/

section

variable {engine : DrawingEngine} {now : String} {system : FileSystem} {arguments : Arguments}

/-- The text is the rendering of the diagram of all files, in the order of the arguments. -/
def Gives
    (engine : DrawingEngine) (now : String) (system : FileSystem) (arguments : Arguments)
    (text : Text) : Prop :=
  ∃ files, List.Forall₂ (Holds system) (arguments.paths.map Path.ofText) files ∧
    rendering engine arguments now (Diagram.ofFiles files) = .ok text

/-- What goes to the standard output. -/
def Outcome.output : Outcome → Text
  | finished _ output _ _ => output
  | crashed _ _ => ""

/-- The run reports a failure or breaks off, and hands out nothing. -/
structure Outcome.Fails (outcome : Outcome) (system : FileSystem) : Prop where
  status : ∀ output messages written, outcome ≠ .finished 0 output messages written
  output : outcome.output = ""
  after : outcome.after system = system

theorem fails_crashed
    (crash : Crash) (system : FileSystem) :
    (Outcome.crashed crash none).Fails system where
  status := by simp
  output := rfl
  after := rfl

theorem fails_finished_one
    (messages : String) (system : FileSystem) :
    (Outcome.finished 1 "" messages none).Fails system where
  status := by simp
  output := rfl
  after := rfl

theorem gives_unique
    (hfiles : ∀ path ∈ arguments.paths.map Path.ofText, system.isFile path = true)
    {text text' : Text} (h : Gives engine now system arguments text)
    (h' : Gives engine now system arguments text') :
    text = text' := by
  obtain ⟨files, hread, hrendered⟩ := h
  obtain ⟨files', hread', hrendered'⟩ := h'
  have hsources := (readSources_eq_ok_iff hfiles).mpr hread
  obtain rfl := Except.ok.inj (hsources.symm.trans ((readSources_eq_ok_iff hfiles).mpr hread'))
  exact Except.ok.inj (hrendered.symm.trans hrendered')

/-- What a run can do when all files exist: fail, if some file or the diagram gives nothing, or hand
out what they give. -/
theorem execute_of_isFile
    (hrefused : (arguments.paths.map Path.ofText).findSome? system.refusal? = none)
    (hfiles : ∀ path ∈ arguments.paths.map Path.ofText, system.isFile path = true) :
    ((execute engine now system arguments).Fails system ∧
        ∀ text, ¬Gives engine now system arguments text) ∨
      ∃ messages text, Gives engine now system arguments text ∧
        execute engine now system arguments = deliver system arguments messages text := by
  have hnone : (arguments.paths.map Path.ofText).filter (fun path => !system.isFile path) = [] :=
    List.filter_eq_nil_iff.mpr fun path hpath => by simp [hfiles path hpath]
  rw [execute, hrefused]
  simp only [hnone, List.isEmpty_nil, Bool.not_true, Bool.false_eq_true, if_false]
  cases hsources : (readSources system (arguments.paths.map Path.ofText)).2 with
  | error failure =>
    -- Whether the failure is reported or not, some file does not hold a source text.
    have hnothing : ∀ text, ¬Gives engine now system arguments text := by
      rintro text ⟨files, hread, -⟩
      rw [(readSources_eq_ok_iff hfiles).mpr hread] at hsources
      cases hsources
    cases failure with
    | reported text => exact .inl ⟨fails_finished_one _ _, hnothing⟩
    | crashed crash => exact .inl ⟨fails_crashed _ _, hnothing⟩
  | ok files =>
    cases hrendered : rendering engine arguments now (Diagram.ofFiles files) with
    | error crash =>
      simp only [hrendered]
      refine .inl ⟨fails_crashed _ _, ?_⟩
      rintro text ⟨files', hread, hrendered'⟩
      rw [(readSources_eq_ok_iff hfiles).mpr hread] at hsources
      obtain rfl := Except.ok.inj hsources
      rw [hrendered'] at hrendered
      cases hrendered
    | ok text =>
      simp only [hrendered]
      exact .inr ⟨_, text, ⟨files, (readSources_eq_ok_iff hfiles).mp hsources, hrendered⟩, rfl⟩

end

/-! ## The whole run -/

/-- What becomes of a rendering. A string is handed out: with a line feed to the standard output, or to
the file that is named. A text that is no string is not shown, and it leaves the file empty. -/
structure Delivers
    (arguments : Arguments) (system : FileSystem) (outcome : Outcome) (text : Text) : Prop where
  shown : (∀ name, arguments.output = some (.text name) → name = "") →
    ∀ string, text.string? = some string →
      (∃ messages, outcome = .finished 0 (string ++ "\n" : String) messages none) ∧
        outcome.after system = system
  withheld : (∀ name, arguments.output = some (.text name) → name = "") →
    text.string? = none → outcome.Fails system
  written : ∀ name, arguments.output = some (.text name) → name ≠ "" →
    let target := (Path.ofText name).settled
    system.writeFault? target (system.absolute target) = none →
      ∀ string, text.string? = some string →
        (∃ messages, outcome = .finished 0 "" messages (some (target, Text.Utf8.bytes string))) ∧
          FileSystem.ChangesOnly system (outcome.after system) target (Text.Utf8.bytes string)
  emptied : ∀ name, arguments.output = some (.text name) → name ≠ "" →
    let target := (Path.ofText name).settled
    system.writeFault? target (system.absolute target) = none →
      text.string? = none →
        (∃ error, outcome = .crashed (.encoding error) (some target)) ∧
          FileSystem.ChangesOnly system (outcome.after system) target []
  refused : ∀ name, arguments.output = some (.text name) → name ≠ "" →
    let target := (Path.ofText name).settled
    ∀ fault, system.writeFault? target (system.absolute target) = some fault →
      outcome = .crashed (.file fault) none

theorem outputName?_eq_some
    {arguments : Arguments} {name : String} (hname : arguments.output = some (.text name))
    (hnonempty : name ≠ "") :
    outputName? arguments = some name := by
  simp [outputName?, hname, hnonempty]

theorem outputName?_eq_none
    {arguments : Arguments} (h : ∀ name, arguments.output = some (.text name) → name = "") :
    outputName? arguments = none := by
  unfold outputName?
  split
  · rename_i name hname
    rw [h name hname]
    rfl
  · rfl

section

variable {arguments : Arguments} {system : FileSystem} {text : Text} (messages : List Message)

theorem deliver_of_string
    {string : String} (hname : outputName? arguments = none)
    (hstring : text.string? = some string) :
    deliver system arguments messages text =
      .finished 0 (string ++ "\n" : String) (transcript arguments.verbose messages) none := by
  obtain rfl := Text.string?_eq_some_iff.mp hstring
  rw [deliver, hname, Text.ofString_append]
  simp only [Text.Utf8.encode_ofString]

theorem deliver_of_surrogate
    (hname : outputName? arguments = none) (hstring : text.string? = none) :
    ∃ error, deliver system arguments messages text = .crashed (.encoding error) none := by
  obtain ⟨error, herror⟩ := Text.Utf8.exists_encode_eq_error hstring
  refine ⟨error, ?_⟩
  rw [deliver, hname]
  simp only [herror]

variable {name : String} (hname : outputName? arguments = some name)

include hname

theorem deliver_of_writeFault
    {fault : FileFault}
    (hfault : system.writeFault? (Path.ofText name).settled
      (system.absolute (Path.ofText name).settled) = some fault) :
    deliver system arguments messages text = .crashed (.file fault) none := by
  rw [deliver, hname]
  simp only [hfault]

variable (hfault : system.writeFault? (Path.ofText name).settled
  (system.absolute (Path.ofText name).settled) = none)

include hfault

theorem deliver_of_string_of_name
    {string : String} (hstring : text.string? = some string) :
    ∃ messages', deliver system arguments messages text =
      .finished 0 "" messages' (some ((Path.ofText name).settled, Text.Utf8.bytes string)) := by
  obtain rfl := Text.string?_eq_some_iff.mp hstring
  rw [deliver, hname]
  simp only [hfault, Text.Utf8.encode_ofString]
  exact ⟨_, rfl⟩

theorem deliver_of_surrogate_of_name
    (hstring : text.string? = none) :
    ∃ error, deliver system arguments messages text =
      .crashed (.encoding error) (some (Path.ofText name).settled) := by
  obtain ⟨error, herror⟩ := Text.Utf8.exists_encode_eq_error hstring
  refine ⟨error, ?_⟩
  rw [deliver, hname]
  simp only [hfault, herror]

end

theorem delivers_deliver
    (arguments : Arguments) (system : FileSystem) (messages : List Message) (text : Text) :
    Delivers arguments system (deliver system arguments messages text) text where
  shown := by
    intro hempty string hstring
    rw [deliver_of_string messages (outputName?_eq_none hempty) hstring]
    exact ⟨⟨_, rfl⟩, rfl⟩
  withheld := by
    intro hempty hstring
    obtain ⟨error, herror⟩ := deliver_of_surrogate messages (outputName?_eq_none hempty) hstring
    rw [herror]
    exact fails_crashed _ system
  written := by
    intro name hname hnonempty target hfault string hstring
    obtain ⟨messages', hdelivered⟩ := deliver_of_string_of_name messages
      (outputName?_eq_some hname hnonempty) hfault hstring
    rw [hdelivered]
    exact ⟨⟨_, rfl⟩, FileSystem.changesOnly_write (Path.isSettled_settled _) hfault _⟩
  emptied := by
    intro name hname hnonempty target hfault hstring
    obtain ⟨error, hdelivered⟩ := deliver_of_surrogate_of_name messages
      (outputName?_eq_some hname hnonempty) hfault hstring
    rw [hdelivered]
    exact ⟨⟨_, rfl⟩, FileSystem.changesOnly_write (Path.isSettled_settled _) hfault _⟩
  refused := by
    intro name hname hnonempty target fault hfault
    exact deliver_of_writeFault messages (outputName?_eq_some hname hnonempty) hfault

/-- The name of an empty file. -/
def outFile : Path :=
  { parts := ["out"] }

/-- The bytes of a source text that has a diagram. -/
theorem exists_holds
    {system : FileSystem} (path : Path) {source : String} {diagram : Diagram}
    (hbytes : system.read? path = some (Text.Utf8.bytes source))
    (hdecoded : Text.Utf8.decode (Text.Utf8.bytes source) = .ok source.toList)
    (hunified : Text.Utf8.unifyLines source.toList = source.toList)
    (hdiagram : Diagram.ofText path.text source = .ok diagram) :
    ∃ file, Holds system path file ∧ Diagram.ofFiles [file] = diagram := by
  rw [Diagram.ofText] at hdiagram
  cases hfile : SourceFile.ofText path.text source with
  | error fault =>
    rw [hfile] at hdiagram
    cases hdiagram
  | ok file =>
    rw [hfile] at hdiagram
    refine ⟨file, ⟨_, _, hbytes, hdecoded, ?_⟩, Except.ok.inj hdiagram⟩
    rw [hunified, String.ofList_toList, hfile]

/-- The first surrogate. -/
def surrogateName : Text :=
  .ofList [.surrogate ⟨0, Nat.succ_pos 2047⟩]

/-- An entity that refers to itself, by an attribute whose name is a surrogate. -/
def surrogateText : String :=
  "interface A\x7b'\\ud800':A\x7d"

theorem tokens_surrogateText :
    Source.TokenStream.ofText surrogateText = .ok ⟨[⟨.ident "interface", ⟨⟨1, 1⟩, false, []⟩⟩,
      ⟨.ident "A", ⟨⟨1, 11⟩, false, []⟩⟩, ⟨.punct "\x7b", ⟨⟨1, 12⟩, false, []⟩⟩,
      ⟨.string surrogateName, ⟨⟨1, 13⟩, false, []⟩⟩,
      ⟨.punct ":", ⟨⟨1, 21⟩, false, []⟩⟩, ⟨.ident "A", ⟨⟨1, 22⟩, false, []⟩⟩,
      ⟨.punct "\x7d", ⟨⟨1, 23⟩, false, []⟩⟩], ⟨⟨1, 24⟩, false, []⟩⟩ := by
  have hkeyword : Source.readGap ⟨.start, false, []⟩ surrogateText.toList =
      .ok (⟨⟨1, 1⟩, false, []⟩, surrogateText.toList) := by cbv
  have hname : Source.readGap ⟨⟨1, 10⟩, false, []⟩ " A\x7b'\\ud800':A\x7d".toList =
      .ok (⟨⟨1, 11⟩, false, []⟩, "A\x7b'\\ud800':A\x7d".toList) := by cbv
  have hopen : Source.readGap ⟨⟨1, 12⟩, false, []⟩ "\x7b'\\ud800':A\x7d".toList =
      .ok (⟨⟨1, 12⟩, false, []⟩, "\x7b'\\ud800':A\x7d".toList) := by cbv
  have hfield : Source.readGap ⟨⟨1, 13⟩, false, []⟩ "'\\ud800':A\x7d".toList =
      .ok (⟨⟨1, 13⟩, false, []⟩, "'\\ud800':A\x7d".toList) := by cbv
  have hstring : Source.readLexeme (some (.punct "\x7b")) ⟨1, 13⟩ '\'' "\\ud800':A\x7d".toList =
      .ok ⟨.string surrogateName, ⟨1, 13⟩, ⟨1, 21⟩, ":A\x7d".toList⟩ := by
    have hread : Source.readString '\'' "\\ud800':A\x7d".toList =
        .ok (surrogateName.toList, ":A\x7d".toList) := by decide +kernel
    rw [Source.readLexeme_quote (.inl rfl) hread]
    rfl
  have hcolon : Source.readGap ⟨⟨1, 21⟩, false, []⟩ ":A\x7d".toList =
      .ok (⟨⟨1, 21⟩, false, []⟩, ":A\x7d".toList) := by cbv
  have htype : Source.readGap ⟨⟨1, 22⟩, false, []⟩ "A\x7d".toList =
      .ok (⟨⟨1, 22⟩, false, []⟩, "A\x7d".toList) := by cbv
  have hclose : Source.readGap ⟨⟨1, 23⟩, false, []⟩ "\x7d".toList =
      .ok (⟨⟨1, 23⟩, false, []⟩, "\x7d".toList) := by cbv
  have hending : Source.readGap ⟨⟨1, 24⟩, false, []⟩ [] = .ok (⟨⟨1, 24⟩, false, []⟩, []) := by cbv
  exact Source.readTokens_token hkeyword rfl (Source.readTokens_token hname rfl
    (Source.readTokens_token hopen rfl (Source.readTokens_token hfield hstring
      (Source.readTokens_token hcolon rfl (Source.readTokens_token htype rfl
        (Source.readTokens_token hclose rfl (Source.readTokens_ending hending)))))))

/-- The one entity refers to itself. -/
def surrogateDiagram : Diagram where
  entities := [
    { name := "A"
      attributes := [
        { name := surrogateName
          type := { name := "A", isReference := true, target := some "A" } }]
      file := some "a.ts" }]
  relationships := [⟨"A", "A", .oneToOne, surrogateName, true⟩]
  sources := ["a.ts"]

theorem ofText_surrogateText :
    Diagram.ofText "a.ts" surrogateText = .ok surrogateDiagram := by
  rw [Diagram.ofText, SourceFile.ofText_eq tokens_surrogateText]
  rfl

/-- A file with the surrogate, and one that holds a line feed. -/
def surrogateFiles : FileSystem where
  workingDirectory := "/"
  files := [({ parts := ["a.ts"] }, Text.Utf8.bytes surrogateText), (outFile, [10])]

/-- The label of the relationship is the surrogate, and the file that the rendering is meant for loses
what it holds. -/
theorem run_surrogateFiles :
    let outcome := run Render.Drawio.idleEngine "" surrogateFiles ["g", "a.ts", "-o", "out"]
    surrogateFiles.read? outFile = some [10] ∧
      (∃ error, outcome = .crashed (.encoding error) (some outFile)) ∧
      (outcome.after surrogateFiles).read? outFile = some [] := by
  intro outcome
  let arguments : Arguments :=
    { command := "g", paths := ["a.ts"], output := some (.text "out") }
  have hrun : outcome = execute Render.Drawio.idleEngine "" surrogateFiles arguments := rfl
  obtain ⟨file, hholds, hdiagram⟩ := exists_holds (.ofText "a.ts")
    (by decide +kernel :
      surrogateFiles.read? (.ofText "a.ts") = some (Text.Utf8.bytes surrogateText))
    (by decide +kernel) (by decide +kernel) ofText_surrogateText
  obtain ⟨text, hrendered⟩ : ∃ text, Render.Renderer.render Render.Drawio.idleEngine
      ⟨.mermaid {}⟩ "" surrogateDiagram = .ok text :=
    Render.Drawio.exists_of_isOk (by decide +kernel)
  have htext : text.string? = none := by
    have hnone : (Render.Renderer.render Render.Drawio.idleEngine ⟨.mermaid {}⟩ ""
        surrogateDiagram).toOption.bind Text.string? = none := by decide +kernel
    rwa [hrendered] at hnone
  have hgives : Gives Render.Drawio.idleEngine "" surrogateFiles arguments text := by
    refine ⟨[file], .cons hholds .nil, ?_⟩
    rw [hdiagram]
    exact congrArg (Except.mapError Crash.layout) hrendered
  obtain ⟨-, hnothing⟩ | ⟨messages, text', hgives', hdelivered⟩ :=
    @execute_of_isFile Render.Drawio.idleEngine "" surrogateFiles arguments (by decide +kernel)
      (by decide +kernel)
  · exact absurd hgives (hnothing text)
  · obtain rfl := gives_unique (by decide +kernel) hgives' hgives
    obtain ⟨herror, hchanges⟩ := (delivers_deliver arguments surrogateFiles messages text').emptied
      "out" rfl (by decide) (by decide +kernel) htext
    rw [hrun, hdelivered]
    exact ⟨by decide +kernel, herror, hchanges.read⟩

end EntityDiagram.CommandLine
