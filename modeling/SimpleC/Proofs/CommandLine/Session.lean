import SimpleC.CommandLine.FileTree
import SimpleC.CommandLine.Session
import SimpleC.Proofs.CommandLine.Arguments
import SimpleC.Proofs.DerivationTree.Unrecorded
import SimpleC.Proofs.SameFindings

/-!
# How a session ends

Options decide what a session shows and writes besides the verdict, and each of these
outputs may fail on its own. The verdict is that of the check which records no derivation
and writes nothing: it is printed last, and the exit code tells whether it is a success.
The tokens are those of the file that is asked for, or else of the standard input.

This holds of all surroundings in which printing adds to the standard output. What
happens to files and pictures is up to them.
-/

namespace SimpleC

/-- A run finds the same whether it records the derivation or not. -/
theorem recognize_sameFindings_unrecorded
    (declare checkTypes record : Bool)
    (symbols : SymbolTable)
    (tokens : List Token) :
    (recognize ⟨declare, checkTypes, record⟩ symbols tokens).SameFindings
      (recognize ⟨declare, checkTypes, false⟩ symbols tokens) := by
  cases record with
  | false =>
      exact ⟨rfl, rfl, rfl, rfl⟩
  | true =>
      rw [recognize_unrecorded]
      exact ⟨rfl, rfl, rfl, rfl⟩

namespace CommandLine

/-- The check of the tokens in a text, all at once or in stages, without a record of the
derivation. -/
def checkText (staged : Bool) (text : String) : Run :=
  if staged then checkStaged false (readTokens text) else check false (readTokens text)

/-- Nothing is asked for but the verdict. -/
def Options.asksForNothing (options : Options) : Bool :=
  !(options.printTokens || options.printTree || options.printSymbols ||
    options.dumpTree?.isSome || options.vizTree?.isSome)

/-- What is shown before anything is written, as it stands on the standard output. -/
def shownText (options : Options) (text : String) : String :=
  String.join ((shownLines options (readTokens text) (checkText options.staged text).report).map
    (· ++ "\n"))

/-- Whatever is asked for, the run finds the same. -/
theorem runOf_sameFindings (options : Options) (text : String) :
    (runOf options (readTokens text)).SameFindings (checkText options.staged text) := by
  by_cases hstaged : options.staged = true
  · rw [runOf, checkText, if_pos hstaged, if_pos hstaged]
    exact checkStaged_sameFindings fun declare checkTypes symbols =>
      recognize_sameFindings_unrecorded declare checkTypes _ symbols _
  · rw [runOf, checkText, if_neg hstaged, if_neg hstaged]
    exact recognize_sameFindings_unrecorded true true _ .empty _

namespace Host

/-- Surroundings whose standard output is part of their state: what is printed is added
to it, and reading the tokens or reporting errors leaves it as it is. -/
structure PrintsTo {σ : Type} (host : Host (StateM σ)) (output : σ → String) : Prop where
  print : ∀ text world, output ((host.print text).run world).2 = output world ++ text
  report : ∀ text world, output ((host.report text).run world).2 = output world
  readFile : ∀ path world, output ((host.readFile path).run world).2 = output world
  readInput : ∀ world, output (host.readInput.run world).2 = output world

/-- The text that a session gets to read: that of the file which is asked for, with line feeds
at the ends of its lines, or the standard input as it comes if no file is asked for. -/
inductive Provides {σ : Type} (host : Host (StateM σ)) (options : Options) (world : σ) :
    String → Prop
  | file {path content : String}
      (hfile : options.file? = some path)
      (hpath : holdsNull path = false)
      (hread : ((host.readFile path).run world).1 = .ok content) :
      Provides host options world (Text.normalizeLineEnds content)
  | input (hfile : options.file? = none) :
      Provides host options world (host.readInput.run world).1

/-- A session ends with the verdict of a run, and there is nothing else on the standard output
if nothing else is asked for. -/
structure EndsWith {σ : Type} (output : σ → String) (options : Options) (world : σ) (run : Run)
    (ended : Nat × σ) : Prop where
  code : ended.1 = if run.isSuccess then 0 else 1
  verdict : ∃ shown, output ended.2 = shown ++ run.verdict.render ++ "\n"
  alone : options.asksForNothing = true →
    output ended.2 = output world ++ run.verdict.render ++ "\n"

section Files

variable {σ α : Type} {host : Host (StateM σ)} {path : String} {world : σ}

/-- What is no path changes nothing, and any other path gets as far as the world. -/
theorem access_run (operation : StateM σ (Except FileError α)) (path : String) (world : σ) :
    (access path operation).run world =
      if holdsNull path then
        (.error .nullCharacter, world)
      else
        ((operation.run world).1.mapError .refused, (operation.run world).2) := by
  rw [access]
  cases holdsNull path with
  | true =>
      rfl
  | false =>
      simp only [Bool.false_eq_true, if_false]
      rw [StateT.run_bind]
      rcases operation.run world with ⟨_ | _, between⟩ <;> rfl

theorem readText_run (host : Host (StateM σ)) (path : String) (world : σ) :
    (host.readText path).run world =
      if holdsNull path then
        (.error .nullCharacter, world)
      else
        (((host.readFile path).run world).1.mapError .refused |>.map Text.normalizeLineEnds,
          ((host.readFile path).run world).2) := by
  rw [readText, StateT.run_bind, access_run]
  cases holdsNull path with
  | true =>
      rfl
  | false =>
      simp only [Bool.false_eq_true, if_false]
      rcases (host.readFile path).run world with ⟨_ | _, between⟩ <;> rfl

/-- A call can go on unless the derivation is to be written to what is no path. -/
theorem dumpTo_run_fst
    {path? : Option String}
    (hpaths : ∀ path ∈ path?, holdsNull path = false)
    (report : Report)
    (world : σ) :
    ((host.dumpTo path? report).run world).1 = true := by
  cases path? with
  | none =>
      rfl
  | some path =>
      rw [dumpTo, dump, StateT.run_bind, writeText, access_run, hpaths path rfl]
      simp only [Bool.false_eq_true, if_false]
      rcases (host.writeFile path (reportJson report).render).run world with
        ⟨_ | _, between⟩ <;> rfl

theorem dumpTo_run_of_holdsNull (hpath : holdsNull path = true) (report : Report) :
    (host.dumpTo (some path) report).run world = (false, world) := by
  rw [dumpTo, dump, StateT.run_bind, writeText, access_run, if_pos hpath]
  rfl

end Files

section Sessions

variable
    {σ : Type}
    {host : Host (StateM σ)}
    {output : σ → String}
    {options : Options}
    {tokens : List Token}
    {path text : String}
    {world : σ}

theorem PrintsTo.printLine (h : host.PrintsTo output) (line : String) (world : σ) :
    output ((host.printLine line).run world).2 = output world ++ line ++ "\n" := by
  rw [Host.printLine, h.print, String.append_assoc]

theorem PrintsTo.reportAll (h : host.PrintsTo output) (lines : List String) (world : σ) :
    output ((lines.forM (fun line => host.report (line ++ "\n"))).run world).2 =
      output world := by
  induction lines generalizing world with
  | nil =>
      rfl
  | cons line rest ih =>
      exact (ih ((host.report (line ++ "\n")).run world).2).trans (h.report _ world)

theorem PrintsTo.printAll (h : host.PrintsTo output) (lines : List String) (world : σ) :
    output ((lines.forM host.printLine).run world).2 =
      output world ++ String.join (lines.map (· ++ "\n")) := by
  induction lines generalizing world with
  | nil =>
      exact (String.append_empty).symm
  | cons line rest ih =>
      refine (ih ((host.printLine line).run world).2).trans ?_
      rw [h.printLine]
      simp [String.append_assoc]

theorem writeFiles_run_fst
    (hpaths : ∀ path ∈ options.dumpTree?, holdsNull path = false)
    (report : Report)
    (world : σ) :
    ((host.writeFiles options report).run world).1 = true := by
  have hwritten : (host.dumpTo options.dumpTree? report).run world = (true, _) :=
    Prod.ext (dumpTo_run_fst hpaths report world) rfl
  rw [writeFiles, StateT.run_bind, hwritten]
  rfl

theorem writeFiles_run_of_holdsNull
    (hdump : options.dumpTree? = some path)
    (hpath : holdsNull path = true)
    (report : Report) :
    (host.writeFiles options report).run world = (false, world) := by
  rw [writeFiles, StateT.run_bind, hdump, dumpTo_run_of_holdsNull hpath]
  rfl

/-- What is shown is all that is on the standard output before files are written. -/
theorem PrintsTo.announce
    (h : host.PrintsTo output)
    (options : Options)
    (tokens : List Token)
    (run : Run)
    (world : σ) :
    output ((host.announce options tokens run).run world).2 =
      output world ++ String.join ((shownLines options tokens run.report).map (· ++ "\n")) := by
  rw [Host.announce, StateT.run_bind]
  exact (h.printAll _ _).trans (by rw [h.reportAll])

theorem PrintsTo.process
    (h : host.PrintsTo output)
    (hpaths : ∀ path ∈ options.dumpTree?, holdsNull path = false)
    (tokens : List Token)
    (world : σ) :
    let run := runOf options tokens
    let between := ((host.announce options tokens run).run world).2
    let after := ((host.writeFiles options run.report).run between).2
    ((host.process options tokens).run world).1 = exitCode run.verdict ∧
      output ((host.process options tokens).run world).2 =
        output after ++ run.verdict.render ++ "\n" := by
  intro run between after
  have hwritten : (host.writeFiles options run.report).run between = (true, after) :=
    Prod.ext (writeFiles_run_fst hpaths run.report between) rfl
  have hprocess : (host.process options tokens).run world =
      (exitCode run.verdict, ((host.printLine run.verdict.render).run after).2) := by
    rw [Host.process, StateT.run_bind]
    show ((host.writeFiles options run.report >>= _).run between) = _
    rw [StateT.run_bind, hwritten]
    rfl
  rw [hprocess]
  exact ⟨rfl, h.printLine _ _⟩

/-- A path for the derivation that is no path ends the call before its verdict. -/
theorem PrintsTo.process_of_holdsNull
    (h : host.PrintsTo output)
    (hdump : options.dumpTree? = some path)
    (hpath : holdsNull path = true)
    (tokens : List Token)
    (world : σ) :
    ((host.process options tokens).run world).1 = 1 ∧
      output ((host.process options tokens).run world).2 =
        output world ++ String.join
          ((shownLines options tokens (runOf options tokens).report).map (· ++ "\n")) := by
  have hprocess : (host.process options tokens).run world =
      host.breakOff.run ((host.announce options tokens (runOf options tokens)).run world).2 := by
    rw [Host.process, StateT.run_bind]
    show ((host.writeFiles options (runOf options tokens).report >>= _).run _) = _
    rw [StateT.run_bind, writeFiles_run_of_holdsNull hdump hpath]
    rfl
  rw [hprocess]
  exact ⟨rfl, (h.report _ _).trans (h.announce options tokens _ world)⟩

/-- If nothing is asked for, there is nothing on the standard output besides the verdict. -/
theorem PrintsTo.process_of_asksForNothing
    (h : host.PrintsTo output)
    (hoptions : options.asksForNothing = true)
    (tokens : List Token)
    (world : σ) :
    output ((host.process options tokens).run world).2 =
      output world ++ (runOf options tokens).verdict.render ++ "\n" := by
  obtain ⟨⟨⟨⟨htokens, htree⟩, hsymbols⟩, hdump⟩, hdraw⟩ := by
    simpa [Options.asksForNothing] using hoptions
  have hshown : shownLines options tokens (runOf options tokens).report = [] := by
    simp [shownLines, htokens, htree, hsymbols]
  have hwritten : ∀ between, (host.writeFiles options (runOf options tokens).report).run between =
      (true, between) := by
    intro between
    rw [writeFiles, hdump, hdraw]
    rfl
  have hpaths : ∀ path ∈ options.dumpTree?, holdsNull path = false := by
    rw [hdump]
    nofun
  obtain ⟨-, houtput⟩ := h.process hpaths tokens world
  rw [houtput, hwritten, h.announce, hshown, List.map_nil, String.join_nil, String.append_empty]

/-- A session that gets to its tokens ends with the verdict on them. -/
theorem PrintsTo.process_endsWith
    (h : host.PrintsTo output)
    (hpaths : ∀ path ∈ options.dumpTree?, holdsNull path = false)
    (text : String)
    (world : σ) :
    EndsWith output options world (checkText options.staged text)
      ((host.process options (readTokens text)).run world) := by
  have hfindings := runOf_sameFindings options text
  obtain ⟨hcode, houtput⟩ := h.process hpaths (readTokens text) world
  rw [hfindings.verdict] at hcode houtput
  refine ⟨?_, ⟨_, houtput⟩, ?_⟩
  · rw [hcode, exitCode, Run.isSuccess_verdict]
  · intro hoptions
    rw [h.process_of_asksForNothing hoptions, hfindings.verdict]

theorem session_run
    {arguments : List String}
    (harguments : Request.ofArguments host.argumentRules arguments = .ok (.run options))
    (world : σ) :
    (host.session arguments).run world = (host.perform options).run world := by
  rw [session, harguments]

/-- What is read leaves the standard output as it is, and is then checked. -/
theorem PrintsTo.exists_process
    (h : host.PrintsTo output)
    (htext : host.Provides options world text) :
    ∃ between, output between = output world ∧
      (host.perform options).run world =
        (host.process options (readTokens text)).run between := by
  cases htext with
  | @file path content hfile hpath hread =>
      refine ⟨((host.readFile path).run world).2, h.readFile path world, ?_⟩
      rw [perform, hfile]
      show ((host.readText path >>= _).run world) = _
      rw [StateT.run_bind, readText_run, hpath, hread]
      rfl
  | input hfile =>
      refine ⟨(host.readInput.run world).2, h.readInput world, ?_⟩
      rw [perform, hfile]
      rfl

theorem PrintsTo.perform_of_refused
    (h : host.PrintsTo output)
    (hfile : options.file? = some path)
    (hpath : holdsNull path = false)
    {error : FileError}
    (hread : ((host.readFile path).run world).1 = .error error) :
    ((host.perform options).run world).1 = 1 ∧
      output ((host.perform options).run world).2 =
        output world ++ "Failed to read file " ++ path ++ ": " ++ error.message ++ "\n" := by
  have hperform : (host.perform options).run world =
      (1, ((host.printLine ("Failed to read file " ++ path ++ ": " ++ error.message)).run
        ((host.readFile path).run world).2).2) := by
    rw [perform, hfile]
    show ((host.readText path >>= _).run world) = _
    rw [StateT.run_bind, readText_run, hpath, hread]
    rfl
  rw [hperform]
  refine ⟨rfl, ?_⟩
  simp only [h.printLine, h.readFile, String.append_assoc]

theorem PrintsTo.perform_of_holdsNull
    (h : host.PrintsTo output)
    (hfile : options.file? = some path)
    (hpath : holdsNull path = true) :
    ((host.perform options).run world).1 = 1 ∧
      output ((host.perform options).run world).2 = output world := by
  have hperform : (host.perform options).run world = host.breakOff.run world := by
    rw [perform, hfile]
    show ((host.readText path >>= _).run world) = _
    rw [StateT.run_bind, readText_run, if_pos hpath]
    rfl
  rw [hperform]
  exact ⟨rfl, h.report _ world⟩

end Sessions

end Host

/-- The world in memory keeps what is printed. -/
theorem World.host_printsTo : World.host.PrintsTo World.output where
  print _ _ := rfl
  report _ _ := rfl
  readFile _ _ := rfl
  readInput _ := rfl

/-- A session that reads its tokens, from the file that is asked for or else from the standard
input, ends with the verdict of the plain check of them, whatever is shown, written or drawn
before and whether that succeeds or not; the path for the derivation has to be a path, which
every argument of a process is. A session that cannot read the file tells so and has no
verdict. Sessions can be asked for all that can be written in arguments. -/
theorem session_ends_with_verdict
    {σ : Type}
    {host : Host (StateM σ)}
    {output : σ → String}
    (hhost : host.PrintsTo output)
    {arguments : List String}
    {options : Options}
    (harguments : Request.ofArguments host.argumentRules arguments = .ok (.run options))
    (world : σ) :
    let ended := (host.session arguments).run world
    (∀ text, host.Provides options world text →
      ((∀ path ∈ options.dumpTree?, holdsNull path = false) →
        Host.EndsWith output options world (checkText options.staged text) ended) ∧
      (∀ path ∈ options.dumpTree?, holdsNull path = true →
        ended.1 = 1 ∧
        output ended.2 = output world ++ String.join
          ((shownLines options (readTokens text) (runOf options (readTokens text)).report).map
            (· ++ "\n")))) ∧
    (∀ path ∈ options.file?,
      (∀ error, holdsNull path = false → ((host.readFile path).run world).1 = .error error →
        ended.1 = 1 ∧
        output ended.2 =
          output world ++ "Failed to read file " ++ path ++ ": " ++ error.message ++ "\n") ∧
      (holdsNull path = true → ended.1 = 1 ∧ output ended.2 = output world)) ∧
    ∀ wanted : Options, wanted.Writable host.argumentRules →
      Request.ofArguments host.argumentRules wanted.arguments = .ok (.run wanted) := by
  intro ended
  have hended : ended = (host.perform options).run world := Host.session_run harguments world
  rw [hended]
  refine ⟨?_, ?_, fun wanted => Options.ofArguments_arguments⟩
  · intro text htext
    obtain ⟨between, hbetween, hperform⟩ := hhost.exists_process htext
    rw [hperform]
    constructor
    · intro hpaths
      obtain ⟨hcode, hverdict, halone⟩ := hhost.process_endsWith hpaths text between
      exact ⟨hcode, hverdict, fun hoptions => hbetween ▸ halone hoptions⟩
    · intro path hdump hpath
      rw [← hbetween]
      exact hhost.process_of_holdsNull hdump hpath (readTokens text) between
  · intro path hfile
    exact ⟨fun error hpath => hhost.perform_of_refused hfile hpath,
      hhost.perform_of_holdsNull hfile⟩

/-- The tokens of a program that assigns a variable without declaring it. Carriage returns alone
end the lines, which they do in files, but not on the standard input. -/
def undeclaredAssignmentText : String :=
  String.intercalate "\r"
    ["void", "main", "(", ")", "\x7b", "identifier:x", "=", "int_literal:1", ";", "\x7d", "$"]

/-- A world in which the tokens are in a file. -/
def undeclaredAssignment : World :=
  { files := [("tokens", .file undeclaredAssignmentText)]
    input := ""
    output := ""
    errors := "" }

/-- A derivation is written into a directory that is not there and drawn in a format that
is not known: the session ends with the verdict all the same. -/
theorem session_ends_with_verdict_after_failures :
    let ended := (World.host.session ["--file", "tokens", "--dump-tree", "missing/tree.json",
      "--viz-tree", "drawing", "--viz-format", "painting"]).run undeclaredAssignment
    ended.1 = 1 ∧
      ∃ shown, ended.2.output =
        shown ++ "semantic_error: variable \x27x\x27 undefined" ++ "\n" := by
  have harguments : Request.ofArguments World.host.argumentRules ["--file", "tokens",
      "--dump-tree", "missing/tree.json", "--viz-tree", "drawing", "--viz-format", "painting"] =
      .ok (.run ⟨some "tokens", false, false, false, false, some "missing/tree.json",
        some "drawing", some "painting", false⟩) :=
    rfl
  have hread : ((World.host.readFile "tokens").run undeclaredAssignment).1 =
      .ok undeclaredAssignmentText :=
    rfl
  have hprovides : World.host.Provides ⟨some "tokens", false, false, false, false,
      some "missing/tree.json", some "drawing", some "painting", false⟩ undeclaredAssignment
      (Text.normalizeLineEnds undeclaredAssignmentText) :=
    .file rfl (by decide) hread
  have hrun : (checkText false (Text.normalizeLineEnds undeclaredAssignmentText)).isSuccess =
        false ∧
      (checkText false (Text.normalizeLineEnds undeclaredAssignmentText)).verdict.render =
        "semantic_error: variable \x27x\x27 undefined" := by
    decide +kernel
  have hpaths : ∀ path ∈ some "missing/tree.json", holdsNull path = false := by
    decide
  obtain ⟨hcode, hverdict, -⟩ := ((session_ends_with_verdict World.host_printsTo harguments
    undeclaredAssignment).1 _ hprovides).1 hpaths
  rw [hrun.1] at hcode
  rw [hrun.2] at hverdict
  exact ⟨hcode, hverdict⟩

end CommandLine

end SimpleC
