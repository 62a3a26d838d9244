import Sapling.CommandLine.Perform
import Sapling.Proofs.FileTrees
import Sapling.Proofs.Headings
import Sapling.Proofs.Histories

/-!
# What a command line leads to

A command succeeds just if its program has no syntax errors, and then it prints a tree or a value,
and no errors.  Otherwise it prints nothing but errors: the drawing of each of them, which is never
broken off, and a line that says that there were some.

Whether a program is given itself or in a file does not matter to any of this.  What the program is
called shows in the heads of the drawings, and nowhere else.

## Main definitions

* `Invocation.arguments` — a way to write an invocation.
* `Command.printed`, `drawError` — what is printed for a program, and for one of its errors.
* `Report.Answers` — a report that says what it should about a program.
* `Stretch`, `fillAll` — printed errors with the name of the program left open.

## Main results

* `ofArguments_arguments` — every invocation can be written.
* `report_answers` — the report on a program says what it should.
* `report_form` — it depends on how the program is given by the name in its heads only.
* `perform_file` — a program in a file of a tree is read from there.
* `perform_contract` — what every command line leads to.
-/

namespace Sapling.CommandLine

/-! ### Writing invocations -/

/-- The name of a command. -/
def Command.name : Command → String
  | run => "run"
  | parse => "parse"

/-- The name of a colour choice. -/
def ColourChoice.name : ColourChoice → String
  | auto => "auto"
  | always => "always"
  | never => "never"

/-- The options of an invocation. -/
def Invocation.options (i : Invocation) : List String :=
  ("--color=" ++ i.colour.name) :: if i.inline then ["--source"] else []

/-- The arguments of an invocation.  The input comes after a mark, for it may look like an
option. -/
def Invocation.arguments (i : Invocation) : List String :=
  i.command.name :: (i.options ++ ["--", i.input])

theorem Command.ofName?_name (c : Command) : ofName? c.name = some c := by
  cases c <;> rfl

theorem ColourChoice.ofName?_name (c : ColourChoice) : ofName? c.name = some c := by
  cases c <;> rfl

/-- Before the mark that ends the options, a long option is taken as one. -/
theorem step_long {p : Progress} {argument : String} {name : List Char} {value : Option (List Char)}
    (hended : p.optionsEnded = false) (hform : Form.ofArgument argument = .long name value) :
    p.step argument = p.takeLong name value := by
  unfold Progress.step
  rw [hended, if_neg Bool.false_ne_true, hform]

theorem step_colour (c : ColourChoice) :
    Progress.start.step ("--color=" ++ c.name) = .ok { Progress.start with colour := some c } := by
  have hform : Form.ofArgument ("--color=" ++ c.name)
      = .long "color".toList (some c.name.toList) := by
    cases c <;> decide
  rw [step_long rfl hform]
  simp only [Progress.takeLong, String.ofList_toList]
  show Progress.start.choose c.name = _
  unfold Progress.choose
  rw [c.ofName?_name]
  rfl

theorem step_source (c : ColourChoice) :
    Progress.step { Progress.start with colour := some c } "--source"
      = .ok { Progress.start with inline := true, colour := some c } := by
  have hform : Form.ofArgument "--source" = .long "source".toList none := by decide
  rw [step_long rfl hform]
  simp only [Progress.takeLong, String.ofList_toList]
  rfl

/-- The options are read. -/
theorem foldlM_options (i : Invocation) :
    i.options.foldlM Progress.step Progress.start
      = .ok { Progress.start with inline := i.inline, colour := some i.colour } := by
  unfold Invocation.options
  rw [List.foldlM_cons, step_colour]
  cases i.inline with
  | false => rfl
  | true => exact congrArg (· >>= pure) (step_source i.colour)

/-- **Every invocation can be written.** -/
theorem ofArguments_arguments (i : Invocation) : Invocation.ofArguments i.arguments = .ok i := by
  -- after the mark, the input is taken as it is
  have hinput : ["--", i.input].foldlM Progress.step
      { Progress.start with inline := i.inline, colour := some i.colour }
        = .ok ⟨some i.input, i.inline, some i.colour, .none, true⟩ := by
    rw [List.foldlM_cons]
    rfl
  have hfold : (i.options ++ ["--", i.input]).foldlM Progress.step Progress.start
      = .ok ⟨some i.input, i.inline, some i.colour, .none, true⟩ := by
    rw [List.foldlM_append, foldlM_options]
    exact hinput
  unfold Invocation.arguments Invocation.ofArguments
  simp only [Command.ofName?_name, hfold]
  rfl

/-! ### Reports -/

/-- What a command prints for a program without syntax errors: its tree or its value, if it has one,
on a line. -/
def Command.printed : Command → Program → String
  | parse, p => p.display ++ "\n"
  | run, p =>
    match p.value? with
    | some v => v.display ++ "\n"
    | none => ""

/-- The drawing of a syntax error in a text that is called by a name. -/
def drawError (name text : String) (e : SyntaxError) : Drawing :=
  (e.toDiagnostic 0).render .standard [⟨name, none, text⟩]

/-- The drawings of all syntax errors in a text, in order. -/
def drawErrors (colours : Bool) (name text : String) : String :=
  String.join ((parseText text.toList).2.map fun e => (drawError name text e).toText colours)

/-- A report says what it should about the text of a program. -/
structure Report.Answers (env : Environment) (i : Invocation) (text : String) (r : Report) :
    Prop where
  /-- It is one of success just if there are no syntax errors. -/
  accepts : r.exitCode = 0 ∧ r.errors = "" ↔ (parseText text.toList).2 = []
  /-- Then the tree or the value of the program is printed. -/
  prints : (parseText text.toList).2 = [] →
    r.output = i.command.printed (parseText text.toList).1
  /-- Otherwise nothing is printed but the drawings of the errors, and a line after them. -/
  rejects : (parseText text.toList).2 ≠ [] → r.exitCode = 1 ∧ r.output = "" ∧
    r.errors = drawErrors (i.colour.enabled env) i.name text ++ "errors while parsing\n"
  /-- None of the drawings is broken off. -/
  whole : ∀ e ∈ (parseText text.toList).2, (drawError i.name text e).failure = none

section Reports

variable (env : Environment) (i : Invocation) {text : String}

/-- Every syntax error of a text is drawn to the end, for its snippets stand at tokens. -/
theorem failure_drawError (name : String) {e : SyntaxError} (he : e ∈ (parseText text.toList).2) :
    (drawError name text e).failure = none := by
  refine (Render.render_of_fits ?_).1
  intro s hs
  obtain ⟨hindex, t, ht, hspan, -⟩ := (parseText_foundIn text.toList e he).snippets 0 s hs
  have hsource : [Source.mk name none text][s.source]? = some ⟨name, none, text⟩ := by
    rw [hindex]
    rfl
  obtain ⟨m, line, begun, hmark, -, -, hfit, -⟩ := Render.exists_fits hsource hspan ht.standsIn
  exact ⟨m, hmark, line, begun, _, hfit⟩

theorem renderAll_parse (colours : Bool) (name text : String) :
    renderAll colours (Session.empty.parse name text).2 = drawErrors colours name text := by
  show String.join (List.map _ (List.map _ (List.map _ _))) = _
  rw [List.map_map, List.map_map]
  rfl

/-- **A program without syntax errors is printed.** -/
theorem report_of_accepted (h : (parseText text.toList).2 = []) :
    i.report env text = .success (i.command.printed (parseText text.toList).1) := by
  have hparse : (Session.empty.parse i.name text).1 = .ok (parseText text.toList).1 := by
    rw [Session.parse_fst, if_pos h]
  have hrun : (Session.empty.run i.name text).1 = .ok (parseText text.toList).1.value? :=
    congrArg (Except.map Program.value?) hparse
  unfold Invocation.report reportResult Command.printed
  cases i.command with
  | run =>
    simp only [hrun]
    cases (parseText text.toList).1.value? <;> rfl
  | parse => simp only [hparse]

/-- **The syntax errors of a program are printed**, and nothing else is. -/
theorem report_of_rejected (h : (parseText text.toList).2 ≠ []) :
    i.report env text
      = .failure (drawErrors (i.colour.enabled env) i.name text ++ "errors while parsing\n") := by
  have hparse : (Session.empty.parse i.name text).1 = .error .hadErrors := by
    rw [Session.parse_fst, if_neg h]
  have hrun : (Session.empty.run i.name text).1 = .error .hadErrors :=
    congrArg (Except.map Program.value?) hparse
  have hrender : renderAll (i.colour.enabled env) (Session.empty.run i.name text).2
      = drawErrors (i.colour.enabled env) i.name text := renderAll_parse _ _ _
  unfold Invocation.report reportResult
  cases i.command with
  | run =>
    simp only [hrun, hrender, String.append_assoc]
    rfl
  | parse =>
    simp only [hparse, renderAll_parse, String.append_assoc]
    rfl

/-- **The report on a program says what it should.** -/
theorem report_answers (text : String) : (i.report env text).Answers env i text := by
  have hwhole : ∀ e ∈ (parseText text.toList).2, (drawError i.name text e).failure = none :=
    fun e he => failure_drawError i.name he
  by_cases h : (parseText text.toList).2 = []
  · rw [report_of_accepted env i h]
    exact ⟨⟨fun _ => h, fun _ => ⟨rfl, rfl⟩⟩, fun _ => rfl, fun hne => absurd h hne, hwhole⟩
  · rw [report_of_rejected env i h]
    refine ⟨⟨fun hsuccess => ?_, fun heq => absurd heq h⟩, fun heq => absurd heq h,
      fun _ => ⟨rfl, rfl, rfl⟩, hwhole⟩
    exact absurd hsuccess.1 Nat.one_ne_zero

end Reports

/-! ### Errors with the name left open -/

/-- A stretch of what is printed as errors, perhaps with the name of the program left open. -/
inductive Stretch where
  /-- Text without the name. -/
  | text (s : String)
  /-- The line at the head of a block: the name of the program and a position. -/
  | head (position : Nat × Nat)

/-- The text of a stretch in a program that is called by a name. -/
def Stretch.fill (name : String) : Stretch → String
  | text s => s
  | head position => "In " ++ Render.place name position ++ "\n"

/-- The text of stretches, one after the other. -/
def fillAll (name : String) (form : List Stretch) : String :=
  String.join (form.map (Stretch.fill name))

theorem fillAll_append (name : String) (form more : List Stretch) :
    fillAll name (form ++ more) = fillAll name form ++ fillAll name more := by
  rw [fillAll, List.map_append, String.join_append]
  rfl

/-- The stretch that a step of drawing prints. -/
def Stretch.ofSlot (colours : Bool) : Slot → Stretch
  | .piece p => .text (if colours then p.ansi else p.plain)
  | .head _ position => .head position

/-- What a form prints, if no source has a path. -/
theorem toText_fill (colours : Bool) (name : String) (slots : List Slot)
    (failure : Option Drawing.Failure) :
    Drawing.toText colours ⟨slots.map (Slot.fill fun _ => ⟨name, none⟩), failure⟩
      = fillAll name (slots.map (Stretch.ofSlot colours)) := by
  have hfill : Stretch.fill name ∘ Stretch.ofSlot colours
      = (fun p : Piece => if colours then p.ansi else p.plain)
        ∘ Slot.fill fun _ => ⟨name, none⟩ := by
    funext slot
    cases slot with
    | piece p => rfl
    | head source position =>
      have hhead : "In " ++ Render.place name position ++ "" ++ "\n"
          = "In " ++ Render.place name position ++ "\n" := by rw [String.append_empty]
      cases colours <;> exact hhead.symm
  unfold Drawing.toText Drawing.ansi Drawing.plain fillAll
  rw [List.map_map, List.map_map, List.map_map, hfill]
  cases colours <;> rfl

/-- The drawing of a syntax error depends on the name by its heads only. -/
theorem drawError_form (colours : Bool) (text : String) (e : SyntaxError) :
    ∃ form, ∀ name, (drawError name text e).toText colours = fillAll name form := by
  obtain ⟨slots, failure, hform⟩ :=
    (e.toDiagnostic 0).render_form .standard [⟨"", none, text⟩]
  refine ⟨slots.map (Stretch.ofSlot colours), ?_⟩
  intro name
  rw [← toText_fill colours name slots failure, ← hform]
  rfl

theorem drawErrors_form (colours : Bool) (text : String) :
    ∃ form, ∀ name, drawErrors colours name text = fillAll name form := by
  unfold drawErrors
  induction (parseText text.toList).2 with
  | nil => exact ⟨[], fun _ => rfl⟩
  | cons e errors ih =>
    obtain ⟨first, hfirst⟩ := drawError_form colours text e
    obtain ⟨form, hform⟩ := ih
    refine ⟨first ++ form, ?_⟩
    intro name
    rw [List.map_cons, String.join_cons, hfirst, hform, fillAll_append]

/-- **How a program is given shows in the heads of its errors only.** -/
theorem report_form (env : Environment) (command : Command) (colour : ColourChoice)
    (text : String) : ∃ exitCode output form, ∀ i : Invocation,
      i.command = command → i.colour = colour →
        i.report env text = ⟨exitCode, output, fillAll i.name form⟩ := by
  by_cases h : (parseText text.toList).2 = []
  · refine ⟨0, command.printed (parseText text.toList).1, [], ?_⟩
    rintro i rfl rfl
    exact report_of_accepted env i h
  · obtain ⟨form, hform⟩ := drawErrors_form (colour.enabled env) text
    refine ⟨1, "", form ++ [.text "errors while parsing\n"], ?_⟩
    rintro i rfl rfl
    rw [report_of_rejected env i h, hform, fillAll_append]
    rfl

/-! ### Carrying out command lines -/

/-- A text is read back from its bytes. -/
theorem textOfBytes_toUTF8 (text : String) : textOfBytes text.toUTF8 = .ok text := by
  have hvalid : String.fromUTF8? text.toUTF8 = some text := dif_pos text.isValidUTF8
  rw [textOfBytes, hvalid]

/-- The report on what was read as the program. -/
def Invocation.answer (env : Environment) (i : Invocation) : Except ReadError String → Report
  | .ok text => i.report env text
  | .error e => .failure (e.message ++ "\n")

/-- **A command line is carried out** by what it means, however it is written.  A file is read just
if the program is in one. -/
theorem perform_eq {m : Type → Type} [Monad m] (env : Environment)
    (read : String → m (Except ReadError String)) {arguments : List String} {i : Invocation}
    (h : Invocation.ofArguments arguments = .ok i) :
    perform env read arguments =
      if i.inline then pure (.ok (i.answer env (.ok i.input)))
      else do return .ok (i.answer env (← read i.input)) := by
  unfold perform
  simp only [h]
  split
  · rfl
  · refine congrArg (read i.input >>= ·) (funext fun content => ?_)
    cases content <;> rfl

/-- **A program in a file of a tree** is read from there, and its text is reported on. -/
theorem perform_file (env : Environment) {tree : FileTree} {names : List String} {text : String}
    {arguments : List String} {i : Invocation} (h : tree.Holds names text.toUTF8)
    (hne : names ≠ []) (hshort : i.input.utf8ByteSize ≤ FileTree.longestPath)
    (harguments : Invocation.ofArguments arguments = .ok i) (hinline : i.inline = false)
    (hinput : i.input = "/".intercalate names) :
    perform (m := Id) env tree.read arguments = .ok (i.report env text) := by
  rw [hinput] at hshort
  have hread : tree.read i.input = .ok text := by
    rw [hinput, FileTree.read_intercalate h hne hshort, textOfBytes_toUTF8]
  rw [perform_eq (m := Id) env tree.read harguments, if_neg (by simp [hinline])]
  show Except.ok (i.answer env (tree.read i.input)) = _
  rw [hread]
  rfl

/-- **What every command line leads to.**  Every invocation can be written, and however it is
written, it is carried out on its own input or on what is read from the file of that name.  A text
is read from its bytes, and the report on it says what it should: there is success and no errors
just if the text has no syntax errors, then the tree or the value is printed, and else only the
errors are.  A file that cannot be read leads to a report of that alone.  The report on a text is
the same whether it is given itself or in any file, but for the name in the heads of errors. -/
theorem perform_contract {m : Type → Type} [Monad m] (env : Environment)
    (read : String → m (Except ReadError String)) (i : Invocation) (text : String) :
    Invocation.ofArguments i.arguments = .ok i ∧
    (∀ arguments, Invocation.ofArguments arguments = .ok i →
      perform env read arguments =
        if i.inline then pure (.ok (i.answer env (.ok i.input)))
        else do return .ok (i.answer env (← read i.input))) ∧
    textOfBytes text.toUTF8 = .ok text ∧
    (i.answer env (.ok text)).Answers env i text ∧
    (∀ e : ReadError, i.answer env (.error e) = ⟨1, "", e.message ++ "\n"⟩) ∧
    ∃ form, ∀ input inline,
      let other : Invocation := ⟨i.command, input, inline, i.colour⟩
      other.answer env (.ok text) = ⟨(i.answer env (.ok text)).exitCode,
        (i.answer env (.ok text)).output, fillAll other.name form⟩ := by
  refine ⟨ofArguments_arguments i, fun arguments h => perform_eq env read h,
    textOfBytes_toUTF8 text, report_answers env i text, fun _ => rfl, ?_⟩
  obtain ⟨exitCode, output, form, hform⟩ := report_form env i.command i.colour text
  have hreport : i.answer env (.ok text) = ⟨exitCode, output, fillAll i.name form⟩ :=
    hform i rfl rfl
  refine ⟨form, ?_⟩
  intro input inline other
  rw [hreport]
  exact hform other rfl rfl

/-- A program in a directory of a tree: its text is reported on, and the path of the directory leads
to a report that this is not a file. -/
theorem perform_contract_file :
    let tree : FileTree := [(["programs", "main"], .file "1".toUTF8)]
    let env : Environment := ⟨none, none⟩
    (∃ report, perform (m := Id) env tree.read ["run", "programs/main"] = .ok report ∧
      report.Answers env ⟨.run, "programs/main", false, .auto⟩ "1") ∧
    perform (m := Id) env tree.read ["run", "programs"]
      = .ok ⟨1, "", "Is a directory (os error 21)\n"⟩ := by
  intro tree env
  have hfile : tree.Holds ["programs", "main"] "1".toUTF8 := by
    refine ⟨by decide, rfl, ?_⟩
    intro place _ hne other
    simp [tree, List.lookup_cons, beq_false_of_ne hne]
  have hread : tree.read "programs/main" = .ok "1" :=
    (FileTree.read_intercalate hfile (by decide) (by decide)).trans (textOfBytes_toUTF8 "1")
  have hdirectory : tree.read "programs" = .error .isDirectory := rfl
  obtain ⟨-, hmain, -, hanswers, -⟩ :=
    perform_contract (m := Id) env tree.read ⟨.run, "programs/main", false, .auto⟩ "1"
  obtain ⟨-, hprograms, -, -, herror, -⟩ :=
    perform_contract (m := Id) env tree.read ⟨.run, "programs", false, .auto⟩ ""
  refine ⟨⟨_, ?_, hanswers⟩, ?_⟩
  · rw [hmain ["run", "programs/main"] rfl]
    show Except.ok (Invocation.answer env _ (tree.read "programs/main")) = _
    rw [hread]
  · rw [hprograms ["run", "programs"] rfl]
    show Except.ok (Invocation.answer env _ (tree.read "programs")) = _
    rw [hdirectory, herror]
    rfl

end Sapling.CommandLine
