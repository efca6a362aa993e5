import QuantityCalculator.Proofs.Session.Runs
import QuantityCalculator.Proofs.Text

/-!
Where scripts stop.

A line that fails is the last one that its script runs.  Its failure goes into the answer of the script, and the line
that runs the script does not fail.  So a script around it goes on, and nothing more is run only if nothing stands
behind the lines that run one another down to the one that fails.
-/

namespace QuantityCalculator.Session

variable {enterLine : Workspace → List Char → Outcome} {runsOf : Workspace → List Char → List Run}
  {number : Nat} {answered : List String} {workspace : Workspace}

/-! ### Lines that hold nothing -/

def IsIdle (line : List Char) : Prop :=
  match Text.trim line with
  | [] => True
  | first :: _ => first = '#'

private theorem enterNested_of_idle {line : List Char} (idle : IsIdle line) (files : Files) (depth : Nat)
    (workspace : Workspace) : enterNested files depth workspace line = .done workspace .silent := by
  have each : ∀ runScript, enterWith files runScript workspace line = .done workspace .silent := by
    intro runScript
    unfold enterWith
    unfold IsIdle at idle
    cases trimmed : Text.trim line with
    | nil => rfl
    | cons first rest =>
        rw [trimmed] at idle
        have isMark : first = '#' := idle
        subst isMark
        rfl
  cases depth with
  | zero => exact each _
  | succ depth => exact each _

private theorem eq_of_ofWords_source {word : String} {arguments : List String} {path : Option String}
    (isSource : Command.ofWords word arguments = .source path) : word = "!source" := by
  unfold Command.ofWords at isSource
  split at isSource
  all_goals first | rfl | cases isSource

/-- A line that runs a script is a command. -/
theorem exists_command_of_scriptOf? {line : List Char} {path : String}
    (isScript : Command.scriptOf? line = some path) :
    ∃ rest, Text.trim line = '!' :: rest ∧ Command.read ('!' :: rest) = .source (some path) := by
  have isSource : Command.read (Text.trim line) = .source (some path) := by
    unfold Command.scriptOf? at isScript
    split at isScript
    · rename_i isSource
      rw [isSource, isScript]
    · cases isScript
  cases trimmed : Text.trim line with
  | nil =>
      rw [trimmed] at isSource
      cases isSource
  | cons first rest =>
      rw [trimmed] at isSource
      obtain ⟨word, more, isWords⟩ := Text.exists_words_cons (Text.noBlank_of_trim trimmed) rest
      have isWord : String.ofList (first :: word) = "!source" := by
        unfold Command.read at isSource
        rw [isWords] at isSource
        exact eq_of_ofWords_source isSource
      have starts : first :: word = '!' :: ['s', 'o', 'u', 'r', 'c', 'e'] := by
        rw [← String.toList_ofList (l := first :: word), isWord]
        rfl
      obtain ⟨rfl, _⟩ := List.cons.inj starts
      exact ⟨rest, rfl, isSource⟩

private theorem scriptOf?_of_idle {line : List Char} (idle : IsIdle line) : Command.scriptOf? line = none := by
  cases isScript : Command.scriptOf? line with
  | none => rfl
  | some path =>
      obtain ⟨rest, trimmed, _⟩ := exists_command_of_scriptOf? isScript
      unfold IsIdle at idle
      rw [trimmed] at idle
      have isMark : '!' = '#' := idle
      exact absurd isMark (by decide)

/-- A line that runs a script becomes what becomes of the script, and does not fail. -/
theorem enterNested_of_script {line : List Char} {path content : String} {files : Files}
    (isScript : Command.scriptOf? line = some path) (found : files.read path = .text content) (depth : Nat)
    (workspace : Workspace) :
    enterNested files (depth + 1) workspace line =
      .done (enterLines (enterNested files depth) 0 [] workspace (Text.lines content.toList)).1
        (enterLines (enterNested files depth) 0 [] workspace (Text.lines content.toList)).2 := by
  obtain ⟨rest, trimmed, isSource⟩ := exists_command_of_scriptOf? isScript
  rw [enterNested, enterWith, trimmed]
  change carryOut files _ workspace (Command.read ('!' :: rest)) = _
  rw [isSource, carryOut, found]

/-! ### Failing lines -/

/-- Nothing but blank lines and comments stands behind the lines that run one another down to the script of the
run. -/
def Run.IsLast (run : Run) : Prop :=
  ∀ outer, outer ∈ run.around → ∀ text, text ∈ outer.behind → IsIdle text

private theorem Run.isLast_within (line : ScriptLine) (run : Run) :
    (run.within line).IsLast ↔ (∀ text, text ∈ line.behind → IsIdle text) ∧ run.IsLast :=
  List.forall_mem_cons

/-- What is run later does not belong to the script of the failing line, and is nothing exactly if the scripts around
it hold nothing more. -/
structure Stops (failing : Run) (later : List Run) : Prop where
  apart : ∀ run, run ∈ later → ¬failing.around <+: run.around
  last : (∀ run, run ∈ later → IsIdle run.line.text) ↔ failing.IsLast

/-- What has to hold of the lines of a script for it to stop at those that fail. -/
structure Ends (enterLine : Workspace → List Char → Outcome) (runsOf : Workspace → List Char → List Run) : Prop where
  idle : ∀ workspace line, IsIdle line → enterLine workspace line = .done workspace .silent
  alone : ∀ workspace line, IsIdle line ∨ (enterLine workspace line).failure.isSome = true →
    runsOf workspace line = []
  stops : ∀ workspace line earlier failing later, runsOf workspace line = earlier ++ failing :: later →
    failing.outcome.failure.isSome = true →
      Stops failing later ∧ (failing.IsLast → (enterLine workspace line).reply.exit = false)

private theorem enterLines_of_stays {text : List Char} (succeeds : (enterLine workspace text).failure = none)
    (stays : (enterLine workspace text).reply.exit = false) (behind : List (List Char)) :
    enterLines enterLine number answered workspace (text :: behind) =
      enterLines enterLine (number + 1) (answered ++ (enterLine workspace text).reply.lines)
        (enterLine workspace text).workspace behind := by
  simp only [enterLines, succeeds, stays, Bool.false_eq_true, if_false]

private theorem number_lt_of_mem {lines : List (List Char)} {run : Run}
    (member : run ∈ runsOfScript enterLine runsOf number workspace lines) :
    ∀ outer, outer ∈ run.around.head? → number < outer.number := by
  induction lines generalizing number workspace with
  | nil => cases member
  | cons text behind ih =>
      intro outer isOuter
      rcases List.mem_append.mp member with first | later
      · rcases List.mem_cons.mp first with rfl | inside
        · cases isOuter
        · obtain ⟨inner, _, rfl⟩ := List.mem_map.mp inside
          cases isOuter
          exact Nat.lt_succ_self number
      · split at later
        · cases later
        · exact Nat.lt_of_succ_lt (ih later outer isOuter)

/-- Only lines that hold nothing are run exactly if all lines do. -/
theorem Ends.forall_idle_iff (ends : Ends enterLine runsOf) (lines : List (List Char)) :
    (∀ run, run ∈ runsOfScript enterLine runsOf number workspace lines → IsIdle run.line.text) ↔
      ∀ text, text ∈ lines → IsIdle text := by
  induction lines generalizing number workspace with
  | nil => exact ⟨fun _ _ member => (List.not_mem_nil member).elim, fun _ _ member => (List.not_mem_nil member).elim⟩
  | cons text behind ih =>
      rw [runsOfScript, List.cons_append, List.forall_mem_cons, List.forall_mem_cons]
      refine and_congr_right fun idle => ?_
      rw [ends.idle workspace text idle, ends.alone workspace text (Or.inl idle)]
      exact ih

private theorem Ends.exit_of_idle (ends : Ends enterLine runsOf) {lines : List (List Char)}
    (idle : ∀ text, text ∈ lines → IsIdle text) :
    (enterLines enterLine number answered workspace lines).2.exit = false := by
  induction lines generalizing number answered workspace with
  | nil => rfl
  | cons text behind ih =>
      obtain ⟨first, later⟩ := List.forall_mem_cons.mp idle
      have entered := ends.idle workspace text first
      rw [enterLines_of_stays (by rw [entered]; rfl) (by rw [entered]; rfl)]
      exact ih later

private theorem nil_ne_split {earlier later : List Run} {run : Run} : [] ≠ earlier ++ run :: later :=
  (List.append_ne_nil_of_right_ne_nil _ (List.cons_ne_nil _ _)).symm

/-- A place in two lists that are joined is one in the first or one in the second. -/
theorem split_append {left right earlier later : List Run} {run : Run}
    (split : left ++ right = earlier ++ run :: later) :
    (∃ behind, left = earlier ++ run :: behind ∧ later = behind ++ right) ∨
      ∃ before, right = before ++ run :: later := by
  rcases List.append_eq_append_iff.mp split with ⟨before, _, isRight⟩ | ⟨after, isLeft, isRun⟩
  · exact Or.inr ⟨before, isRight⟩
  · rcases List.cons_eq_append_iff.mp isRun with ⟨rfl, isRight⟩ | ⟨behind, rfl, isLater⟩
    · exact Or.inr ⟨[], isRight⟩
    · exact Or.inl ⟨behind, isLeft, isLater⟩

/-- A script stops at a line that fails in a script that it runs if it holds nothing more. -/
theorem Stops.within {failing : Run} {inside after : List Run} (stops : Stops failing inside) (line : ScriptLine)
    (beyond : ∀ run, run ∈ after → ∀ outer, outer ∈ run.around.head? → line.number < outer.number)
    (goesOn : failing.IsLast →
      ((∀ run, run ∈ after → IsIdle run.line.text) ↔ ∀ text, text ∈ line.behind → IsIdle text)) :
    Stops (failing.within line) (inside.map (Run.within line) ++ after) := by
  constructor
  · intro run member around
    rcases List.mem_append.mp member with isInside | isAfter
    · obtain ⟨inner, isInner, rfl⟩ := List.mem_map.mp isInside
      exact stops.apart inner isInner (List.cons_prefix_cons.mp around).2
    · obtain ⟨more, isAround⟩ := around
      have isOuter : line ∈ run.around.head? := by
        rw [← isAround]
        rfl
      exact Nat.lt_irrefl _ (beyond run isAfter line isOuter)
  · rw [List.forall_mem_append, List.forall_mem_map, Run.isLast_within]
    constructor
    · rintro ⟨insideIdle, afterIdle⟩
      have isLast := stops.last.mp insideIdle
      exact ⟨(goesOn isLast).mp afterIdle, isLast⟩
    · rintro ⟨behindIdle, isLast⟩
      exact ⟨stops.last.mpr isLast, (goesOn isLast).mpr behindIdle⟩

private theorem Ends.stops_script (ends : Ends enterLine runsOf) (answered : List String) {lines : List (List Char)}
    {earlier later : List Run} {failing : Run}
    (ran : runsOfScript enterLine runsOf number workspace lines = earlier ++ failing :: later)
    (fails : failing.outcome.failure.isSome = true) :
    Stops failing later ∧
      (failing.IsLast → (enterLines enterLine number answered workspace lines).2.exit = false) := by
  induction lines generalizing number answered workspace earlier with
  | nil => exact absurd ran nil_ne_split
  | cons text behind ih =>
      rw [runsOfScript] at ran
      rcases split_append ran with ⟨after, isFirst, rfl⟩ | ⟨before, inRest⟩
      · rcases List.cons_eq_append_iff.mp isFirst with ⟨_, isOwn⟩ | ⟨before, _, inside⟩
        · -- the line itself fails, and nothing else is run
          obtain ⟨rfl, isAfter⟩ := List.cons.inj isOwn
          have failed : (enterLine workspace text).failure.isSome = true := fails
          rw [isAfter, ends.alone workspace text (Or.inr failed), failed]
          refine ⟨⟨fun _ member => (List.not_mem_nil member).elim, ?_⟩, fun _ => ?_⟩
          · exact ⟨fun _ _ member => (List.not_mem_nil member).elim, fun _ _ member => (List.not_mem_nil member).elim⟩
          · obtain ⟨failure, isFailure⟩ := Option.isSome_iff_exists.mp failed
            rw [enterLines, isFailure]
        · -- a line fails in the script that the line runs
          obtain ⟨_, _, isSplit, _, isRest⟩ := List.map_eq_append_iff.mp inside
          obtain ⟨inner, insideAfter, rfl, rfl, rfl⟩ := List.map_eq_cons_iff.mp isRest
          obtain ⟨stops, stays⟩ := ends.stops _ _ _ _ _ isSplit fails
          have succeeds : (enterLine workspace text).failure = none := by
            rw [← Option.not_isSome_iff_eq_none]
            intro failed
            rw [ends.alone workspace text (Or.inr failed)] at isSplit
            exact absurd isSplit nil_ne_split
          constructor
          · refine stops.within _ ?_ fun isLast => ?_
            · intro run member
              split at member
              · cases member
              · exact number_lt_of_mem member
            · rw [succeeds, stays isLast]
              exact ends.forall_idle_iff behind
          · intro isLast
            obtain ⟨behindIdle, innerLast⟩ := (Run.isLast_within _ _).mp isLast
            rw [enterLines_of_stays succeeds (stays innerLast)]
            exact ends.exit_of_idle behindIdle
      · split at inRest
        · exact absurd inRest nil_ne_split
        · rename_i goesOn
          rw [Bool.or_eq_true, not_or, Option.not_isSome_iff_eq_none, Bool.not_eq_true] at goesOn
          rw [enterLines_of_stays goesOn.1 goesOn.2]
          exact ih _ inRest

private theorem enterNested_ends (files : Files) (depth : Nat) : Ends (enterNested files depth)
    (runsOfLine files depth) := by
  induction depth with
  | zero =>
      refine ⟨fun workspace line idle => enterNested_of_idle idle files 0 workspace, fun _ _ _ => rfl, ?_⟩
      intro workspace line earlier failing later ran _
      exact absurd ran nil_ne_split
  | succ depth ih =>
      refine ⟨fun workspace line idle => enterNested_of_idle idle files (depth + 1) workspace, ?_, ?_⟩
      · intro workspace line idleOrFailed
        rw [runsOfLine]
        split
        · rename_i content isContent
          obtain ⟨path, isScript, found⟩ := Option.map_eq_some_iff.mp isContent
          rcases idleOrFailed with idle | failed
          · rw [scriptOf?_of_idle idle] at isScript
            cases isScript
          · rw [enterNested_of_script isScript found] at failed
            cases failed
        · rfl
      · intro workspace line earlier failing later ran fails
        rw [runsOfLine] at ran
        split at ran
        · rename_i content isContent
          obtain ⟨path, isScript, found⟩ := Option.map_eq_some_iff.mp isContent
          rw [enterNested_of_script isScript found]
          exact ih.stops_script [] ran fails
        · exact absurd ran nil_ne_split

/-- A line that fails is the last one that is run of its script and of all that its script runs.  Other lines are run
later exactly if some other than blank lines and comments stand behind the lines that run one another down to its
script. -/
theorem stops_of_failure (files : Files) (workspace : Workspace) (content : String) {earlier later : List Run}
    {failing : Run} (ran : runsOfContent files workspace content = earlier ++ failing :: later)
    (fails : failing.outcome.failure.isSome = true) :
    (∀ run, run ∈ later → ¬failing.around <+: run.around) ∧
      ((∀ run, run ∈ later → IsIdle run.line.text) ↔
        ∀ outer, outer ∈ failing.around → ∀ text, text ∈ outer.behind → IsIdle text) := by
  obtain ⟨stops, _⟩ := (enterNested_ends files files.nesting).stops_script [] ran fails
  exact ⟨stops.apart, stops.last⟩

/-! ### A script that fails within another -/

/-- What stands behind the lines around a run, its own text, and whether it fails. -/
def Run.sketch (run : Run) : List (List (List Char)) × List Char × Bool :=
  (run.around.map (·.behind), run.line.text, run.outcome.failure.isSome)

private theorem exists_split_of_sketch {runs : List Run}
    {before after : List (List (List (List Char)) × List Char × Bool)}
    {around : List (List (List Char))} {text : List Char}
    (sketched : runs.map Run.sketch = before ++ (around, text, true) :: after) :
    ∃ earlier failing later, runs = earlier ++ failing :: later ∧ failing.outcome.failure.isSome = true ∧
      failing.around.map (·.behind) = around ∧ later.map Run.sketch = after := by
  obtain ⟨earlier, rest, rfl, _, isRest⟩ := List.map_eq_append_iff.mp sketched
  obtain ⟨failing, later, rfl, isFailing, isLater⟩ := List.map_eq_cons_iff.mp isRest
  exact ⟨earlier, failing, later, rfl, congrArg (·.2.2) isFailing, congrArg (·.1) isFailing, isLater⟩

def cutOffFile : Files :=
  { read := fun path => if path = "f" then .text "1 +\nx" else .missing, nesting := 1 }

/-- The file is left at its first line, and nothing else is run if only a comment stands behind the line that runs
it. -/
theorem stops_of_failure_atEnd :
    ∃ earlier failing later,
      runsOfContent cutOffFile Workspace.empty "x\n!source f\n\n# end" = earlier ++ failing :: later ∧
        failing.outcome.failure.isSome = true ∧
        (∀ run, run ∈ later → ¬failing.around <+: run.around) ∧ ∀ run, run ∈ later → IsIdle run.line.text := by
  have sketched : (runsOfContent cutOffFile Workspace.empty "x\n!source f\n\n# end").map Run.sketch =
      [([], ['x'], false), ([], "!source f".toList, false)] ++
        ([[[], "# end".toList]], "1 +".toList, true) :: [([], [], false), ([], "# end".toList, false)] := by
    decide +kernel
  obtain ⟨earlier, failing, later, ran, fails, isAround, _⟩ := exists_split_of_sketch sketched
  obtain ⟨apart, last⟩ := stops_of_failure cutOffFile Workspace.empty _ ran fails
  refine ⟨earlier, failing, later, ran, fails, apart, last.mpr fun outer member text inBehind => ?_⟩
  have isBehind : outer.behind ∈ failing.around.map (·.behind) := List.mem_map_of_mem member
  rw [isAround, List.mem_singleton] at isBehind
  rw [isBehind] at inBehind
  rcases List.mem_cons.mp inBehind with rfl | isComment
  · trivial
  · rw [List.mem_singleton.mp isComment]
    rfl

/-- The script around the file goes on behind the line that runs it. -/
theorem failedScript_goesOn :
    (∃ earlier failing later,
      runsOfContent cutOffFile Workspace.empty "!source f\ny" = earlier ++ failing :: later ∧
        failing.outcome.failure.isSome = true ∧ ∃ run, run ∈ later ∧ ¬IsIdle run.line.text) ∧
      (enterScript cutOffFile Workspace.empty "!source f\ny").2.lines =
        ["Syntax error on line 1: missing value at end of line", "[1] y"] := by
  have sketched : (runsOfContent cutOffFile Workspace.empty "!source f\ny").map Run.sketch =
      [([], "!source f".toList, false)] ++ ([[['y']]], "1 +".toList, true) :: [([], ['y'], false)] := by
    decide +kernel
  obtain ⟨earlier, failing, later, ran, fails, _, isLater⟩ := exists_split_of_sketch sketched
  obtain ⟨run, _, rfl, isRun, _⟩ := List.map_eq_cons_iff.mp isLater
  have text : run.line.text = ['y'] := congrArg (·.2.1) isRun
  refine ⟨⟨earlier, failing, _, ran, fails, run, List.mem_cons_self, ?_⟩, by decide +kernel⟩
  rw [text]
  intro idle
  have isMark : 'y' = '#' := idle
  exact absurd isMark (by decide)

end QuantityCalculator.Session
