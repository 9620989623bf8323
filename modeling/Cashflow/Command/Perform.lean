import Cashflow.Command.Directory
import Cashflow.Command.Window
import Cashflow.Report.Export
import Cashflow.Report.Table
import Cashflow.Review.Lint

/-!
# Carrying out requests

`perform` answers a request whose input is at hand: an exit code, the two output texts, and the files
to be written with the line that each is acknowledged by. `Answer.carryOut` writes them into a
directory, in order, up to the first that cannot be opened. `onWords` is the whole program on a
directory.

Faults of a document, of a date and of a kind are reported, as are months that no report can place;
what no document or command line should have (a type or a number out of place beyond the loader's
judgement, too deep a nesting, a hollow flag in use) is returned as a `Failure`.
-/

namespace Cashflow.Command

/-- Why a request has no answer. -/
inductive Failure where
  | fault (fault : Fault)
  | hollow (fault : HollowFault)
  /-- A document nested beyond the depth that is read. -/
  | nested

/-- A file to be written, what keeps it from being written further, and the line that tells of it. -/
structure Export where
  path : String
  text : String
  fault : Option Text.EncodingFault := none
  note : String

structure Answer where
  code : Nat := 0
  out : String := ""
  err : String := ""
  exports : List Export := []

def versionNumber : String := "0.1.0"

def versionLine : String := s!"FinEventLab {versionNumber}\n"

/-! ## The example -/

def exampleEvent (kind name type : String) (amount : Float) (rest : List (String × Value)) : Value :=
  .mapping ([("kind", .text kind), ("name", .text name), ("type", .text type),
    ("amount", .float amount)] ++ rest)

def exampleDocument : Value :=
  .mapping [("name", .text "CLI Demo"), ("initial_balance", .float 10000), ("start", .text "2025-01"),
    ("end", .text "2026-12"), ("events", .list [
      exampleEvent "recurring" "Salary" "income" 2000 [("start", .text "2025-01")],
      exampleEvent "recurring" "Cost of Life" "expense" 1400 [("start", .text "2025-01")],
      exampleEvent "one-off" "New Car" "expense" 10000 [("date", .text "2025-06-15")],
      exampleEvent "recurring" "Car Insurance" "expense" 600
        [("start", .text "2025-06"), ("frequency", .text "yearly")],
      .mapping [("name", .text "Holiday"), ("type", .text "expense"), ("amount", .float 3000),
        ("recurrence", .mapping [("type", .text "once")]),
        ("unlockedBy", .list [(Condition.networthIsAbove "Salary" 12000).toValue])]])]

/-! ## The log -/

def logLine (level text : String) : String := s!"{level} fineventlab.core.scenario: {text}\n"

/-- The firings of a month, and its closing balance when it ended. -/
def monthLog (b : Books Float) (month : String) (t : Entry Float) : String :=
  String.join (t.events.map fun e =>
    logLine "DEBUG" s!"{month}: fired '{e.name}' ({Decimal.fixedSigned 2 e.signedAmount})") ++
  match b.balances.get? month with
  | some x => logLine "DEBUG" s!"{month}: closed at {Decimal.fixed 2 x}"
  | none => ""

def booksLog (level : LogLevel) (b : Books Float) : String :=
  match level with
  | .debug => String.join (b.cashflow.entries.map fun t => monthLog b t.1 t.2)
  | _ => ""

def runLog (level : LogLevel) (r : Run Float) : String :=
  match level with
  | .silent => ""
  | _ => logLine "INFO"
    (s!"Scenario '{r.scenario}': {natText r.balances.size} months evaluated, " ++
      s!"final balance {Decimal.fixed 2 r.finalBalance}")

/-! ## Runs -/

/-- The depths that commands read to. -/
def commandDepths : Document.Depths := ⟨986, 489, 493⟩

/-- A text for the error output, or a fault that is not reported. -/
def reported (f : Fault) : Except Failure String :=
  match f.family with
  | .value | .config => .ok f.message
  | _ => .error (.fault f)

def loadMessage : LoadFailure → Except Failure String
  | .load f => .ok f.message
  | .noFile path => .ok path
  | .directory path => .ok (OpenFault.directory.message path)
  | .nameTooLong path => .ok (OpenFault.nameTooLong.message path)
  | .longNumeral n => .ok (longNumeralText n)
  | .escaped f => reported f
  | .nested => .error .nested

def runError (log text : String) : Answer :=
  { code := 1, err := s!"{log}Error running scenario: {text}\n" }

/-- The name over the labels of a table. -/
def indexName : String := "month"

def headLine (r : Run Float) : String :=
  s!"Scenario '{r.scenario}': {natText r.balances.size} months\n"

def balanceLine (r : Run Float) : String := s!"Final balance: {Decimal.grouped 2 r.finalBalance}\n"

/-- The table of a run whose monthly frame is at hand. -/
def tableText (frame : Frame Float) (frequency : String) : String :=
  ((frame.atFrequency Decimal.undefined frequency).toOption.getD frame).table indexName ++ "\n"

def jsonExport (r : Run Float) (path : String) : Except Run.ExportFault Export := do
  return { path, text := ← r.exportJson Run.figurePlaces, note := s!"Results saved to {path}\n" }

def ledgerExport (r : Run Float) (path : String) : Export :=
  { path, text := r.exportLedger, fault := r.ledgerFault?, note := s!"Ledger saved to {path}\n" }

/-- The answer of a run whose frame cannot be made, after its first line. -/
def misplacedAnswer (r : Run Float) (log : String) (m : MisplacedKey) : Answer :=
  { runError log m.message with out := headLine r }

def runExports (r : Run Float) (q : RunRequest) : Except Run.ExportFault (List Export) := do
  let json ← match asked q.output with
    | some path => (jsonExport r path).map fun e => [e]
    | none => .ok []
  return json ++ ((asked q.ledger).map (ledgerExport r)).toList

/-- The answer of a run that reached its end. -/
def finishedAnswer (r : Run Float) (log : String) (q : RunRequest) : Except Failure Answer :=
  match r.monthlyFrame, q.frequency, runExports r q with
  | .error m, _, _ | .ok _, some _, .error (.month m) => .ok (misplacedAnswer r log m)
  | .ok _, none, _ => .error (.hollow .frequency)
  | .ok _, some _, .error (.figure f) => .error (.fault (.value f))
  | .ok frame, some frequency, .ok exports =>
    .ok { out := headLine r ++ tableText frame frequency ++ balanceLine r, err := log, exports }

def runAnswer (reg : Registry) (level : LogLevel) (q : RunRequest) (s : Scenario Float)
    (window : Date × Date) (opening : Float) : Except Failure Answer :=
  match s.writtenBooks reg window.1 window.2 opening with
  | .error h => (reported h.fault).map (runError (booksLog level h.left))
  | .ok b =>
    let r : Run Float := .ofBooks s.name opening b
    finishedAnswer r (booksLog level b ++ runLog level r) q

/-- A run whose opening balance is hollow. -/
def hollowAnswer (reg : Registry) (q : RunRequest) (s : Scenario Float) (window : Date × Date) :
    Except Failure Answer :=
  match reg.wire s.events with
  | .error f => .ok (runError "" f.message)
  | .ok () =>
    match openingUse reg s window, q.frequency with
    | none, _ => .ok (runError "" ValueFault.longNumber.message)
    | some .printed, none => .error (.hollow .frequency)
    | some use, _ => .error (.hollow (.opening use))

def performRun (today : Date) (reg : Registry) (level : LogLevel) (q : RunRequest)
    (content : FileContent) : Except Failure Answer :=
  match q.input with
  | none => .error (.hollow .input)
  | some path =>
    match Document.ofFile commandDepths path none content with
    | .error f => (loadMessage f).map (runError "")
    | .ok doc =>
      match q.window today doc.defaults with
      | .error (.date f) => .ok (runError "" f.message)
      | .error (.hollow f) => .error (.hollow f)
      | .ok window =>
        match q.opening.getD doc.defaults.opening with
        | some opening => runAnswer reg level q doc.scenario window opening
        | none => hollowAnswer reg q doc.scenario window

/-! ## Findings -/

def lintError (asJson : Bool) (text : String) : Answer :=
  { code := 1
    out := if asJson then
        Json.indented (.mapping [("has_errors", .bool true), ("has_warnings", .bool false),
          ("is_valid", .bool false), ("exit_code", .int 1), ("error", .text text)]) ++ "\n"
      else s!"❌ Lint failed: {text}\n" }

def performLint (q : LintRequest) (content : FileContent) : Except Failure Answer :=
  match q.input with
  | none => .error (.hollow .input)
  | some path =>
    match Document.ofFile commandDepths path none content with
    | .error f => (loadMessage f).map (lintError q.asJson)
    | .ok doc =>
      let report := doc.scenario.lint
      let text := if q.asJson then Json.indented report.toValue else report.text
      .ok { code := report.verdict.exitCode, out := text ++ "\n" }

/-! ## The program -/

def Request.input? : Request → Option String
  | .example => none
  | .run q => q.input
  | .lint q => q.input

def perform (today : Date) (reg : Registry) (level : LogLevel) (q : Request)
    (content : FileContent) : Except Failure Answer :=
  match q with
  | .example => .ok { out := Json.indented exampleDocument ++ "\n" }
  | .run q => performRun today reg level q content
  | .lint q => performLint q content

def exitAnswer : Exit → Answer
  | .help => {}
  | .version => { out := versionLine }
  | .usage program text => { code := 2, err := s!"{program}: error: {text}\n" }

/-- The answer with one export done. -/
def Answer.acknowledge (a : Answer) (e : Export) : Answer := { a with out := a.out ++ e.note }

/-- The answer when an export fails. -/
def Answer.abandon (a : Answer) (text : String) : Answer :=
  { a with code := 1, err := a.err ++ s!"Error running scenario: {text}\n" }

def carryOutAll (a : Answer) (d : Directory) : List Export → Answer × Directory
  | [] => (a, d)
  | e :: rest =>
    match d.write e.path e.text, e.fault with
    | .error f, _ => (a.abandon (f.message e.path), d)
    | .ok d, some f => (a.abandon f.message, d)
    | .ok d, none => carryOutAll (a.acknowledge e) d rest

def Answer.carryOut (a : Answer) (d : Directory) : Answer × Directory := carryOutAll a d a.exports

/-- The whole program on a directory, for the kinds that have behaviour. -/
def onWords (today : Date) (reg : Registry) (words : List String) (d : Directory) :
    Except Failure (Answer × Directory) :=
  match Request.ofWords words with
  | .error e => .ok (exitAnswer e, d)
  | .ok (none, _) => .error (.hollow .level)
  | .ok (some level, q) => do
    let content := (q.input?.map d.content).getD .absent
    return (← perform today reg level q content).carryOut d

end Cashflow.Command
