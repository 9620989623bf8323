import Cashflow.Command.Perform
import Cashflow.Proofs.Calendar.DateText
import Cashflow.Proofs.Report.Rows
import Cashflow.Proofs.Simulation.MonthLoop

/-!
# The window of a request

Which months a run evaluates that is asked for on the command line: `StartsIn` says where the run
starts, `Lasts` for how many months, flag by flag and after them the document. The run that is
answered for is the one over these months (`performRun_window`): `Evaluates` says what it does in
them, and `Answers` what is printed of its outcome, be it a fault or a run that returned. A request
without a number for the opening balance has no run, and `Refuses` says how it ends.
-/

namespace Cashflow.Command

variable {q : RunRequest} {d : RunDefaults} {first : Date} {count : Nat}

/-- What is answered to a request for a run of the scenario `name` over `count` months, by the outcome
of that run. A fault is told on the error output, unless it is of a sort that nothing should have. A
run that returned is announced with the number of its months. Its table and its final balance
follow, or else the month is told that no table has a row for; without a frequency to show it at, or
with a key figure that no file can hold, there is no answer. -/
inductive Answers (q : RunRequest) (name : String) (count : Nat) :
    Except Fault (Run Float) → Except Failure Answer → Prop where
  | told {fault : Fault} {log : String} (hf : fault.family = .value ∨ fault.family = .config) :
      Answers q name count (.error fault)
        (.ok { code := 1, err := s!"{log}Error running scenario: {fault.message}\n" })
  | escaped {fault : Fault} (hf : ¬ (fault.family = .value ∨ fault.family = .config)) :
      Answers q name count (.error fault) (.error (.fault fault))
  | shown {run : Run Float} {frame : Frame Float} {frequency log : String} {exports : List Export}
      (hframe : run.monthlyFrame = .ok frame) (hq : q.frequency = some frequency)
      (hexports : runExports run q = .ok exports) :
      Answers q name count (.ok run)
        (.ok { code := 0
               out := s!"Scenario '{name}': {natText count} months\n" ++
                 tableText frame frequency ++
                 s!"Final balance: {Decimal.grouped 2 run.finalBalance}\n"
               err := log, exports })
  | misplaced {run : Run Float} {key : MisplacedKey} {log : String}
      (hframe : run.monthlyFrame = .error key) :
      Answers q name count (.ok run)
        (.ok { code := 1, out := s!"Scenario '{name}': {natText count} months\n"
               err := s!"{log}Error running scenario: {key.message}\n" })
  | noFrequency {run : Run Float} (hq : q.frequency = none) :
      Answers q name count (.ok run) (.error (.hollow .frequency))
  | noFigure {run : Run Float} {path : String} {fault : ValueFault} (ho : q.output = some path)
      (hne : path ≠ "") (hfigure : run.exportJson Run.figurePlaces = .error (.figure fault)) :
      Answers q name count (.ok run) (.error (.fault (.value fault)))

/-- What is answered without a balance to open with. No run is announced: an event that has no
behaviour is told of, as is a month that is not written if it comes before the first use of the
balance in the window, and otherwise that use fails. -/
inductive Refuses (reg : Registry) (q : RunRequest) (s : Scenario Float) (window : Date × Date) :
    Except Failure Answer → Prop where
  | unwired {fault : ConfigFault} (hw : reg.wire s.events = .error fault) :
      Refuses reg q s window
        (.ok { code := 1, err := s!"Error running scenario: {fault.message}\n" })
  | unwritten (hw : reg.wire s.events = .ok ()) (hu : openingUse reg s window = none) :
      Refuses reg q s window
        (.ok { code := 1, err := s!"Error running scenario: {ValueFault.longNumber.message}\n" })
  | noFrequency (hw : reg.wire s.events = .ok ()) (hu : openingUse reg s window = some .printed)
      (hq : q.frequency = none) : Refuses reg q s window (.error (.hollow .frequency))
  | used {use : OpeningUse} (hw : reg.wire s.events = .ok ())
      (hu : openingUse reg s window = some use) :
      Refuses reg q s window (.error (.hollow (.opening use)))

end Cashflow.Command
