import Cashflow.Command.Flags
import Cashflow.Decimal.Reader

/-!
# Requests

A command line asks for the example document, for a run of a document or for the findings about one.
`Request.ofWords` reads it: first the flags of the program, then the name of the command, then the
flags of the command. Words that belong to nothing are refused last.

A hollow flag is not judged: it stands in the request as `none` or `hollow`, and only its use can
fail. Where an absent flag and a hollow one are used alike, the request does not tell them apart.
-/

namespace Cashflow.Command

inductive LogLevel where
  | debug
  | info
  | silent
deriving DecidableEq

structure RunRequest where
  input : Option String
  output : Option String := none
  ledger : Option String := none
  start : Option String := none
  stop : Option String := none
  years : Setting Int := .unset
  opening : Setting Float := .unset
  frequency : Option String := some "M"

structure LintRequest where
  input : Option String
  asJson : Bool := false

inductive Request where
  | example
  | run (r : RunRequest)
  | lint (r : LintRequest)

/-! ## Flags -/

def program : String := "finevent"

def helpFlag : Flag := ⟨["-h", "--help"], false, fun _ => none⟩

def versionFlag : Flag := ⟨["--version"], false, fun _ => none⟩

def levelFlag : Flag := { names := ["--log-level"], refuses := oneOf ["DEBUG", "INFO", "WARNING", "ERROR"] }

def inputFlag : Flag := { names := ["-i", "--input"] }

/-- A whole number from one on. -/
def refuseYears (v : String) : Option String :=
  match Text.readInteger v.toList with
  | .error _ => some s!"invalid _positive_int value: {Text.quoted v}"
  | .ok y => if y < 1 then some s!"expected a positive integer, got {v}" else none

def refuseNumber (v : String) : Option String :=
  match Decimal.number? v.toList with
  | none => some s!"invalid float value: {Text.quoted v}"
  | some _ => none

def programFlags : List Flag := [helpFlag, versionFlag, levelFlag]

def exampleFlags : List Flag := [helpFlag]

def runFlags : List Flag :=
  [helpFlag, inputFlag, { names := ["-o", "--output"] }, { names := ["--start"] },
    { names := ["--end"] }, { names := ["--years"], refuses := refuseYears },
    { names := ["--initial-balance"], refuses := refuseNumber },
    { names := ["--freq"], refuses := oneOf ["M", "Q", "Y"] }, { names := ["--ledger"] }]

def lintFlags : List Flag :=
  [helpFlag, inputFlag, { names := ["--format"], refuses := oneOf ["human", "json"] }]

/-! ## Reading -/

def levelOf (t : Taken) : Option LogLevel :=
  ((t.setting "--log-level").getD "WARNING").map fun
    | "DEBUG" => .debug
    | "INFO" => .info
    | _ => .silent

/-- The whole number that a text spells. -/
def wholeText? (v : String) : Option Int := (Text.readInteger v.toList).toOption

def runRequest (t : Taken) : RunRequest where
  input := (t.setting "--input").toOption
  output := (t.setting "--output").toOption
  ledger := (t.setting "--ledger").toOption
  start := (t.setting "--start").toOption
  stop := (t.setting "--end").toOption
  years := (t.setting "--years").bind? wholeText?
  opening := (t.setting "--initial-balance").bind? fun v => Decimal.number? v.toList
  frequency := (t.setting "--freq").getD "M"

def lintRequest (t : Taken) : LintRequest where
  input := (t.setting "--input").toOption
  asJson := (t.setting "--format").toOption = some "json"

def commandNames : List String := ["example", "run", "lint"]

/-- The request of a command with its words, and the words left over. -/
def commandRequest (name : String) (words : List String) : Except Exit (Request × List String) :=
  let taken flags required := takeAll s!"{program} {name}" flags required words
  match name with
  | "example" => (taken exampleFlags []).map fun t => (.example, t.left)
  | "run" => (taken runFlags [inputFlag]).map fun t => (.run (runRequest t), t.left)
  | "lint" => (taken lintFlags [inputFlag]).map fun t => (.lint (lintRequest t), t.left)
  | _ => .error (.usage program ("argument cmd: " ++ (oneOf commandNames name).getD ""))

/-- The level of the log, `none` when its flag is hollow, and the request. -/
def Request.ofWords (words : List String) : Except Exit (Option LogLevel × Request) :=
  match tokens programFlags words with
  | .error text => .error (.usage program text)
  | .ok ts => do
    match ← take program programFlags true {} ts with
    | (_, []) => .error (.usage program "the following arguments are required: cmd")
    | (t, (name, _) :: rest) =>
      let (request, left) ← commandRequest name (rest.map Prod.fst)
      match t.left ++ left with
      | [] => return (levelOf t, request)
      | extra =>
        .error (.usage program ("unrecognized arguments: " ++ String.intercalate " " extra))

end Cashflow.Command
