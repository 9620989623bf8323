import Cashflow.Command.Perform
import Std.Time.Zoned

/-!
# The command line

The outer layer of the program: it reads the clock and the input file, has the request carried out
and writes the exports, in order, up to the first that cannot be opened. What it reads and writes is
decided by `Command.perform`. Texts are marked on the way in and plain on the way out.
-/

namespace Cashflow.Command

/-- The date of today at the place of the clock. -/
def today : IO Date := do
  let now ← Std.Time.PlainDate.now
  return ⟨now.year, now.month.val, now.day.val⟩

/-- The number that the system gives to a path that is a directory. -/
def directoryCode : UInt32 := 21

/-- The number that the system gives to a path that is too long. -/
def longNameCode : UInt32 := 36

def openFault : IO.Error → OpenFault
  | .noFileOrDirectory .. => .absent
  | .inappropriateType _ code _ => if code = directoryCode then .directory else .notDirectory
  | .invalidArgument _ code _ => if code = longNameCode then .nameTooLong else .nullCharacter
  | _ => .directory

def readContent (path : String) : IO FileContent := do
  match ← (IO.FS.readFile (Text.plain (Text.normalPath path))).toBaseIO with
  | .ok text => return .text (Text.marked text)
  | .error e =>
    match openFault e with
    | .directory => return .directory
    | .nameTooLong => return .nameTooLong
    | _ => return .absent

def writeExports (a : Answer) : List Export → IO Answer
  | [] => return a
  | e :: rest => do
    match ← (IO.FS.writeFile (Text.plain e.path) (Text.plain e.text)).toBaseIO, e.fault with
    | .error fault, _ => return a.abandon ((openFault fault).message e.path)
    | .ok (), some fault => return a.abandon fault.message
    | .ok (), none => writeExports (a.acknowledge e) rest

/-- The answer to the words of a command line, its exports written. -/
def respond (words : List String) : IO (Except Failure Answer) := do
  match Request.ofWords words with
  | .error e => return .ok (exitAnswer e)
  | .ok (none, _) => return .error (.hollow .level)
  | .ok (some level, q) =>
    let content ← match q.input? with
      | some path => readContent path
      | none => pure .absent
    match perform (← today) .full level q content with
    | .error f => return .error f
    | .ok a => return .ok (← writeExports a a.exports)

/-- What stands in the place of an answer. -/
def Failure.message : Failure → String
  | .fault f => f.message
  | .hollow f => f.message
  | .nested => "maximum recursion depth exceeded"

end Cashflow.Command

open Cashflow Command

def main (words : List String) : IO UInt32 := do
  match ← respond (words.map Text.marked) with
  | .ok a =>
    (← IO.getStdout).putStr (Text.plain a.out)
    (← IO.getStderr).putStr (Text.plain a.err)
    return a.code.toUInt32
  | .error f =>
    (← IO.getStderr).putStr (Text.plain f.message ++ "\n")
    return 1
