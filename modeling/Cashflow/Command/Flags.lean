import Cashflow.Document.Fault

/-!
# Command-line flags

A flag has one or more names and takes a value or none. Words are sorted first: a word is a flag
when it is one of the names, a name with `=` and a value, a short name with its value attached, or
the beginning of exactly one long name; a word that looks like a flag but is none of these is an
unknown flag, a negative number is not, and after `--` no word is.

The words are then taken in order. A flag takes its value from the word or from the next one, which
must not be a flag; the first value that a flag refuses ends the reading. Two dashes that are attached
to a flag stand for nothing: the flag is then given, but hollow. Letters behind a short flag that
takes no value are short flags themselves. Words that belong to no flag are left over.
-/

namespace Cashflow.Command

structure Flag where
  names : List String
  takesValue : Bool := true
  /-- What is wrong with a value. -/
  refuses : String → Option String := fun _ => none

def commaList (words : List String) : String := String.intercalate ", " words

def Flag.title (f : Flag) : String := String.intercalate "/" f.names

/-- A name of the flag that stands for it in results. -/
def Flag.key (f : Flag) : String := f.names.getLast?.getD ""

/-- Refuses all but the given words. -/
def oneOf (words : List String) (v : String) : Option String :=
  if words.contains v then none
  else some s!"invalid choice: {Text.quoted v} (choose from {commaList (words.map Text.quoted)})"

inductive Token where
  | word
  | dashes
  /-- A flag, the name used for it, and a value attached to it. -/
  | flag (f : Flag) (used : String) (value : Option String)
  | unknownFlag

/-- A flag that a word may mean. -/
structure Match where
  flag : Flag
  used : String
  value : Option String

/-! ## Sorting words -/

def beginsWith (s start : String) : Bool := start.toList.isPrefixOf s.toList

def namePairs (flags : List Flag) : List (Flag × String) :=
  flags.flatMap fun f => f.names.map fun n => (f, n)

def exactFlag? (flags : List Flag) (name : String) : Option Flag :=
  ((namePairs flags).find? fun p => p.2 = name).map Prod.fst

/-- The parts before and after the first `=`. -/
def splitEquals (s : String) : Option (String × String) :=
  let cs := s.toList
  match cs.dropWhile (· ≠ '=') with
  | _ :: value => some (String.ofList (cs.takeWhile (· ≠ '=')), String.ofList value)
  | [] => none

def isLongWord (s : String) : Bool := beginsWith s "--"

/-- The long names that a word begins, with what follows its `=`. -/
def longMatches (flags : List Flag) (s : String) : List Match :=
  let (start, value) := match splitEquals s with
    | some (start, value) => (start, some value)
    | none => (s, none)
  ((namePairs flags).filter fun p => beginsWith p.2 start).map fun p => ⟨p.1, p.2, value⟩

/-- The short name that a word starts with, its value attached, and the names that it begins. -/
def shortMatches (flags : List Flag) (s : String) : List Match :=
  let short := String.ofList (s.toList.take 2)
  (namePairs flags).filterMap fun p =>
    if p.2 = short then some ⟨p.1, p.2, some (String.ofList (s.toList.drop 2))⟩
    else if beginsWith p.2 s then some ⟨p.1, p.2, none⟩
    else none

/-- The flags that a word may mean. -/
def flagMatches (flags : List Flag) (s : String) : List Match :=
  if isLongWord s then longMatches flags s else shortMatches flags s

def isDigits (cs : List Char) : Bool := !cs.isEmpty && cs.all fun c => (Text.digitValue? c).isSome

/-- A text without the line end that closes it. -/
def withoutLineEnd (cs : List Char) : List Char := if cs.getLast? = some '\n' then cs.dropLast else cs

/-- Digits with a minus sign, perhaps a point among or before them; a line end may follow. -/
def isNegativeNumber (s : String) : Bool :=
  match s.toList with
  | '-' :: cs =>
    let cs := withoutLineEnd cs
    let behind := cs.dropWhile fun c => (Text.digitValue? c).isSome
    isDigits cs || match behind with
      | '.' :: fraction => isDigits fraction
      | _ => false
  | _ => false

def ambiguity (s : String) (ms : List Match) : String :=
  s!"ambiguous option: {s} could match {commaList (ms.map Match.used)}"

/-- A word that starts with a dash and is no name. -/
def dashedToken (flags : List Flag) (s : String) : Except String Token :=
  match flagMatches flags s with
  | [m] => .ok (.flag m.flag m.used m.value)
  | [] => .ok (if isNegativeNumber s || s.contains ' ' then .word else .unknownFlag)
  | ms => .error (ambiguity s ms)

def token (flags : List Flag) (s : String) : Except String Token :=
  if !beginsWith s "-" then .ok .word
  else match exactFlag? flags s with
    | some f => .ok (.flag f s none)
    | none =>
      if s = "-" then .ok .word
      else match splitEquals s with
        | some (name, value) =>
          match exactFlag? flags name with
          | some f => .ok (.flag f name (some value))
          | none => dashedToken flags s
        | none => dashedToken flags s

/-- The words with their sorts; behind `--` all are plain. -/
def tokens (flags : List Flag) : List String → Except String (List (String × Token))
  | [] => .ok []
  | s :: r =>
    if s = "--" then .ok ((s, .dashes) :: r.map fun w => (w, .word))
    else do
      let t ← token flags s
      return (s, t) :: (← tokens flags r)

/-! ## Taking flags -/

/-- Why a command line is not carried out. -/
inductive Exit where
  | help
  | version
  /-- What is wrong, under the name of the program. -/
  | usage (program message : String)

/-- What a command line says about a flag. -/
inductive Setting (α : Type) where
  | unset
  /-- Given, with nothing for a value. -/
  | hollow
  | value (a : α)

namespace Setting
variable {α β : Type}

def toOption : Setting α → Option α
  | .value a => some a
  | _ => none

/-- The value as something else, if it can be that. -/
def bind? (f : α → Option β) : Setting α → Setting β
  | .unset => .unset
  | .hollow => .hollow
  | .value a =>
    match f a with
    | some b => .value b
    | none => .unset

/-- The value of a flag that has one when it is not given; `none` when it is hollow. -/
def getD (a : α) : Setting α → Option α
  | .unset => some a
  | .hollow => none
  | .value a => some a

end Setting

/-- Values of flags, in order, `none` for hollow ones, and words left over. -/
structure Taken where
  values : List (String × Option String) := []
  left : List String := []

def Taken.setting (t : Taken) (key : String) : Setting String :=
  match (t.values.reverse.find? fun v => v.1 = key).map Prod.snd with
  | none => .unset
  | some none => .hollow
  | some (some v) => .value v

def Taken.has (t : Taken) (key : String) : Bool := t.values.any fun v => v.1 = key

def flagError (program : String) (f : Flag) (text : String) : Exit :=
  .usage program s!"argument {f.title}: {text}"

/-- The exit of a flag without a value. -/
def Flag.exit (f : Flag) : Exit := if f.key = "--version" then .version else .help

def ignoredText (value : List Char) : String :=
  s!"ignored explicit argument {Text.quoted (String.ofList value)}"

/-- What is wrong with the letters behind the short flag `f`, which takes no value. Each letter is a
short flag; the first that takes a value has the letters behind it, or else the next word, which is
there when `next` holds. -/
def lettersFault? (program : String) (flags : List Flag) (next : Bool) (f : Flag) :
    List Char → Option Exit
  | [] => none
  | c :: rest =>
    match exactFlag? flags (String.ofList ['-', c]) with
    | none => some (flagError program f (ignoredText (c :: rest)))
    | some g =>
      if g.takesValue then
        if rest.isEmpty && !next then some (flagError program g "expected one argument") else none
      else lettersFault? program flags next g rest

/-- A flag without a value that has one attached. -/
def attachedExit (program : String) (flags : List Flag) (next : Bool) (f : Flag)
    (used value : String) : Exit :=
  if isLongWord used || value.isEmpty then flagError program f (ignoredText value.toList)
  else (lettersFault? program flags next f value.toList).getD f.exit

def Taken.add (program : String) (t : Taken) (f : Flag) (value : String) : Except Exit Taken :=
  match f.refuses value with
  | some text => .error (flagError program f text)
  | none => .ok { t with values := t.values ++ [(f.key, some value)] }

/-- Takes a value that is attached to its flag. -/
def Taken.addAttached (program : String) (t : Taken) (f : Flag) (value : String) :
    Except Exit Taken :=
  if value = "--" then .ok { t with values := t.values ++ [(f.key, none)] }
  else t.add program f value

/-- Whether the next word can be a value. -/
def startsWithWord : List (String × Token) → Bool
  | (_, .word) :: _ => true
  | _ => false

/-- Takes flags until the words end, or until the first plain word when `stop` is set. The rest
starts with that word. -/
def take (program : String) (flags : List Flag) (stop : Bool) (t : Taken) :
    List (String × Token) → Except Exit (Taken × List (String × Token))
  | [] => .ok (t, [])
  | (s, .word) :: r =>
    if stop then .ok (t, (s, .word) :: r)
    else take program flags stop { t with left := t.left ++ [s] } r
  | (s, .dashes) :: r =>
    if stop && !r.isEmpty then .ok (t, (s, .dashes) :: r)
    else take program flags stop { t with left := t.left ++ [s] } r
  | (s, .unknownFlag) :: r => take program flags stop { t with left := t.left ++ [s] } r
  | (_, .flag f used (some value)) :: r =>
    if f.takesValue then
      match t.addAttached program f value with
      | .ok t => take program flags stop t r
      | .error e => .error e
    else .error (attachedExit program flags (startsWithWord r) f used value)
  | (_, .flag f _ none) :: r =>
    if f.takesValue then
      match r with
      | (value, .word) :: r =>
        match t.add program f value with
        | .ok t => take program flags stop t r
        | .error e => .error e
      | _ => .error (flagError program f "expected one argument")
    else .error f.exit

/-- All flags of a list of words; the flags of `required` must be among them. -/
def takeAll (program : String) (flags required : List Flag) (words : List String) :
    Except Exit Taken :=
  match tokens flags words with
  | .error text => .error (.usage program text)
  | .ok ts =>
    match take program flags false {} ts with
    | .error e => .error e
    | .ok (t, _) =>
      match required.filter fun f => !t.has f.key with
      | [] => .ok t
      | missing => .error (.usage program
          s!"the following arguments are required: {commaList (missing.map Flag.title)}")

end Cashflow.Command
