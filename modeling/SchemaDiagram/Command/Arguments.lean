import SchemaDiagram.Edit.Connection

namespace SchemaDiagram

/-- What the options of the command line are for. -/
inductive Purpose
  | output | verbose | version | help | source | target | cardinality | mode | order
  | nullableSource | nullableTarget | inPlace | directory
  deriving DecidableEq

/-- An option: its long name, its letter, whether a value follows, whether it has to be given, and what it
says about itself. -/
structure OptionForm where
  purpose : Purpose
  long : Text
  letter : Option Char := none
  hasValue : Bool := false
  required : Bool := false
  about : Text := []

/-- Help and version are given at once, whatever follows. -/
def OptionForm.isFinal (form : OptionForm) : Bool := form.purpose = .help || form.purpose = .version

/-- The options that may stand in front of the name of a task and behind it. -/
def sharedOptions : List OptionForm :=
  [{ purpose := .output, long := txt "output", letter := 'o', hasValue := true
     about := txt "Output file (default: stdout)" },
   { purpose := .verbose, long := txt "verbose", letter := 'v', about := txt "Log debug details to stderr" }]

def helpOption : OptionForm :=
  { purpose := .help, long := txt "help", letter := 'h', about := txt "Print help" }

def versionOption : OptionForm :=
  { purpose := .version, long := txt "version", letter := 'V', about := txt "Print version" }

/-- What an option says of the value that it has if it is not given. -/
def defaultNote (value : Text) : Text := txt " [default: " ++ value ++ txt "]"

def relateOptions : List OptionForm :=
  [{ purpose := .source, long := txt "from", hasValue := true, required := true
     about := txt "Source endpoint, as Entity.field" },
   { purpose := .target, long := txt "to", hasValue := true, required := true
     about := txt "Target endpoint, as Entity.field" },
   { purpose := .cardinality, long := txt "cardinality", letter := 'c', hasValue := true, required := true
     about := txt "1-1, 1-M or M-M" },
   { purpose := .mode, long := txt "mode", letter := 'm', hasValue := true
     about := txt "implicit or explicit (many-to-many only)" ++ defaultNote RelationMode.implicit.label },
   { purpose := .order, long := txt "order", hasValue := true
     about := txt "AonB or BonA: junction model name order" ++ defaultNote JunctionOrder.sourceFirst.label },
   { purpose := .nullableSource, long := txt "nullable-source" },
   { purpose := .nullableTarget, long := txt "nullable-target" },
   { purpose := .inPlace, long := txt "in-place"
     about := txt "Rewrite the input file instead of printing" }]

def splitOptions : List OptionForm :=
  [{ purpose := .directory, long := txt "out", hasValue := true, required := true
     about := txt "Directory to write the files into" }]

/-- Whether a value can stand for what an option is for. -/
def acceptsValue (purpose : Purpose) (value : Text) : Bool :=
  match purpose with
  | .output | .directory => !value.isEmpty
  | .cardinality => (Cardinality.parse value).isOk
  | .mode => (RelationMode.parse value).isOk
  | .order => (JunctionOrder.parse value).isOk
  | _ => true

/-- What has been read of some arguments. `waiting` is an option whose value is still to come, and behind
`--` there are no more options. -/
structure ArgumentState where
  options : List (Purpose × Text) := []
  words : List Text := []
  waiting : Option OptionForm := none
  onlyWords : Bool := false

namespace ArgumentState

def has (s : ArgumentState) (purpose : Purpose) : Bool := s.options.any (·.1 = purpose)

def value? (s : ArgumentState) (purpose : Purpose) : Option Text :=
  (s.options.find? (·.1 = purpose)).map (·.2)

/-- Takes an option in. None may be given twice. -/
def give (s : ArgumentState) (form : OptionForm) (value : Text) : Option ArgumentState :=
  if s.has form.purpose || (form.hasValue && !acceptsValue form.purpose value) then none
  else some { s with options := s.options ++ [(form.purpose, value)], waiting := none }

/-- Reads an argument behind `--`, the name of an option with or without a value. -/
def readLong (forms : List OptionForm) (s : ArgumentState) (argument : Text) : Option ArgumentState := do
  let name := argument.takeWhile (· ≠ '=')
  let form ← forms.find? (·.long = name)
  match argument.dropWhile (· ≠ '=') with
  | _ :: value => if form.hasValue then s.give form value else none
  | [] => if form.hasValue then some { s with waiting := some form } else s.give form []

/-- Reads the letters of an argument. What follows a letter with a value is that value. -/
def readLetters (forms : List OptionForm) (s : ArgumentState) : List Char → Option ArgumentState
  | [] => some s
  | c :: rest => do
    let form ← forms.find? (·.letter = some c)
    if form.hasValue then
      match rest with
      | [] => some { s with waiting := some form }
      | '=' :: value => s.give form value
      | value => s.give form value
    else if form.isFinal then s.give form []
    else readLetters forms (← s.give form []) rest

/-- Reads an argument that is no option. -/
def readWord (s : ArgumentState) (argument : Text) : ArgumentState :=
  { s with words := s.words ++ [argument] }

/-- Reads one argument. The value of an option may only begin with a hyphen if it is nothing else. -/
def read (forms : List OptionForm) (s : ArgumentState) (argument : Text) : Option ArgumentState :=
  if s.onlyWords then some (s.readWord argument)
  else
    match s.waiting, argument with
    | some _, '-' :: _ :: _ => none
    | some form, value => s.give form value
    | none, ['-', '-'] => some { s with onlyWords := true }
    | none, '-' :: '-' :: long => readLong forms s long
    | none, '-' :: c :: letters => readLetters forms s (c :: letters)
    | none, word => some (s.readWord word)

end ArgumentState

/-- What the program is asked to do with a schema file. -/
inductive Task
  | parse (input : Text)
  | diagram (input : Text)
  | format (input : Text)
  | relate (input source target : Text) (request : RelationRequest) (inPlace : Bool)
  | split (input directory : Text)
  deriving DecidableEq

inductive TaskName
  | parse | diagram | format | relate | split
  deriving DecidableEq

/-- What help can be asked about. -/
inductive HelpSubject
  | program
  | task (name : TaskName)
  | help
  deriving DecidableEq

inductive Invocation
  | help (subject : HelpSubject)
  | version
  | run (task : Task) (output : Option Text)
  deriving DecidableEq

namespace TaskName

def label : TaskName → Text
  | .parse => txt "parse"
  | .diagram => txt "diagram"
  | .format => txt "format"
  | .relate => txt "relate"
  | .split => txt "split"

def all : List TaskName := [.parse, .diagram, .format, .relate, .split]

/-- The options of a task alone. -/
def ownOptions : TaskName → List OptionForm
  | .relate => relateOptions
  | .split => splitOptions
  | _ => []

def options (name : TaskName) : List OptionForm := name.ownOptions ++ sharedOptions ++ [helpOption]

def ofLabel? (label : Text) : Option TaskName := all.find? (·.label = label)

/-- The task that the arguments behind its name describe, if none is missing. -/
def task? (name : TaskName) (s : ArgumentState) : Option Task := do
  let input ← s.words.head?
  match name with
  | .parse => some (.parse input)
  | .diagram => some (.diagram input)
  | .format => some (.format input)
  | .split => (s.value? .directory).map (.split input)
  | .relate =>
    if s.has .inPlace && s.has .output then none
    else
      let cardinality ← (Cardinality.parse (← s.value? .cardinality)).toOption
      let mode ← (RelationMode.parse ((s.value? .mode).getD RelationMode.implicit.label)).toOption
      let order ← (JunctionOrder.parse ((s.value? .order).getD JunctionOrder.sourceFirst.label)).toOption
      let request : RelationRequest :=
        { cardinality, mode, order
          nullableSource := s.has .nullableSource
          nullableTarget := s.has .nullableTarget }
      some (.relate input (← s.value? .source) (← s.value? .target) request (s.has .inPlace))

end TaskName

/-- Reads the arguments behind the name of a task. An output given here stands for one given before. -/
def readTask (name : TaskName) (before : ArgumentState) (s : ArgumentState) :
    List Text → Option Invocation
  | [] =>
    if s.waiting.isSome then none
    else (name.task? s).map (.run · ((s.value? .output).or (before.value? .output)))
  | argument :: later => do
    let next ← s.read name.options argument
    if 1 < next.words.length || next.words = [[]] then none
    else if next.has .help then some (.help (.task name))
    else readTask name before next later

/-- The word that asks for help in the place of a task. -/
def helpWord : Text := txt "help"

/-- The subject that the words behind the one for help name: the program, a task, or help itself. -/
def HelpSubject.ofWords? : List Text → Option HelpSubject
  | [] => some .program
  | [word] => if word = helpWord then some .help else (TaskName.ofLabel? word).map .task
  | _ => none

def programOptions : List OptionForm := sharedOptions ++ [helpOption, versionOption]

/-- Reads the arguments in front of the name of a task, and then the others. -/
def readInvocation (s : ArgumentState) : List Text → Option Invocation
  | [] => none
  | argument :: later => do
    let next ← s.read programOptions argument
    if next.has .help then some (.help .program)
    else if next.has .version then some .version
    else if next.words.isEmpty then readInvocation next later
    else if s.onlyWords then none
    else if argument = helpWord then (HelpSubject.ofWords? later).map .help
    else
      let name ← TaskName.ofLabel? argument
      readTask name next {} later

/-- Reads the arguments of a command line. There is no invocation if they are not well formed. -/
def Invocation.ofArguments (arguments : List Text) : Option Invocation := readInvocation {} arguments

end SchemaDiagram
