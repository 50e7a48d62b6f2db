/-
The options of the command line and how arguments are read.

Arguments are read from left to right. An option that takes a value may
carry it in its own argument; if not, the value is the next argument.
Such a value, and a run of inputs, is looked at when the next option is
read. So of two bad arguments the first is reported, except that an
unknown option is reported before the bad value right in front of it.
-/
import TreeCheck.CommandLine.Help
import TreeCheck.CommandLine.Similarity
import TreeCheck.Text.ControlSequence

namespace TreeCheck.CommandLine

/-- The formats of the output. -/
inductive Format where
  | human
  | json
deriving DecidableEq, Repr

/-- What the command line asks for. -/
structure Options where
  inputs : List String := []
  source : Option String := none
  format : Format := .human
  warnUnused : Bool := true
  maxDepth : Nat := 512
  verbose : Nat := 0
  quiet : Bool := false
deriving DecidableEq, Repr

/-- The options that there are. -/
inductive OptionName where
  | source
  | format
  | noWarnUnused
  | maxDepth
  | verbose
  | quiet
  | help
  | version
deriving DecidableEq, Repr

namespace OptionName

/-- Every option, each once. -/
def all : List OptionName :=
  [.source, .format, .noWarnUnused, .maxDepth, .verbose, .quiet, .help, .version]

/-- The long name of an option. -/
def long : OptionName → String
  | .source => "source"
  | .format => "format"
  | .noWarnUnused => "no-warn-unused"
  | .maxDepth => "max-depth"
  | .verbose => "verbose"
  | .quiet => "quiet"
  | .help => "help"
  | .version => "version"

/-- The one-letter name of an option, if it has one. -/
def short? : OptionName → Option Char
  | .source => some 's'
  | .format => some 'f'
  | .verbose => some 'v'
  | .quiet => some 'q'
  | .help => some 'h'
  | .version => some 'V'
  | .noWarnUnused | .maxDepth => none

/-- The name of the value of an option, if it takes one. -/
def value? : OptionName → Option String
  | .source => some "SOURCE"
  | .format => some "FORMAT"
  | .maxDepth => some "MAX_DEPTH"
  | _ => none

/-- An option as it is written in usages and messages. -/
def display (o : OptionName) : String :=
  "--" ++ o.long ++ match o.value? with
    | some v => " <" ++ v ++ ">"
    | none => if o = .verbose then "..." else ""

/-- Whether an option says something about a run. The others show
something instead. -/
def isForRun (o : OptionName) : Bool := o ≠ .help && o ≠ .version

end OptionName

/-- Why a number could not be read. -/
inductive NumberError where
  | empty
  | badDigit
  | tooLarge
deriving DecidableEq, Repr

/-- The text of why a number could not be read. -/
def NumberError.message : NumberError → String
  | .empty => "cannot parse integer from empty string"
  | .badDigit => "invalid digit found in string"
  | .tooLarge => "number too large to fit in target type"

/-- How a refusal reminds of the usage: in general, by the options that
were given, or by all that a run can be given, of which any one will do,
behind an option that is not for a run. -/
inductive Reminder where
  | general
  | given (options : List OptionName)
  | anyOf (option : OptionName)
deriving DecidableEq, Repr

/-- All that a run can be given. -/
def choices : String :=
  let options := OptionName.all.filter (·.isForRun)
  "<" ++ "|".intercalate ("INPUTS" :: options.map (·.display)) ++ ">"

/-- The line that reminds of the usage. -/
def Reminder.line : Reminder → String
  | .general => usage
  | .given os => String.join ("Usage: semac " :: os.map (·.display ++ " ")) ++ "<INPUTS>..."
  | .anyOf o => "Usage: semac " ++ (if o.isForRun then "" else o.display ++ " ") ++ choices

/-- Why arguments are refused. An unknown option can be much like a known
one. -/
inductive UsageError where
  | noInputs (usage : Reminder)
  | unknown (arg : String) (similar : Option OptionName) (usage : Reminder)
  | repeated (option : OptionName)
  | noValue (option : OptionName)
  | emptyInput
  | unwantedValue (option : OptionName) (value : String) (usage : Reminder)
  | badFormat (value : String)
  | badNumber (option : OptionName) (value : String) (error : NumberError)
deriving DecidableEq, Repr

/-- The names of the formats. -/
def formatNames : List String := ["human", "json"]

/-- The line that lists the formats. -/
def formatValues : String := "  [possible values: " ++ ", ".intercalate formatNames ++ "]"

/-- The lines that suggest a format much like an unknown one. -/
def similarFormat (value : String) : List String :=
  match Similarity.closest? value formatNames with
  | some known => ["", s!"  tip: a similar value exists: '{known}'"]
  | none => []

/-- The line that suggests what was meant by an unknown option. -/
def tip (shown : String) : Option OptionName → String
  | some o => s!"  tip: a similar argument exists: '--{o.long}'"
  | none => s!"  tip: to pass '{shown}' as a value, use '-- {shown}'"

/-- The lines that say why arguments are refused. What was given is shown
without control sequences. -/
def UsageError.lines : UsageError → List String
  | .noInputs usage =>
    ["error: the following required arguments were not provided:", "  <INPUTS>...", "", usage.line]
  | .unknown arg similar usage =>
    let shown := ControlSequence.strip arg
    [s!"error: unexpected argument '{shown}' found", "", tip shown similar, "", usage.line]
  | .repeated o => [s!"error: the argument '{o.display}' cannot be used multiple times", "", usage]
  | .noValue o =>
    s!"error: a value is required for '{o.display}' but none was supplied"
      :: if o = .format then [formatValues] else []
  | .emptyInput => ["error: a value is required for '<INPUTS>...' but none was supplied"]
  | .unwantedValue o value usage =>
    let shown := ControlSequence.strip value
    [s!"error: unexpected value '{shown}' for '{o.display}' found; no more were expected", "",
      usage.line]
  | .badFormat value =>
    let shown := ControlSequence.strip value
    [s!"error: invalid value '{shown}' for '{OptionName.format.display}'", formatValues]
      ++ similarFormat value
  | .badNumber o value e =>
    let shown := ControlSequence.strip value
    [s!"error: invalid value '{shown}' for '{o.display}': {e.message}"]

/-- The text of a refusal. -/
def UsageError.text (e : UsageError) : String :=
  unlines (e.lines ++ ["", "For more information, try '--help'."])

/-- What the arguments come to: a run, or something to show. -/
inductive Request where
  | run (options : Options)
  | show (text : String)
deriving DecidableEq, Repr

-- =============================================================== reading

/-- The greatest number that an option can be given. -/
def greatestNumber : Nat := 0xFFFFFFFFFFFFFFFF

/-- Reads digits behind those that make up `n`. -/
def readDigits (n : Nat) : List Char → Except NumberError Nat
  | [] => .ok n
  | c :: cs =>
    let next := n * 10 + (c.toNat - '0'.toNat)
    if !c.isDigit then .error .badDigit
    else if greatestNumber < next then .error .tooLarge
    else readDigits next cs

/-- Reads a natural number; a plus sign may stand in front. -/
def readNumber (s : String) : Except NumberError Nat :=
  match s.toList with
  | [] => .error .empty
  | '+' :: c :: cs => readDigits 0 (c :: cs)
  | cs => readDigits 0 cs

/-- What has been read but not looked at: inputs, or an option whose value
is the next argument or was the last. -/
inductive Pending where
  | nothing
  | inputs (args : List String)
  | option (option : OptionName) (value : Option String)
deriving DecidableEq, Repr

/-- What has been read of the arguments: what they set, which options were
given, and what is still to be looked at. -/
structure Progress where
  options : Options := {}
  used : List OptionName := []
  pending : Pending := .nothing
deriving Repr

/-- Why reading stops before the last argument. -/
inductive Interruption where
  | refused (error : UsageError)
  | shown (text : String)
deriving Repr

/-- Reading arguments. -/
abbrev Reading := Except Interruption

/-- Refuses the arguments. -/
def refuse {α : Type} (e : UsageError) : Reading α := .error (.refused e)

/-- Notes that an option was given. Only `verbose` may be repeated, and it
counts where it is given last. -/
def Progress.note (p : Progress) (o : OptionName) : Reading Progress :=
  if o ∈ p.used && o ≠ .verbose then refuse (.repeated o)
  else .ok { p with used := p.used.erase o ++ [o] }

/-- Sets an option to its value. -/
def Progress.assign (p : Progress) (o : OptionName) (value : String) : Reading Progress := do
  let p ← p.note o
  match o with
  | .source =>
    if value = "" then refuse (.noValue o)
    else pure { p with options := { p.options with source := some value } }
  | .format =>
    if value = "" then refuse (.noValue o)
    else if value = "human" then pure { p with options := { p.options with format := .human } }
    else if value = "json" then pure { p with options := { p.options with format := .json } }
    else refuse (.badFormat value)
  | .maxDepth =>
    match readNumber value with
    | .ok n => pure { p with options := { p.options with maxDepth := n } }
    | .error e => refuse (.badNumber o value e)
  | _ => pure p

/-- Adds inputs, none of which may be empty. -/
def Progress.addInputs (p : Progress) (args : List String) : Reading Progress :=
  if args.contains "" then refuse .emptyInput
  else .ok { p with options := { p.options with inputs := p.options.inputs ++ args } }

/-- Looks at what is pending. -/
def Progress.settle (p : Progress) : Reading Progress :=
  let q := { p with pending := .nothing }
  match p.pending with
  | .nothing => .ok q
  | .inputs args => q.addInputs args
  | .option o none => refuse (.noValue o)
  | .option o (some value) => q.assign o value

/-- Sets an option without a value. Help and version are shown at once. -/
def Progress.flag (p : Progress) (long : Bool) (o : OptionName) : Reading Progress := do
  let p ← p.settle
  match o with
  | .help => .error (.shown (if long then longHelp else shortHelp))
  | .version => .error (.shown version)
  | o =>
    let p ← p.note o
    let options := match o with
      | .noWarnUnused => { p.options with warnUnused := false }
      | .verbose => { p.options with verbose := p.options.verbose + 1 }
      | .quiet => { p.options with quiet := true }
      | _ => p.options
    pure { p with options }

/-- The options given so far. One whose value is pending counts, unless it
repeats another, and then neither does. -/
def Progress.usedSoFar (p : Progress) : List OptionName :=
  match p.pending with
  | .option o (some _) => if o ∈ p.used then p.used.erase o else p.used ++ [o]
  | _ => p.used

/-- Whether any input has been read. -/
def Progress.hasInputs (p : Progress) : Bool :=
  !p.options.inputs.isEmpty || p.pending matches .inputs _

/-- The refusal of an unknown long option. The known option that was
probably meant counts as given. -/
def Progress.unknownLong (p : Progress) (name : String) : UsageError :=
  let known := (Similarity.closest? name (OptionName.all.map (·.long))).bind fun w =>
    OptionName.all.find? (·.long == w)
  let given := p.usedSoFar ++ (known.filter (· ∉ p.usedSoFar)).toList
  .unknown ("--" ++ name) known
    (if given.isEmpty && !p.hasInputs then .general else .given given)

/-- The refusal of a value for an option that takes none. What is pending
does not count as given. -/
def Progress.unwanted (p : Progress) (o : OptionName) (value : String) : UsageError :=
  .unwantedValue o value
    (if p.used.isEmpty && p.options.inputs.isEmpty then .given [o] else .anyOf o)

/-- Reads an option that takes a value, which may come along. -/
def Progress.readOption (p : Progress) (o : OptionName) (attached : Option String) :
    Reading Progress := do
  let p ← p.settle
  match attached with
  | some value => p.assign o value
  | none => pure { p with pending := .option o none }

/-- Reads an argument that begins with two dashes. -/
def Progress.readLong (p : Progress) (body : List Char) : Reading Progress :=
  let name := String.ofList (body.takeWhile (· != '='))
  let attached := match body.dropWhile (· != '=') with
    | [] => none
    | _ :: value => some (String.ofList value)
  match OptionName.all.find? (·.long == name) with
  | none => refuse (p.unknownLong name)
  | some o =>
    match o.value?, attached with
    | some _, _ => p.readOption o attached
    | none, none => p.flag true o
    | none, some value => refuse (p.unwanted o value)

/-- Reads the letters of an argument that begins with one dash. What
follows a letter that takes a value is its value. -/
def Progress.readShort (p : Progress) : List Char → Reading Progress
  | [] => .ok p
  | c :: rest =>
    match OptionName.all.find? (·.short? == some c) with
    | none => refuse (.unknown (String.ofList ['-', c]) none .general)
    | some o =>
      if o.value?.isSome then
        p.readOption o (match rest with
          | [] => none
          | '=' :: value => some (String.ofList value)
          | value => some (String.ofList value))
      else do
        let p ← p.flag false o
        p.readShort rest

/-- Reads an argument that is an input. -/
def Progress.readInput (p : Progress) (arg : String) : Reading Progress :=
  match p.pending with
  | .inputs args => .ok { p with pending := .inputs (args ++ [arg]) }
  | _ => do
    let p ← p.settle
    pure { p with pending := .inputs [arg] }

/-- Reads arguments. After `--` all of them are inputs. -/
def Progress.readAll (p : Progress) (literally : Bool) : List String → Reading Progress
  | [] => .ok p
  | arg :: rest => do
    if literally then
      let p ← p.readInput arg
      p.readAll true rest
    else match arg.toList with
      | ['-', '-'] => p.readAll true rest
      | '-' :: '-' :: body =>
        let p ← p.readLong body
        p.readAll false rest
      | '-' :: c :: letters =>
        let p ← p.readShort (c :: letters)
        p.readAll false rest
      | _ =>
        match p.pending with
        | .option o none => ({ p with pending := .option o (some arg) }).readAll false rest
        | _ =>
          let p ← p.readInput arg
          p.readAll false rest

/-- What some arguments come to. -/
def parse (args : List String) : Except UsageError Request :=
  let result : Reading Progress := do
    let p ← ({} : Progress).readAll false args
    let p ← p.settle
    if p.options.inputs.isEmpty then refuse (.noInputs (.given p.used)) else pure p
  match result with
  | .ok p => .ok (.run p.options)
  | .error (.shown text) => .ok (.show text)
  | .error (.refused e) => .error e

end TreeCheck.CommandLine
