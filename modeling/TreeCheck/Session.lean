/-
Sessions: several files, each loaded and analyzed on its own with the
same options, and the status of the whole.

What came of reading the files is given, so a session decides nothing
about where they are kept. Files are read as streams; a text at hand is
analyzed as a text.
-/
import TreeCheck.Analysis.Analyzer
import TreeCheck.Document.Load

namespace TreeCheck

/-- Loads and analyzes a document that comes from some source. -/
def checkDocument (config : Config) (source : Json.Source) (bytes : List UInt8) :
    Except Failure Analysis :=
  match Document.load source bytes with
  | .error e => .error (.malformed e)
  | .ok p => (p.analyze config).mapError .internal

/-- Loads and analyzes a document held as a text. -/
def checkText (config : Config) (text : String) : Except Failure Analysis :=
  checkDocument config .text (Utf8.encode text)

/-- What came of one file. -/
structure CheckedFile where
  path : String
  outcome : Except Failure Analysis

namespace CheckedFile

/-- Loads and analyzes a file, given what reading it gave. -/
def check (config : Config) (path : String) (content : Except FileError (List UInt8)) :
    CheckedFile where
  path := path
  outcome := match content with
    | .error e => .error (.file e)
    | .ok bytes => checkDocument config .stream bytes

/-- Whether a file failed, or its program has an error. -/
def hasErrors (f : CheckedFile) : Bool :=
  match f.outcome with
  | .ok a => !a.isSuccess
  | .error _ => true

end CheckedFile

/-- The status of a session, from the best to the worst. -/
inductive Status where
  | clean
  | errors
  | fatal
deriving DecidableEq, Repr

namespace Status

/-- The status of one file: fatal without an analysis, and otherwise by
whether there are errors. -/
def ofFile (f : CheckedFile) : Status :=
  match f.outcome with
  | .ok a => if a.isSuccess then .clean else .errors
  | .error _ => .fatal

/-- The exit code of a status. -/
def code : Status → Nat
  | .clean => 0
  | .errors => 1
  | .fatal => 2

/-- The name of a status. -/
def name : Status → String
  | .clean => "Clean"
  | .errors => "Errors"
  | .fatal => "Fatal"

/-- The worse of two. -/
def max (a b : Status) : Status := if a.code < b.code then b else a

/-- The status of a session: the worst of its files. -/
def ofFiles (fs : List CheckedFile) : Status := (fs.map ofFile).foldl max .clean

end Status

end TreeCheck
