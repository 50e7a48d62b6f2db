/-
The program: reads the files that its arguments ask for, runs, and
writes what the run leaves.
-/
import TreeCheck.CommandLine.Run
import TreeCheck.Directory

namespace TreeCheck.CommandLine

/-- What the operating system says of a read that failed. -/
def fileError : IO.Error → FileError
  | .alreadyExists _ code reason | .interrupted _ code reason
  | .noFileOrDirectory _ code reason | .invalidArgument _ code reason
  | .permissionDenied _ code reason | .resourceExhausted _ code reason
  | .inappropriateType _ code reason | .noSuchThing _ code reason
  | .otherError code reason | .resourceBusy code reason
  | .resourceVanished code reason | .unsupportedOperation code reason
  | .hardwareFault code reason | .unsatisfiedConstraints code reason
  | .illegalOperation code reason | .protocolError code reason
  | .timeExpired code reason => ⟨reason, some code.toNat⟩
  | .unexpectedEof => ⟨"unexpected end of file", none⟩
  | .userError reason => ⟨reason, none⟩

/-- Reads a file. -/
def readFile (path : String) : IO (Except FileError (List UInt8)) := do
  match ← (IO.FS.readBinFile path).toBaseIO with
  | .ok bytes => pure (.ok bytes.toList)
  | .error e => pure (.error (fileError e))

end TreeCheck.CommandLine

open TreeCheck CommandLine in
/-- Runs the program on its arguments and ends with the code of the run. -/
def main (args : List String) : IO UInt32 := do
  let files ← (wanted args).mapM fun path => do pure (path, ← readFile path)
  let out := run (fun path => (files.lookup path).getD (.error Directory.notFound)) args
  (← IO.getStdout).putStr out.stdout
  (← IO.getStderr).putStr out.stderr
  pure (UInt32.ofNat out.code)
