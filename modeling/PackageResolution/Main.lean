import PackageResolution.CommandLine.Run

/-!
# The program

The system answers the requests of the command line.  Servers are not asked: every
document that the cache does not have is a broken exchange.
-/

namespace PackageResolution.Program

/-- Why the system refused. -/
def refusal : IO.Error → OsError
  | .noFileOrDirectory _ _ _ => .notFound
  | .alreadyExists _ _ _ => .exists
  | .permissionDenied _ _ _ => .denied
  | .inappropriateType _ code details => byCode code details
  | .unsatisfiedConstraints code details => byCode code details
  | .invalidArgument _ code details => byCode code details
  | .resourceExhausted _ code details => byCode code details
  | .otherError code details => byCode code details
  | failure => .other (toString failure)
where
  /-- The refusal with a number. -/
  byCode (code : UInt32) (details : String) : OsError :=
    if code = 20 then .notADirectory
    else if code = 21 then .isADirectory
    else if code = 36 then .nameTooLong
    else if code = 39 then .notEmpty
    else if code = 40 then .linkLoop
    else .other s!"{details} (os error {code})"

/-- The result of an operation of the system, or its refusal. -/
def tried {α : Type} (operation : IO α) : IO (Except OsError α) := do
  return (← operation.toBaseIO).mapError refusal

/-- Letters that nobody else is likely to choose. -/
def randomLetters : IO String := do
  let bytes ← IO.getRandomBytes 6
  return String.ofList (bytes.toList.map fun byte => Char.ofNat (97 + byte.toNat % 26))

/-- The answer of the system to a request. -/
def answer : (request : Request) → IO request.Answer
  | .isDirectory path => tried do
      return (← (← IO.FS.realPath path.text).metadata).type == .dir
  | .read path => tried (IO.FS.readBinFile path.text)
  | .list path => tried do
      let entries ← (← IO.FS.realPath path.text).readDir
      entries.toList.mapM fun entry => do
        return (entry.fileName, (← entry.path.symlinkMetadata).type == .dir)
  | .canonical path => tried do return ⟨(← IO.FS.realPath path.text).toString⟩
  | .createDirectory path => tried (IO.FS.createDir path.text)
  | .createFile path => tried do
      let _ ← IO.FS.Handle.mk path.text .writeNew
  | .write path contents => tried (IO.FS.writeBinFile path.text contents)
  | .rename source target => tried (IO.FS.rename source.text target.text)
  | .removeFile path => tried (IO.FS.removeFile path.text)
  | .removeTree path => tried (IO.FS.removeDirAll path.text)
  | .currentDirectory => tried do return ⟨(← IO.currentDir).toString⟩
  | .randomLetters => randomLetters
  | .variable name => IO.getEnv name
  | .fetch url =>
      return .error ((FetchError.refusal? url).getD (.io url "no connection to the server"))
  | .report line => do (← IO.getStderr).putStrLn line
  | .print bytes => do
      let output ← IO.getStdout
      output.write bytes
      output.flush

/-- Lets the system answer the requests of an action. -/
def perform {α : Type} : Action α → IO α
  | .done result => return result
  | .ask request next => do perform (next (← answer request))

end PackageResolution.Program

open PackageResolution in
/-- Runs the command line with the arguments of the program. -/
def main (arguments : List String) : IO UInt32 := do
  return (← Program.perform (CommandLine.run arguments)).toUInt32
