import IrOptimizer.Program.Command

/-!
# The executable

The command on the files and standard streams of the system. What it refuses to
read it refuses without giving reasons.
-/

namespace IrOptimizer

/-- The environment variable that names a settings document. -/
def settingsVariable : String := "CHOCO_OPT_CONFIG"

/-- A failure of the system in words, with the number of its cause if it has one. -/
def systemReason (e : IO.Error) : String :=
  match e with
  | .alreadyExists _ code details | .otherError code details | .resourceBusy code details
  | .resourceVanished code details | .unsupportedOperation code details
  | .hardwareFault code details | .unsatisfiedConstraints code details
  | .illegalOperation code details | .protocolError code details | .timeExpired code details
  | .interrupted _ code details | .noFileOrDirectory _ code details
  | .invalidArgument _ code details | .permissionDenied _ code details
  | .resourceExhausted _ code details | .inappropriateType _ code details
  | .noSuchThing _ code details => details ++ " (os error " ++ toString code ++ ")"
  | .unexpectedEof | .userError _ => toString e

/-- Runs an action and tells its failure in words. -/
def attempt {α : Type} (action : IO α) : IO (Except String α) := do
  try
    return .ok (← action)
  catch e =>
    return .error (systemReason e)

/-- Everything that a stream still holds. -/
partial def drain (s : IO.FS.Stream) (taken : ByteArray) : IO ByteArray := do
  let part ← s.read 65536
  if part.isEmpty then return taken else drain s (taken ++ part)

/-- The bytes that an action takes, as a stream. -/
def taken (action : IO ByteArray) : IO Stream := do
  match ← attempt action with
  | .ok bytes => return ⟨bytes, none⟩
  | .error reason => return ⟨.empty, some reason⟩

/-- The files and standard streams of the system. -/
def systemHost : Host IO where
  openFile path := attempt do
    let handle ← IO.FS.Handle.mk path .read
    return taken handle.readBinToEnd
  standardInput := taken do drain (← IO.getStdin) .empty
  createFile path := attempt do
    let handle ← IO.FS.Handle.mk path .write
    return fun text => attempt do
      handle.write text.toUTF8
      handle.flush
  writeOutput text := attempt do
    let out ← IO.getStdout
    out.putStr text
    out.flush
  writeError text := do
    let err ← IO.getStderr
    err.putStr text

end IrOptimizer

def main (args : List String) : IO UInt32 := do
  let environment ← IO.getEnv IrOptimizer.settingsVariable
  IrOptimizer.Command.run .silent IrOptimizer.systemHost args environment
