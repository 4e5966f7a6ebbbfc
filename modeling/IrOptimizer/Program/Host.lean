import IrOptimizer.Stream

/-!
# Hosts

A host is what the program runs on: files, the standard streams, and whatever
monad they live in. The program is written against this interface, so that it
runs on a real system and on a file tree held in memory alike.

Which arguments and which settings documents are refused is decided here, but
what the program prints of them are not its own words. These are given to it, too
(`Wording`).
-/

namespace IrOptimizer

/-- What the program may ask for. Failures are reasons in words. -/
structure Host (m : Type → Type) where
  /-- Opens a file, whose content may then be taken once. -/
  openFile : String → m (Except String (m Stream))
  /-- Takes the whole standard input. -/
  standardInput : m Stream
  /-- Makes a file empty, or creates it, and answers how to write to it. -/
  createFile : String → m (Except String (String → m (Except String Unit)))
  writeOutput : String → m (Except String Unit)
  writeError : String → m Unit

/-- What is said of inputs that are refused. It may be of any length and over several
lines, and may quote what is refused. -/
structure Wording where
  /-- All that is printed when these arguments are refused. -/
  arguments : List String → String
  /-- Why a text is no settings document. -/
  document : String → String

/-- Inputs are refused without a word. -/
def Wording.silent : Wording := ⟨fun _ => "", fun _ => ""⟩

end IrOptimizer
