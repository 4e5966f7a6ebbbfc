import IrOptimizer.Generic.Reading
import IrOptimizer.Stream
import IrOptimizer.Toy

/-!
# Frontends

A frontend turns a source text into a module. Frontends are registered under
tags; a later registration of a tag replaces the earlier one. What a frontend
reads counts only if it is valid in the context.
-/

namespace IrOptimizer

/-- A reader of one source form. -/
abbrev Frontend := String → Except SyntaxError Module

/-- The registered frontends by tag. -/
abbrev FrontendRegistry := Dictionary Frontend

/-- Why a source does not become a valid module. -/
inductive FrontendError where
  | unknownFrontend (tag : String)
  | unreadable (reason : String)
  | badSource (e : SyntaxError)
  | invalid (e : DialectError)
deriving DecidableEq

namespace FrontendError

def message : FrontendError → String
  | unknownFrontend tag => "no frontend registered for format `" ++ tag ++ "`"
  | unreadable reason => "failed to read input: " ++ reason
  | badSource e => e.message
  | invalid e => e.message

/-- The same error in a text with so many more lines before it. -/
def down (lines : Nat) : FrontendError → FrontendError
  | badSource e => badSource (e.down lines)
  | e => e

end FrontendError

/-- Reads a source and checks the module against the context. -/
def Frontend.load (frontend : Frontend) (context : Context) (source : String) :
    Except FrontendError Module :=
  match frontend source with
  | .error e => .error (.badSource e)
  | .ok m =>
    match context.validate m with
    | .error e => .error (.invalid e)
    | .ok () => .ok m

namespace FrontendRegistry

/-- The generic form under `ir` and `mlir`, literal lists under `toy` and `txt`. -/
def standard : FrontendRegistry :=
  .ofList [("ir", Generic.parse), ("mlir", Generic.parse), ("toy", Toy.parse), ("txt", Toy.parse)]

def resolve (r : FrontendRegistry) (tag : String) : Except FrontendError Frontend :=
  match r.find? tag with
  | some frontend => .ok frontend
  | none => .error (.unknownFrontend tag)

/-- Reads a text with the frontend of a tag. -/
def parse (r : FrontendRegistry) (context : Context) (tag source : String) :
    Except FrontendError Module := do
  (← r.resolve tag).load context source

/-- Reads a stream with the frontend of a tag, which has to be known first. -/
def read (r : FrontendRegistry) (context : Context) (tag : String) (input : Stream) :
    Taking (Except FrontendError Module) :=
  match r.resolve tag with
  | .error e => pure (.error e)
  | .ok frontend => do
    match ← input.read with
    | .error reason => pure (.error (.unreadable reason))
    | .ok source => pure (frontend.load context source)

end FrontendRegistry

end IrOptimizer
