import IrOptimizer.Module

/-!
# Dialects and the context

A dialect is a name and the set of kinds it defines. The registry holds dialects
by name and never changes one that it holds. An operation name is legal if its
part before the first dot names a registered dialect that defines the rest.

The context is a registry together with whether operations outside it are allowed.
-/

namespace IrOptimizer

/-- A vocabulary: operations `name.kind` for each of the kinds. -/
structure Dialect where
  name : String
  kinds : NameSet
deriving DecidableEq

namespace Dialect

def ofList (name : String) (kinds : List String) : Dialect :=
  ⟨name, NameSet.ofList kinds⟩

def defines (d : Dialect) (kind : String) : Bool :=
  d.kinds.contains kind

end Dialect

/-- Why a dialect is refused, or a module rejected. -/
inductive DialectError where
  | emptyName
  | conflictingDefinition (name : String)
  | unknownOperation (name : String)
deriving DecidableEq

namespace DialectError

def message : DialectError → String
  | emptyName => "dialect name cannot be empty"
  | conflictingDefinition name =>
    "dialect `" ++ name ++ "` is already registered with a different definition"
  | unknownOperation name =>
    "operation `" ++ name ++ "` does not belong to a registered dialect"

end DialectError

/-- The registered dialects by name. -/
structure DialectRegistry where
  dialects : Dictionary Dialect
deriving DecidableEq

namespace DialectRegistry

def empty : DialectRegistry := ⟨.empty⟩

def find? (r : DialectRegistry) (name : String) : Option Dialect :=
  r.dialects.find? name

/-- Adds a dialect. To register the same definition again changes nothing; a
different one under a registered name is refused. -/
def register (r : DialectRegistry) (d : Dialect) : Except DialectError DialectRegistry :=
  if d.name.isEmpty then .error .emptyName
  else
    match r.find? d.name with
    | some known => if known = d then .ok r else .error (.conflictingDefinition d.name)
    | none => .ok ⟨r.dialects.insert d.name d⟩

/-- Adds a dialect to a registry that changes in place. -/
def registerInPlace (d : Dialect) : ExceptT DialectError (StateM DialectRegistry) Unit := do
  if d.name.isEmpty then throw .emptyName
  let known? := (← get).find? d.name
  if known? = none then modify fun r => ⟨r.dialects.insert d.name d⟩
  else if known? ≠ some d then throw (.conflictingDefinition d.name)

/-- What a call on a registry in place answers, and the registry that it leaves, also
where it is refused. -/
def call (r : DialectRegistry) (d : Dialect) : Except DialectError Unit × DialectRegistry :=
  (registerInPlace d).run.run r

/-- Whether an operation name belongs to a registered dialect. -/
def isLegal (r : DialectRegistry) (name : String) : Bool :=
  match Operation.splitName name with
  | some (dialect, kind) => (r.find? dialect).any (·.defines kind)
  | none => false

/-- The names of the registered dialects in increasing order. -/
def names (r : DialectRegistry) : List String := r.dialects.keys

end DialectRegistry

/-- What modules are checked against. -/
structure Context where
  dialects : DialectRegistry
  allowsUnregistered : Bool

namespace Context

/-- The context that knows no dialect. -/
def empty : Context := ⟨.empty, false⟩

def register (c : Context) (d : Dialect) : Except DialectError Context := do
  pure { c with dialects := ← c.dialects.register d }

/-- Accepts a module whose operations are all legal; otherwise names the first
that is not, in pre-order. A context that allows unregistered dialects accepts
every module. -/
def validate (c : Context) (m : Module) : Except DialectError Unit :=
  if c.allowsUnregistered then .ok ()
  else
    match m.preorder.find? (fun op => !c.dialects.isLegal op.name) with
    | some op => .error (.unknownOperation op.name)
    | none => .ok ()

end Context

end IrOptimizer
