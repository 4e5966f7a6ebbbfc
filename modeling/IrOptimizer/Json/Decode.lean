import IrOptimizer.Json.Reader
import IrOptimizer.Module

/-!
# Modules from JSON

A module or an operation is an object of its fields, in any order, or an array
of them in the order of `Module` and `Operation`. Fields that are not known are
skipped; a known one may come once. What is missing is empty, only an operation
needs its name. Of attributes with the same key the last counts.

At most 127 brackets may be open at once, those inside skipped fields apart.
-/

namespace IrOptimizer.Json

open Text Reader

/-- How many brackets may be open at once. -/
def maxLevels : Nat := 127

/-! ## Attributes -/

/-- Reads any value; answers an attribute if it is one. -/
def anyValue (levels : Nat) : Reader (Option Attribute) := do
  match ← peek with
  | none => fail .unfinished
  | some c =>
    if c = 'n' then keywordHere "ull"; return none
    else if c = 't' then keywordHere "rue"; return some (.bool true)
    else if c = 'f' then keywordHere "alse"; return some (.bool false)
    else if c = '-' || isDigit c then
      match ← lexical number with
      | .int n => return (int64? n).map .int
      | .float => return none
    else if c = '"' then return some (.str (← stringHere))
    else if c = '[' then
      match levels with
      | 0 => fail .malformed
      | levels + 1 =>
        skip 1
        let _ ← items (anyValue levels)
        return none
    else if c = '\x7b' then
      match levels with
      | 0 => fail .malformed
      | levels + 1 =>
        skip 1
        fields (fun _ _ => do colon; let _ ← anyValue levels; return ()) ()
        return none
    else fail .malformed

/-- The value of an attribute. -/
def attributeValue (levels : Nat) : Reader Attribute := do
  match ← anyValue levels with
  | some a => return a
  | none => fail .mismatch

/-- The attributes of an operation. -/
def attributes (levels : Nat) : Reader Attributes := do
  if (← peek) = some '\x7b' then
    enter levels fun levels =>
      fields (fun known key => do colon; return known.insert key (← attributeValue levels)) .empty
  else refuse

/-! ## Fields -/

/-- The value of a field that may come once, given what has been read of it before. -/
def newField {α : Type} (known : Option α) (value : Reader α) : Reader (Option α) :=
  if known.isSome then fail .mismatch
  else do
    colon
    return some (← value)

/-- The value of a field that is not known. -/
def otherField : Reader Unit := do
  colon
  skipValue

/-! ## Operations -/

/-- The fields of an operation that have been read so far. -/
structure OperationFields where
  name : Option String
  attributes : Option Attributes
  region : Option (List Operation)

/-- The operation of its fields; without a name there is none. -/
def OperationFields.finish (f : OperationFields) : Reader Operation :=
  match f.name with
  | some name => return ⟨name, f.attributes.getD .empty, f.region.getD []⟩
  | none => fail .mismatch

/-- Reads the field of that key, given how attributes and regions are read. -/
def OperationFields.step (attributes : Reader Attributes) (region : Reader (List Operation))
    (f : OperationFields) (key : String) : Reader OperationFields := do
  if key = "name" then return { f with name := ← newField f.name string }
  else if key = "attributes" then
    return { f with attributes := ← newField f.attributes attributes }
  else if key = "region" then return { f with region := ← newField f.region region }
  else
    otherField
    return f

/-- An item of an array, if another follows. -/
def itemIfAny {α : Type} (first : Bool) (item : Reader α) : Reader (Option α) := do
  if ← hasItem first then return some (← item) else return none

/-- The fields of an operation in their order. -/
def operationItems (attributes : Reader Attributes) (region : Reader (List Operation)) :
    Reader Operation := do
  match ← itemIfAny true string with
  | none => fail .mismatch
  | some name =>
    let attributes ← itemIfAny false attributes
    let region ← itemIfAny false region
    endArray
    return ⟨name, attributes.getD .empty, region.getD []⟩

/-- The fields of an operation by their keys. -/
def operationFields (attributes : Reader Attributes) (region : Reader (List Operation)) :
    Reader Operation := do
  let f ← fieldsFrom (OperationFields.step attributes region) true ⟨none, none, none⟩
  let op ← f.finish
  skip 1
  return op

mutual

/-- An operation, if so many brackets may be opened. -/
def operation (levels : Nat) : Reader Operation := do
  match ← peek with
  | some '[' =>
    match levels with
    | 0 => fail .malformed
    | levels + 1 =>
      skip 1
      operationItems (attributes levels) (region levels)
  | some '\x7b' =>
    match levels with
    | 0 => fail .malformed
    | levels + 1 =>
      skip 1
      operationFields (attributes levels) (region levels)
  | _ => refuse

/-- The operations of a region, if so many brackets may be opened. -/
def region (levels : Nat) : Reader (List Operation) := do
  match ← peek with
  | some '[' =>
    match levels with
    | 0 => fail .malformed
    | levels + 1 =>
      skip 1
      items (operation levels)
  | _ => refuse

end

/-! ## Modules -/

/-- The name of a module; `null` is none. -/
def moduleName : Reader (Option String) := do
  if (← peek) = some 'n' then
    keywordHere "ull"
    return none
  else return some (← string)

/-- The fields of a module that have been read so far. -/
structure ModuleFields where
  name : Option (Option String)
  ops : Option (List Operation)

/-- Reads the field of that key. -/
def ModuleFields.step (levels : Nat) (f : ModuleFields) (key : String) : Reader ModuleFields := do
  if key = "name" then return { f with name := ← newField f.name moduleName }
  else if key = "ops" then return { f with ops := ← newField f.ops (region levels) }
  else
    otherField
    return f

/-- A module. -/
def module (levels : Nat) : Reader Module := do
  match ← peek with
  | some '[' =>
    enter levels fun levels => do
      let name ← itemIfAny true moduleName
      let ops ← itemIfAny false (region levels)
      endArray
      return ⟨name.getD none, ops.getD []⟩
  | some '\x7b' =>
    enter levels fun levels => do
      let f ← fields (ModuleFields.step levels) ⟨none, none⟩
      return ⟨f.name.getD none, f.ops.getD []⟩
  | _ => refuse

/-- The module that a text holds; nothing but blanks may follow it. -/
def parseModule (text : String) : Except Problem Module := do
  let (m, rest) ← module maxLevels (.ofList text.toList)
  let (next, _) ← peek rest
  match next with
  | none => pure m
  | some _ => throw .malformed

end IrOptimizer.Json
