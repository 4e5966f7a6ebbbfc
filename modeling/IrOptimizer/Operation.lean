import IrOptimizer.Attribute
import IrOptimizer.Dictionary

/-!
# Operations

An operation has a name, attributes and a region of child operations. All walks
over a tree of operations are in pre-order: an operation comes before its
children, and children come in program order.

`preorder` lists what a walk meets, `editHead` changes names and attributes
and stops at the first refusal, keeping what it changed before.
-/

namespace IrOptimizer

/-- The attributes of an operation, by key. -/
abbrev Attributes := Dictionary Attribute

/-- A named node with attributes and child operations in program order. -/
structure Operation where
  name : String
  attributes : Attributes
  region : List Operation

namespace Operation

instance : Inhabited Operation := ⟨⟨"", .empty, []⟩⟩

/-- An operation without attributes and children. -/
def ofName (name : String) : Operation := ⟨name, .empty, []⟩

/-! ## Equality is decidable -/

mutual

def decEq : (a b : Operation) → Decidable (a = b)
  | ⟨n, as, r⟩, ⟨m, bs, s⟩ =>
    if hn : n = m then
      if ha : as = bs then
        match decEqList r s with
        | isTrue h => isTrue (by rw [hn, ha, h])
        | isFalse h => isFalse (by intro e; cases e; exact h rfl)
      else isFalse (by intro e; cases e; exact ha rfl)
    else isFalse (by intro e; cases e; exact hn rfl)

def decEqList : (as bs : List Operation) → Decidable (as = bs)
  | [], [] => isTrue rfl
  | [], _ :: _ => isFalse nofun
  | _ :: _, [] => isFalse nofun
  | a :: as, b :: bs =>
    match decEq a b with
    | isTrue h =>
      match decEqList as bs with
      | isTrue h' => isTrue (by rw [h, h'])
      | isFalse h' => isFalse (by intro e; cases e; exact h' rfl)
    | isFalse h => isFalse (by intro e; cases e; exact h rfl)

end

instance : DecidableEq Operation := decEq

/-! ## Names -/

/-- The dialect and the kind of a qualified name, which its first dot separates. -/
def splitName (name : String) : Option (String × String) :=
  match name.toList.span (fun c => c ≠ '.') with
  | (dialect, _ :: kind) => some (String.ofList dialect, String.ofList kind)
  | (_, []) => none

/-- The dialect part of the name; empty if the name has no dot. -/
def dialect (op : Operation) : String :=
  ((splitName op.name).map Prod.fst).getD ""

/-- The part of the name behind the dialect; the whole name if it has no dot. -/
def kind (op : Operation) : String :=
  ((splitName op.name).map Prod.snd).getD op.name

/-! ## Attributes of one operation -/

def attr? (op : Operation) (key : String) : Option Attribute :=
  op.attributes.find? key

def setAttr (op : Operation) (key : String) (value : Attribute) : Operation :=
  { op with attributes := op.attributes.insert key value }

def removeAttr (op : Operation) (key : String) : Operation :=
  { op with attributes := op.attributes.erase key }

/-! ## Walks -/

mutual

/-- The operation and everything inside it, in pre-order. -/
def preorder : Operation → List Operation
  | ⟨name, attributes, region⟩ => ⟨name, attributes, region⟩ :: preorderList region

def preorderList : List Operation → List Operation
  | [] => []
  | op :: ops => op.preorder ++ preorderList ops

end

/-- An operation comes before all that is inside it. -/
theorem preorder_eq (op : Operation) : op.preorder = op :: preorderList op.region := by
  cases op; rfl

theorem preorderList_eq_flatMap (ops : List Operation) :
    preorderList ops = ops.flatMap preorder := by
  induction ops with
  | nil => rfl
  | cons op ops ih => simp [preorderList, ih]

/-- What an operation is apart from its region. -/
structure Head where
  name : String
  attributes : Attributes
deriving DecidableEq

mutual

/-- Edits heads in pre-order until a step refuses one. That head, and all that
comes after it, stays as it was; what came before stays edited. -/
def editHead {ε : Type} (step : Head → Except ε Head) : Operation → Operation × Except ε Unit
  | ⟨name, attributes, region⟩ =>
    match step ⟨name, attributes⟩ with
    | .error e => (⟨name, attributes, region⟩, .error e)
    | .ok head =>
      let (region', outcome) := editHeads step region
      (⟨head.name, head.attributes, region'⟩, outcome)

def editHeads {ε : Type} (step : Head → Except ε Head) :
    List Operation → List Operation × Except ε Unit
  | [] => ([], .ok ())
  | op :: ops =>
    match op.editHead step with
    | (op', .error e) => (op' :: ops, .error e)
    | (op', .ok ()) =>
      let (ops', outcome) := editHeads step ops
      (op' :: ops', outcome)

end

mutual

/-- Changes the attributes of the operation and of everything inside it. -/
def mapAttributes (f : Attributes → Attributes) : Operation → Operation
  | ⟨name, attributes, region⟩ => ⟨name, f attributes, mapAttributesList f region⟩

def mapAttributesList (f : Attributes → Attributes) : List Operation → List Operation
  | [] => []
  | op :: ops => op.mapAttributes f :: mapAttributesList f ops

end

/-! ## Places in a tree -/

/-- Applies a change to the operation that a path of child indices leads to. -/
def updateAt (f : Operation → Operation) : List Nat → List Operation → Option (List Operation)
  | [], _ => none
  | [i], ops => (ops[i]?).map fun op => ops.set i (f op)
  | i :: path, ops => do
    let op ← ops[i]?
    let region ← updateAt f path op.region
    pure (ops.set i { op with region })

/-- The operation that a path of child indices leads to. -/
def at? : List Nat → List Operation → Option Operation
  | [], _ => none
  | [i], ops => ops[i]?
  | i :: path, ops => do at? path (← ops[i]?).region

end Operation

end IrOptimizer
