import NoteForms.Decode.Failure
import NoteForms.Json.Equality

/-! Decoders of untyped values: the plain ones, and those of optional values and
of lists. A list reports the failures of all its items. -/

namespace NoteForms.Decode

/-- Reads a value of a type out of an untyped one, or says all that is wrong. -/
structure Decoder (α : Type) where
  decode : Json → Except Failures α

namespace Decoder

variable {α β : Type}

def map (f : α → β) (d : Decoder α) : Decoder β := ⟨fun v => (d.decode v).map f⟩

/-- Accepts the values on which the reading is defined. -/
def ofPartial (expected : String) (read : Json → Option α) : Decoder α :=
  ⟨fun v => match read v with
    | some x => .ok x
    | none => .error (.leaf expected v)⟩

/-! ### Plain values -/

def string : Decoder String := ofPartial "string" Json.asString?

def boolean : Decoder Bool := ofPartial "boolean" fun
  | .bool b => some b
  | _ => none

/-- Whole numbers are decoded as floats. -/
def number : Decoder Double := ofPartial "number" fun
  | .int n => some (.ofInt n)
  | .float x => some x
  | _ => none

def unknown : Decoder Json := ⟨.ok⟩

def record : Decoder Object := ofPartial "object" Json.asObject?

def list : Decoder (List Json) := ofPartial "array" Json.asArray?

/-! ### Optional values and lists -/

def nullable (d : Decoder α) : Decoder (Option α) :=
  ⟨fun v => if v.isNull then .ok none else (d.decode v).map some⟩

end Decoder

variable {α β : Type}

/-- Both results, or the failures of both. -/
def both : Except Failures α → Except Failures β → Except Failures (α × β)
  | .ok x, .ok y => .ok (x, y)
  | .ok _, .error e => .error e
  | .error e, .ok _ => .error e
  | .error e, .error e' => .error (e ++ e')

/-- All results, or the failures of all. -/
def gather : List (Except Failures α) → Except Failures (List α)
  | [] => .ok []
  | r :: rs => (both r (gather rs)).map fun (x, xs) => x :: xs

/-- Decodes the items from the one with number `n` on. -/
def decodeItems (d : Decoder α) (n : Nat) : List Json → List (Except Failures α)
  | [] => []
  | v :: vs => (d.decode v).mapError (.under (.index n)) :: decodeItems d (n + 1) vs

def Decoder.array (d : Decoder α) : Decoder (List α) :=
  ⟨fun v => do gather (decodeItems d 0 (← list.decode v))⟩

end NoteForms.Decode
