import NoteForms.Yaml.Token.Lexer
import NoteForms.Yaml.Anchor
import NoteForms.Yaml.Scalar

/-! Reading a YAML text as a value. Keys are the texts of scalars, a repeated key
takes its last value, and an alias stands for the node of its anchor. Collections
may be nested 128 deep; aliases may be followed a hundred times for every scalar,
start and end of the text. -/

namespace NoteForms.Yaml

/-- The anchored nodes, and how often aliases may be followed. -/
structure Document where
  anchors : List (Nat × Node Nat)
  limit : Nat

namespace Document

/-- The node itself, or the one that an alias stands for. -/
def follow (d : Document) (v : Node Nat) (jumps : Nat) : Option (Node Nat × Nat) :=
  match v with
  | .alias n =>
    if jumps < d.limit then (d.anchors.lookup n).map fun v => (v, jumps + 1) else none
  | v => some (v, jumps)

/-- The text of a key. -/
def key (d : Document) (v : Node Nat) (jumps : Nat) : Option (String × Nat) :=
  match d.follow v jumps with
  | some (.scalar _ _ text, jumps) => some (String.ofList text, jumps)
  | _ => none

/-- How the items and values of a collection are read. -/
abbrev Inner := Node Nat → Nat → Option (Json × Nat)

def items (inner : Inner) : List (Node Nat) → Nat → Option (List Json × Nat)
  | [], jumps => some ([], jumps)
  | v :: vs, jumps => do
    let (x, jumps) ← inner v jumps
    let (xs, jumps) ← items inner vs jumps
    return (x :: xs, jumps)

/-- The entries, stored over those already read. -/
def entries (d : Document) (inner : Inner) :
    List (Node Nat × Node Nat) → Object → Nat → Option (Object × Nat)
  | [], read, jumps => some (read, jumps)
  | (k, v) :: es, read, jumps => do
    let (k, jumps) ← d.key k jumps
    let (x, jumps) ← inner v jumps
    entries d inner es (read.put k x) jumps

/-- A node, whose collections are read by `inner`; none where they are too deep. A
collection with a local tag is a fault. -/
def content (d : Document) (inner : Option Inner) (v : Node Nat) (jumps : Nat) :
    Option (Json × Nat) := do
  let (v, jumps) ← d.follow v jumps
  match v, inner with
  | .scalar props isPlain text, _ => return (← Scalar.value props.tag isPlain text, jumps)
  | .sequence props vs, some inner =>
    if props.tag.any Scalar.isLocal then none
    else
      let (xs, jumps) ← items inner vs jumps
      return (.arr xs, jumps)
  | .mapping props es, some inner =>
    if props.tag.any Scalar.isLocal then none
    else
      let (fields, jumps) ← d.entries inner es [] jumps
      return (.obj fields, jumps)
  | _, _ => none

/-- A node in which collections may be nested so deep. -/
def value (d : Document) : Nat → Inner
  | 0 => d.content none
  | depth + 1 => d.content (some (d.value depth))

end Document

/-- The value of a text; none when the text has faults. -/
def read (text : String) : Option Json := do
  let tree ← Node.ofTokens (← tokens text.toList)
  let (tree, _) ← tree.numbered {}
  let (v, _) ← Document.value ⟨tree.anchored [], 100 * tree.size⟩ 128 tree 0
  return v

end NoteForms.Yaml
