import NoteForms.Yaml.Token

/-! The tree of a YAML document, from its tokens. Scalars are still text; tags are
resolved against their handles. A text holds at most one document. -/

namespace NoteForms.Yaml

/-! ### Trees -/

/-- What may stand in front of a node: an anchor, which is what aliases refer to,
and a tag. -/
structure Properties (α : Type) where
  anchor : Option α := none
  tag : Option TagText := none
  deriving DecidableEq, Repr

/-- A tree whose anchors are of a type. -/
inductive Node (α : Type) where
  | alias (anchor : α)
  | scalar (props : Properties α) (plain : Bool) (text : List Char)
  | sequence (props : Properties α) (items : List (Node α))
  | mapping (props : Properties α) (entries : List (Node α × Node α))

namespace Node

/-- The name of an anchor. -/
abbrev Name := List Char

/-- The node where none is written. -/
def empty : Node Name := .scalar {} true []

/-- Tag handles and what they stand for. -/
abbrev Handles := List (List Char × TagText)

def defaultHandles : Handles :=
  [(['!'], [some '!']), (['!', '!'], "tag:yaml.org,2002:".toList.map some)]

def resolveTag (handles : Handles) (handle : List Char) (suffix : TagText) : Option TagText :=
  if handle = [] then some suffix else (handles.lookup handle).map (· ++ suffix)

/-! ### Properties -/

/-- An anchor and a tag in either order, each at most once. -/
def properties (handles : Handles) : List Token → Option (Properties Name × List Token)
  | .anchor a :: .tag h s :: ts | .tag h s :: .anchor a :: ts => do
    return (⟨some a, some (← resolveTag handles h s)⟩, ts)
  | .anchor a :: ts => some (⟨some a, none⟩, ts)
  | .tag h s :: ts => do return (⟨none, some (← resolveTag handles h s)⟩, ts)
  | ts => some ({}, ts)

/-! ### Places without a node -/

def endsItem : List Token → Bool
  | .item :: _ | .blockEnd :: _ => true
  | _ => false

def endsIndentlessItem : List Token → Bool
  | .item :: _ | .key :: _ | .value :: _ | .blockEnd :: _ => true
  | _ => false

def endsBlockEntry : List Token → Bool
  | .key :: _ | .value :: _ | .blockEnd :: _ => true
  | _ => false

def endsFlowKey : List Token → Bool
  | .value :: _ | .comma :: _ | .flowMappingEnd :: _ => true
  | _ => false

def endsFlowValue : List Token → Bool
  | .comma :: _ | .flowMappingEnd :: _ => true
  | _ => false

def endsPairKey : List Token → Bool
  | .value :: _ | .comma :: _ | .flowSequenceEnd :: _ => true
  | _ => false

def endsPairValue : List Token → Bool
  | .comma :: _ | .flowSequenceEnd :: _ => true
  | _ => false

/-- Past the comma in front of every item but the first. -/
def passComma (first : Bool) : List Token → Option (List Token)
  | ts => if first then some ts else match ts with
    | .comma :: ts => some ts
    | _ => none

/-! ### Nodes

Every function takes fuel and returns what is left of the tokens. -/

mutual

/-- A node. Only a block admits block collections, only the entry of a mapping a
sequence that is not indented. -/
def read (handles : Handles) (inBlock indentless : Bool) :
    Nat → List Token → Option (Node Name × List Token)
  | 0, _ => none
  | _ + 1, .alias name :: ts => some (.alias name, ts)
  | fuel + 1, ts => do
    let (props, ts) ← properties handles ts
    match ts with
    | .scalar plain text :: ts => return (.scalar props plain text, ts)
    | .flowSequence :: ts => do
      let (items, ts) ← readFlowItems handles true fuel ts
      return (.sequence props items, ts)
    | .flowMapping :: ts => do
      let (entries, ts) ← readFlowEntries handles true fuel ts
      return (.mapping props entries, ts)
    | .blockSequence :: ts =>
      if inBlock then do
        let (items, ts) ← readItems handles fuel ts
        return (.sequence props items, ts)
      else readNothing props (.blockSequence :: ts)
    | .blockMapping :: ts =>
      if inBlock then do
        let (entries, ts) ← readEntries handles fuel ts
        return (.mapping props entries, ts)
      else readNothing props (.blockMapping :: ts)
    | .item :: ts =>
      if indentless then do
        let (items, ts) ← readIndentlessItems handles fuel (.item :: ts)
        return (.sequence props items, ts)
      else readNothing props (.item :: ts)
    | ts => readNothing props ts

/-- Properties without a node are those of an empty scalar. -/
def readNothing (props : Properties Name) (ts : List Token) : Option (Node Name × List Token) :=
  if props = {} then none else some (.scalar props true [], ts)

/-- The items of a block sequence and its end. -/
def readItems (handles : Handles) : Nat → List Token → Option (List (Node Name) × List Token)
  | 0, _ => none
  | fuel + 1, .item :: ts => do
    let (node, ts) ← if endsItem ts then some (empty, ts) else read handles true false fuel ts
    let (nodes, ts) ← readItems handles fuel ts
    return (node :: nodes, ts)
  | _ + 1, .blockEnd :: ts => some ([], ts)
  | _ + 1, _ => none

/-- The items of a sequence that is not indented. -/
def readIndentlessItems (handles : Handles) : Nat → List Token → Option (List (Node Name) × List Token)
  | 0, _ => none
  | fuel + 1, .item :: ts => do
    let (node, ts) ←
      if endsIndentlessItem ts then some (empty, ts) else read handles true false fuel ts
    let (nodes, ts) ← readIndentlessItems handles fuel ts
    return (node :: nodes, ts)
  | _ + 1, ts => some ([], ts)

/-- The entries of a block mapping and its end. -/
def readEntries (handles : Handles) : Nat → List Token → Option (List (Node Name × Node Name) × List Token)
  | 0, _ => none
  | fuel + 1, .key :: ts => do
    let (key, ts) ← if endsBlockEntry ts then some (empty, ts) else read handles true true fuel ts
    let (value, ts) ← match ts with
      | .value :: ts => if endsBlockEntry ts then some (empty, ts) else read handles true true fuel ts
      | ts => some (empty, ts)
    let (entries, ts) ← readEntries handles fuel ts
    return ((key, value) :: entries, ts)
  | _ + 1, .blockEnd :: ts => some ([], ts)
  | _ + 1, _ => none

/-- The items of a flow sequence and its end. A marked key makes an item that is a
mapping of one entry; one without a key node takes the token after it along. -/
def readFlowItems (handles : Handles) (first : Bool) :
    Nat → List Token → Option (List (Node Name) × List Token)
  | 0, _ => none
  | _ + 1, .flowSequenceEnd :: ts => some ([], ts)
  | fuel + 1, ts => do
    match ← passComma first ts with
    | .flowSequenceEnd :: ts => return ([], ts)
    | .key :: ts =>
      let (key, ts) ←
        if endsPairKey ts then some (empty, ts.drop 1) else read handles false false fuel ts
      let (value, ts) ← match ts with
        | .value :: ts => if endsPairValue ts then some (empty, ts) else read handles false false fuel ts
        | ts => some (empty, ts)
      let (nodes, ts) ← readFlowItems handles false fuel ts
      return (.mapping {} [(key, value)] :: nodes, ts)
    | ts =>
      let (node, ts) ← read handles false false fuel ts
      let (nodes, ts) ← readFlowItems handles false fuel ts
      return (node :: nodes, ts)

/-- The entries of a flow mapping and its end. An entry may lack its value. -/
def readFlowEntries (handles : Handles) (first : Bool) :
    Nat → List Token → Option (List (Node Name × Node Name) × List Token)
  | 0, _ => none
  | _ + 1, .flowMappingEnd :: ts => some ([], ts)
  | fuel + 1, ts => do
    match ← passComma first ts with
    | .flowMappingEnd :: ts => return ([], ts)
    | .key :: ts =>
      let (key, ts) ← if endsFlowKey ts then some (empty, ts) else read handles false false fuel ts
      let (value, ts) ← match ts with
        | .value :: ts => if endsFlowValue ts then some (empty, ts) else read handles false false fuel ts
        | ts => some (empty, ts)
      let (entries, ts) ← readFlowEntries handles false fuel ts
      return ((key, value) :: entries, ts)
    | ts =>
      let (key, ts) ← read handles false false fuel ts
      let (entries, ts) ← readFlowEntries handles false fuel ts
      return ((key, empty) :: entries, ts)

end

/-! ### Documents -/

/-- The directives in front of a document: at most one version, which must be
known, and every handle at most once. -/
def directives (versioned : Bool) (handles : Handles) :
    List Token → Option (Handles × List Token)
  | .version major minor :: ts =>
    if versioned ∨ major ≠ 1 ∨ (minor ≠ 1 ∧ minor ≠ 2) then none
    else directives true handles ts
  | .tagHandle h u :: ts =>
    if (handles.lookup h).isSome then none else directives versioned (handles ++ [(h, u)]) ts
  | ts => some (handles, ts)

/-- The node of a document that starts with a marker. -/
def readContent (handles : Handles) (fuel : Nat) (ts : List Token) : Option (Node Name × List Token) :=
  match ts with
  | [] | .version _ _ :: _ | .tagHandle _ _ :: _ | .documentStart :: _ | .documentEnd :: _ =>
    some (empty, ts)
  | ts => read handles true false fuel ts

/-- The node of the only document. -/
def ofTokens (ts : List Token) : Option (Node Name) := do
  let fuel := 4 * ts.length + 4
  let (node, rest) ← match ts with
    | [] => some (empty, [])
    | .version _ _ :: _ | .tagHandle _ _ :: _ | .documentStart :: _ => do
      let (handles, ts) ← directives false [] ts
      match ts with
      | .documentStart :: ts => readContent (handles ++ defaultHandles) fuel ts
      | _ => none
    | ts => read defaultHandles true false fuel ts
  if rest.all (· = .documentEnd) then return node else none

end Node

end NoteForms.Yaml
