import GoGraft.Yaml.Token

/-! Reading a YAML document from its tokens. Each reader takes the nodes that were anchored before it, and answers
those that are anchored after it and the tokens that are left. -/

namespace GoGraft.Yaml

abbrev Anchors := List (Text × Yaml)

/-- What a tag handle stands for. -/
abbrev Handles := List (Text × Text)

def coreHandles : Handles :=
  [(['!'], ['!']), (['!', '!'], coreTag "")]

def resolveTag? (handles : Handles) (name : TagName) : Option Text :=
  if name.handle.isEmpty then
    some name.suffix
  else
    (handles.lookup name.handle).map (· ++ name.suffix)

/-- What stands before a node. -/
structure Properties where
  anchor : Option Text
  tag : Option Text

def Properties.isEmpty (properties : Properties) : Bool :=
  properties.anchor.isNone && properties.tag.isNone

/-- An anchor and a tag, in either order. -/
def properties? (handles : Handles) : List Token → Option (Properties × List Token)
  | .anchor name :: .tag tag :: rest | .tag tag :: .anchor name :: rest =>
      (resolveTag? handles tag).map fun tag => (⟨some name, some tag⟩, rest)
  | .anchor name :: rest => some (⟨some name, none⟩, rest)
  | .tag tag :: rest => (resolveTag? handles tag).map fun tag => (⟨none, some tag⟩, rest)
  | tokens => some (⟨none, none⟩, tokens)

/-- A node of which nothing is written. -/
def emptyNode (tag : Option Text) : Yaml :=
  .scalar ⟨[], .plain, tag⟩

/-- Where a node may begin. -/
inductive Context where
  | flow
  | block
  /-- In a mapping, where a sequence needs no indentation of its own. -/
  | blockValue
deriving DecidableEq

def endsBlockNode : List Token → Bool
  | .key :: _ | .value :: _ | .blockEnd :: _ => true
  | _ => false

def endsItem : List Token → Bool
  | .entry :: _ | .blockEnd :: _ => true
  | _ => false

def endsFlowNode : List Token → Bool
  | .separator :: _ | .closeSequence :: _ | .closeMapping :: _ => true
  | _ => false

def endsFlowKey : List Token → Bool
  | .value :: _ => true
  | tokens => endsFlowNode tokens

/-- What remains of a flow collection after one of its members. -/
def nextMember? (close : Token) : List Token → Option (List Token)
  | .separator :: rest => some rest
  | token :: rest => if token = close then some (token :: rest) else none
  | [] => none

mutual

def node? (handles : Handles) :
    (bound : Nat) → Context → Anchors → List Token → Option (Yaml × Anchors × List Token)
  | 0, _, _, _ => none
  | _ + 1, _, anchors, .reference name :: rest =>
      (anchors.lookup name).map fun node => (node, anchors, rest)
  | bound + 1, context, anchors, tokens => do
      let (properties, rest) ← properties? handles tokens
      let (node, anchors, rest) ← content? handles bound context properties anchors rest
      match properties.anchor with
      | some name => return (node, (name, node) :: anchors, rest)
      | none => return (node, anchors, rest)

def content? (handles : Handles) :
    (bound : Nat) → Context → Properties → Anchors → List Token →
      Option (Yaml × Anchors × List Token)
  | 0, _, _, _, _ => none
  | bound + 1, context, properties, anchors, tokens =>
      match tokens, context with
      | .entry :: _, .blockValue => do
          let (items, anchors, rest) ← looseItems? handles bound anchors tokens
          return (.sequence properties.tag items, anchors, rest)
      | .scalar text style :: rest, _ =>
          some (.scalar ⟨text, style, properties.tag⟩, anchors, rest)
      | .openSequence :: rest, _ => do
          let (items, anchors, rest) ← flowItems? handles bound anchors rest
          return (.sequence properties.tag items, anchors, rest)
      | .openMapping :: rest, _ => do
          let (entries, anchors, rest) ← flowEntries? handles bound anchors rest
          return (.mapping properties.tag entries, anchors, rest)
      | .blockSequence :: rest, .block | .blockSequence :: rest, .blockValue => do
          let (items, anchors, rest) ← blockItems? handles bound anchors rest
          return (.sequence properties.tag items, anchors, rest)
      | .blockMapping :: rest, .block | .blockMapping :: rest, .blockValue => do
          let (entries, anchors, rest) ← blockEntries? handles bound anchors rest
          return (.mapping properties.tag entries, anchors, rest)
      | _, _ => if properties.isEmpty then none else some (emptyNode properties.tag, anchors, tokens)

/-- A node, or nothing where the tokens show that there is none. -/
def nodeOrEmpty? (handles : Handles) :
    (bound : Nat) → Context → (absent : Bool) → Anchors → List Token →
      Option (Yaml × Anchors × List Token)
  | 0, _, _, _, _ => none
  | bound + 1, context, absent, anchors, tokens =>
      if absent then some (emptyNode none, anchors, tokens) else node? handles bound context anchors tokens

/-- The items of a block sequence, to its end. -/
def blockItems? (handles : Handles) :
    (bound : Nat) → Anchors → List Token → Option (List Yaml × Anchors × List Token)
  | 0, _, _ => none
  | bound + 1, anchors, .entry :: rest => do
      let (item, anchors, rest) ← nodeOrEmpty? handles bound .block (endsItem rest) anchors rest
      let (items, anchors, rest) ← blockItems? handles bound anchors rest
      return (item :: items, anchors, rest)
  | _ + 1, anchors, .blockEnd :: rest => some ([], anchors, rest)
  | _ + 1, _, _ => none

/-- The items of a sequence without indentation of its own. -/
def looseItems? (handles : Handles) :
    (bound : Nat) → Anchors → List Token → Option (List Yaml × Anchors × List Token)
  | 0, _, _ => none
  | bound + 1, anchors, .entry :: rest => do
      let absent := endsItem rest || endsBlockNode rest
      let (item, anchors, rest) ← nodeOrEmpty? handles bound .block absent anchors rest
      let (items, anchors, rest) ← looseItems? handles bound anchors rest
      return (item :: items, anchors, rest)
  | _ + 1, anchors, tokens => some ([], anchors, tokens)

/-- The entries of a block mapping, to its end. -/
def blockEntries? (handles : Handles) :
    (bound : Nat) → Anchors → List Token → Option (List (Yaml × Yaml) × Anchors × List Token)
  | 0, _, _ => none
  | bound + 1, anchors, .key :: rest => do
      let (key, anchors, rest) ←
        nodeOrEmpty? handles bound .blockValue (endsBlockNode rest) anchors rest
      let (value, anchors, rest) ← blockMember? handles bound anchors rest
      let (entries, anchors, rest) ← blockEntries? handles bound anchors rest
      return ((key, value) :: entries, anchors, rest)
  | _ + 1, anchors, .blockEnd :: rest => some ([], anchors, rest)
  | _ + 1, _, _ => none

/-- The value after a key of a block mapping. -/
def blockMember? (handles : Handles) :
    (bound : Nat) → Anchors → List Token → Option (Yaml × Anchors × List Token)
  | 0, _, _ => none
  | bound + 1, anchors, .value :: rest =>
      nodeOrEmpty? handles bound .blockValue (endsBlockNode rest) anchors rest
  | _ + 1, anchors, tokens => some (emptyNode none, anchors, tokens)

/-- The items of a flow sequence, to its end. An item may be a single entry of a mapping. -/
def flowItems? (handles : Handles) :
    (bound : Nat) → Anchors → List Token → Option (List Yaml × Anchors × List Token)
  | 0, _, _ => none
  | _ + 1, anchors, .closeSequence :: rest => some ([], anchors, rest)
  | bound + 1, anchors, .key :: rest => do
      let (key, anchors, rest) ← nodeOrEmpty? handles bound .flow (endsFlowKey rest) anchors rest
      let (value, anchors, rest) ← flowMember? handles bound anchors rest
      let rest ← nextMember? .closeSequence rest
      let (items, anchors, rest) ← flowItems? handles bound anchors rest
      return (.mapping none [(key, value)] :: items, anchors, rest)
  | bound + 1, anchors, tokens => do
      let (item, anchors, rest) ← node? handles bound .flow anchors tokens
      let rest ← nextMember? .closeSequence rest
      let (items, anchors, rest) ← flowItems? handles bound anchors rest
      return (item :: items, anchors, rest)

/-- The entries of a flow mapping, to its end. A key may lack its value. -/
def flowEntries? (handles : Handles) :
    (bound : Nat) → Anchors → List Token → Option (List (Yaml × Yaml) × Anchors × List Token)
  | 0, _, _ => none
  | _ + 1, anchors, .closeMapping :: rest => some ([], anchors, rest)
  | bound + 1, anchors, .key :: rest => do
      let (key, anchors, rest) ← nodeOrEmpty? handles bound .flow (endsFlowKey rest) anchors rest
      let (value, anchors, rest) ← flowMember? handles bound anchors rest
      let rest ← nextMember? .closeMapping rest
      let (entries, anchors, rest) ← flowEntries? handles bound anchors rest
      return ((key, value) :: entries, anchors, rest)
  | bound + 1, anchors, tokens => do
      let (key, anchors, rest) ← node? handles bound .flow anchors tokens
      let rest ← nextMember? .closeMapping rest
      let (entries, anchors, rest) ← flowEntries? handles bound anchors rest
      return ((key, emptyNode none) :: entries, anchors, rest)

/-- The value after a key of a flow collection. -/
def flowMember? (handles : Handles) :
    (bound : Nat) → Anchors → List Token → Option (Yaml × Anchors × List Token)
  | 0, _, _ => none
  | bound + 1, anchors, .value :: rest =>
      nodeOrEmpty? handles bound .flow (endsFlowNode rest) anchors rest
  | _ + 1, anchors, tokens => some (emptyNode none, anchors, tokens)

end

/-- The directives before a document: at most one version, and handles that differ. -/
def directives? : (versioned : Bool) → Handles → List Token → Option (Handles × List Token)
  | versioned, handles, .version major minor :: rest =>
      if !versioned && major = 1 && (minor = 1 || minor = 2) then
        directives? true handles rest
      else
        none
  | versioned, handles, .tagHandle handle content :: rest =>
      if (handles.lookup handle).isSome then
        none
      else
        directives? versioned ((handle, content) :: handles) rest
  | _, handles, tokens => some (handles, tokens)

/-- Handles that a document declares come before the ones that need no declaration. -/
def documentHandles (declared : Handles) : Handles :=
  declared ++ coreHandles

def isDocumentToken : Token → Bool
  | .version .. | .tagHandle .. | .documentStart | .documentEnd => true
  | _ => false

/-- A number of steps in which every token can be read. -/
def stepBound (tokens : List Token) : Nat :=
  4 * tokens.length + 4

/-- The node of a document, and what follows it. -/
def document? (tokens : List Token) : Option (Yaml × List Token) :=
  match tokens with
  | [] => none
  | first :: _ =>
      if first matches .version .. | .tagHandle .. | .documentStart then do
        let (declared, rest) ← directives? false [] tokens
        match rest with
        | .documentStart :: rest =>
            if rest.head?.all isDocumentToken then
              return (emptyNode none, rest)
            else
              let (node, _, rest) ←
                node? (documentHandles declared) (stepBound rest) .block [] rest
              return (node, rest)
        | _ => none
      else do
        let (node, _, rest) ← node? coreHandles (stepBound tokens) .block [] tokens
        return (node, rest)

/-- Reads a text of one document at most. A text without a document has no node. -/
def read? (t : Text) : Option (Option Yaml) := do
  let tokens ← tokens? t
  if tokens.isEmpty then
    return none
  else
    let (node, rest) ← document? tokens
    if rest.all (· = .documentEnd) then return some node else none

end GoGraft.Yaml
