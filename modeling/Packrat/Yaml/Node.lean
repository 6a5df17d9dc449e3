import Packrat.Yaml.Token

namespace Packrat.Yaml

inductive Node : Type
  | scalar (tag : Option String) (text : String) (plain : Bool) : Node
  | sequence (tag : Option String) (items : List Node) : Node
  | mapping (tag : Option String) (pairs : List (Node × Node)) : Node
  | alias (anchor : Nat) : Node
  deriving Inhabited

def Node.absent : Node := .scalar none "" true

structure Anchored : Type where
  anchor : Nat
  order : Nat
  node : Node

structure Assembly : Type where
  tokens : List Token
  handles : List (String × String) := [("!", "!"), ("!!", "tag:yaml.org,2002:")]
  names : List (String × Nat) := []
  anchored : List Anchored := []
  started : Nat := 0

abbrev Assemble (α : Type) : Type := StateT Assembly Option α

namespace Assemble

def peek : Assemble (Option Token) := do return (← get).tokens.head?

def skip : Assemble Unit := modify fun a => { a with tokens := a.tokens.drop 1 }

/-- Gives a name the next number, which is the number of names there are; a name that is given
again takes the new number. -/
def openAnchor (name : Option String) : Assemble (Option (Nat × Nat)) := do
  match name with
  | none => return none
  | some name =>
    let a ← get
    let number := a.names.length
    let names :=
      if (a.names.lookup name).isSome then
        a.names.map fun (other, n) => if other = name then (other, number) else (other, n)
      else a.names ++ [(name, number)]
    set { a with names := names, started := a.started + 1 }
    return some (number, a.started)

def closeAnchor (slot : Option (Nat × Nat)) (node : Node) : Assemble Node := do
  if let some (anchor, order) := slot then
    modify fun a => { a with anchored := ⟨anchor, order, node⟩ :: a.anchored }
  return node

def resolveTag (handle suffix : String) : Assemble String := do
  if handle.isEmpty then return suffix
  match (← get).handles.lookup handle with
  | some stem => return stem ++ suffix
  | none => failure

def readAnchor : Assemble (Option String) := do
  match ← peek with
  | some (.anchor name) => skip; return some name
  | _ => return none

def readTag : Assemble (Option String) := do
  match ← peek with
  | some (.tag handle suffix) => skip; return some (← resolveTag handle suffix)
  | _ => return none

def readProperties : Assemble (Option String × Option String) := do
  match ← readAnchor with
  | some name => return (some name, ← readTag)
  | none =>
    let tag ← readTag
    if tag.isNone then return (none, none)
    return (← readAnchor, tag)

def endsBlockValue : Option Token → Bool
  | some .key | some .value | some .blockEnd => true
  | _ => false

def bare (anchor tag : Option String) : Assemble Node := do
  if anchor.isNone && tag.isNone then failure
  let slot ← openAnchor anchor
  closeAnchor slot (.scalar tag "" true)

mutual

/-- A node. In `block` context it may be an indented collection, and as the value of a mapping a
sequence without indentation of its own. -/
def node : Nat → Bool → Bool → Assemble Node
  | 0, _, _ => failure
  | fuel + 1, block, indentless => do
    if let some (.alias name) ← peek then
      skip
      match (← get).names.lookup name with
      | some anchor => return .alias anchor
      | none => failure
    let (anchor, tag) ← readProperties
    match ← peek with
    | some .entry =>
      if indentless then
        let slot ← openAnchor anchor
        closeAnchor slot (.sequence tag (← looseItems fuel))
      else bare anchor tag
    | some (.scalar text plain) =>
      skip
      let slot ← openAnchor anchor
      closeAnchor slot (.scalar (if tag = some "!" then none else tag) text plain)
    | some .openBracket =>
      skip
      let slot ← openAnchor anchor
      closeAnchor slot (.sequence tag (← flowItems fuel true))
    | some .openBrace =>
      skip
      let slot ← openAnchor anchor
      closeAnchor slot (.mapping tag (← flowPairs fuel true))
    | some .blockSequence =>
      if block then
        skip
        let slot ← openAnchor anchor
        closeAnchor slot (.sequence tag (← blockItems fuel))
      else bare anchor tag
    | some .blockMapping =>
      if block then
        skip
        let slot ← openAnchor anchor
        closeAnchor slot (.mapping tag (← blockPairs fuel))
      else bare anchor tag
    | _ => bare anchor tag

def blockItems : Nat → Assemble (List Node)
  | 0 => failure
  | fuel + 1 => do
    match ← peek with
    | some .entry =>
      skip
      let item ← match ← peek with
        | some .entry | some .blockEnd => pure Node.absent
        | _ => node fuel true false
      return item :: (← blockItems fuel)
    | some .blockEnd => skip; return []
    | _ => failure

def looseItems : Nat → Assemble (List Node)
  | 0 => failure
  | fuel + 1 => do
    match ← peek with
    | some .entry =>
      skip
      let next ← peek
      let item ←
        if next = some .entry || endsBlockValue next then pure Node.absent
        else node fuel true false
      return item :: (← looseItems fuel)
    | _ => return []

def blockPairs : Nat → Assemble (List (Node × Node))
  | 0 => failure
  | fuel + 1 => do
    match ← peek with
    | some .key =>
      skip
      let key ← if endsBlockValue (← peek) then pure Node.absent else node fuel true true
      let value ← match ← peek with
        | some .value =>
          skip
          if endsBlockValue (← peek) then pure Node.absent else node fuel true true
        | _ => pure Node.absent
      return (key, value) :: (← blockPairs fuel)
    | some .blockEnd => skip; return []
    | _ => failure

def flowItems : Nat → Bool → Assemble (List Node)
  | 0, _ => failure
  | fuel + 1, first => do
    if (← peek) = some .closeBracket then
      skip
      return []
    if !first then
      if (← peek) ≠ some .comma then failure
      skip
    match ← peek with
    | some .closeBracket => skip; return []
    | some .key =>
      skip
      let key ← match ← peek with
        | some .value | some .comma | some .closeBracket => skip; pure Node.absent
        | _ => node fuel false false
      let value ← match ← peek with
        | some .value =>
          skip
          match ← peek with
          | some .comma | some .closeBracket => pure Node.absent
          | _ => node fuel false false
        | _ => pure Node.absent
      return .mapping none [(key, value)] :: (← flowItems fuel false)
    | _ =>
      let item ← node fuel false false
      return item :: (← flowItems fuel false)

def flowPairs : Nat → Bool → Assemble (List (Node × Node))
  | 0, _ => failure
  | fuel + 1, first => do
    if (← peek) = some .closeBrace then
      skip
      return []
    if !first then
      if (← peek) ≠ some .comma then failure
      skip
    match ← peek with
    | some .closeBrace => skip; return []
    | some .key =>
      skip
      let key ← match ← peek with
        | some .value | some .comma | some .closeBrace => pure Node.absent
        | _ => node fuel false false
      let value ← match ← peek with
        | some .value =>
          skip
          match ← peek with
          | some .comma | some .closeBrace => pure Node.absent
          | _ => node fuel false false
        | _ => pure Node.absent
      return (key, value) :: (← flowPairs fuel false)
    | _ =>
      let key ← node fuel false false
      return (key, .absent) :: (← flowPairs fuel false)

end

/-- Directives before a document. The version stands at most once and is 1.1 or 1.2, and no handle
stands twice. -/
def readDirectives : Nat → Bool → List (String × String) → Assemble Unit
  | 0, _, _ => failure
  | fuel + 1, versioned, handles => do
    match ← peek with
    | some (.version major minor) =>
      if versioned || major ≠ 1 || (minor ≠ 1 && minor ≠ 2) then failure
      skip
      readDirectives fuel true handles
    | some (.tagShorthand handle stem) =>
      if (handles.lookup handle).isSome then failure
      skip
      readDirectives fuel versioned (handles ++ [(handle, stem)])
    | _ => modify fun a => { a with handles := handles ++ a.handles }

def document (fuel : Nat) : Assemble (Option Node) := do
  let root ← match ← peek with
    | none => pure none
    | some (.version _ _) | some (.tagShorthand _ _) | some .documentStart =>
      readDirectives fuel false []
      if (← peek) ≠ some .documentStart then failure
      skip
      match ← peek with
      | none | some .documentStart | some .documentEnd | some (.version _ _)
      | some (.tagShorthand _ _) => pure (some Node.absent)
      | _ => pure (some (← node fuel true false))
    | _ => pure (some (← node fuel true false))
  let rest := (← get).tokens.dropWhile (· = .documentEnd)
  if rest.isEmpty then return root else failure

end Assemble

structure Document : Type where
  root : Node
  anchored : List Anchored

namespace Document

/-- The node that an alias stands for: of those with its number the one that starts last. -/
def target? (d : Document) (anchor : Nat) : Option Node :=
  let candidates := d.anchored.filter (·.anchor == anchor)
  let last := candidates.foldl (fun n a => max n a.order) 0
  (candidates.find? (·.order == last)).map (·.node)

def resolve? (d : Document) : Node → Option Node
  | .alias anchor => d.target? anchor
  | n => some n

def read? (text : List Char) : Option Document := do
  let tokens ← Token.scan? text
  let start : Assembly := { tokens := tokens }
  let (root, a) ← (Assemble.document (3 * tokens.length + 8)).run start
  some ⟨root.getD .absent, a.anchored⟩

end Document

end Packrat.Yaml
