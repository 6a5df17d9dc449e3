import Packrat.Pattern.Lexical

namespace Packrat.Pattern

structure SetItem : Type where
  set : CharSet
  depth : Nat := 0

namespace SetItem

def union : List SetItem → SetItem
  | [] => ⟨.none, 0⟩
  | [x] => x
  | xs => ⟨.unions (xs.map (·.set)), (xs.map (·.depth)).foldl max 0 + 1⟩

end SetItem

inductive SetOp : Type
  | inter : SetOp
  | diff : SetOp
  | symm : SetOp

namespace SetOp

def apply (op : SetOp) (fold : Bool) (x y : SetItem) : SetItem :=
  let s := x.set.close fold false
  let t := y.set.close fold false
  let set := match op with
    | inter => CharSet.inter s t
    | diff => CharSet.diff s t
    | symm => CharSet.symm s t
  ⟨set, max x.depth y.depth + 1⟩

end SetOp

inductive SetFrame : Type
  | bracket (outer : List SetItem) (negated : Bool) : SetFrame
  | operator (op : SetOp) (left : SetItem) : SetFrame

structure SetState : Type where
  members : List SetItem
  frames : List SetFrame

namespace SetState

def push (st : SetState) (x : SetItem) : SetState := { st with members := x :: st.members }

def operand (f : Flags) (st : SetState) : SetItem × List SetFrame :=
  let x := SetItem.union st.members.reverse
  match st.frames with
  | .operator op left :: frames => (op.apply f.foldCase left x, frames)
  | frames => (x, frames)

def operator (f : Flags) (op : SetOp) (st : SetState) : SetState :=
  let (x, frames) := st.operand f
  ⟨[], .operator op x :: frames⟩

def close (f : Flags) (st : SetState) : SetItem ⊕ SetState :=
  let (x, frames) := st.operand f
  match frames with
  | .bracket outer negated :: frames =>
    let x : SetItem := ⟨x.set.close f.foldCase negated, x.depth + 1⟩
    if frames.isEmpty then .inl x else .inr ⟨x :: outer, frames⟩
  | _ => .inl x

end SetState

/-- Hyphens at the start of a set stand for themselves. -/
def readHyphens (f : Flags) : Nat → List Char → List SetItem × List Char
  | fuel + 1, '-' :: rest =>
    let (xs, rest) := readHyphens f fuel (f.skip rest)
    (⟨.single '-', 0⟩ :: xs, rest)
  | _, cs => ([], cs)

def readNegation (f : Flags) : List Char → Bool × List Char
  | '^' :: rest => (true, f.skip rest)
  | cs => (false, cs)

/-- A bracket at the start of a set stands for itself, unless hyphens come before it. -/
def readBracket (f : Flags) : List SetItem → List Char → List SetItem × List Char
  | [], ']' :: rest => ([⟨.single ']', 0⟩], f.skip rest)
  | hyphens, cs => (hyphens, cs)

def openSet (f : Flags) (st : SetState) (cs : List Char) : Except Fault (SetState × List Char) :=
  let (negated, cs) := readNegation f (f.skip cs)
  let (hyphens, cs) := readHyphens f cs.length cs
  let (members, cs) := readBracket f hyphens cs
  if cs.isEmpty then throw .setUnclosed
  else pure (⟨members, .bracket st.members negated :: st.frames⟩, cs)

def readSetName? (f : Flags) (negated : Bool) (cs : List Char) : Option (SetItem × List Char) :=
  match cs.dropWhile (· != ':') with
  | ':' :: ']' :: rest =>
    (CharSet.named? (String.ofList (cs.takeWhile (· != ':')))).map fun s =>
      (⟨s.close f.foldCase negated, 0⟩, rest)
  | _ => none

def readNamedSet? (f : Flags) : List Char → Option (SetItem × List Char)
  | ':' :: '^' :: rest => readSetName? f true rest
  | ':' :: rest => readSetName? f false rest
  | _ => none

def readMember (f : Flags) : List Char → Except Fault (Primitive × List Char)
  | [] => throw .setUnclosed
  | '\\' :: rest => readEscape f rest
  | c :: rest => pure (.char c, rest)

def Primitive.toSetItem : Primitive → Except Fault SetItem
  | .char c => pure ⟨.single c, 0⟩
  | .set s => pure ⟨s, 0⟩
  | .look _ => throw .setMember

def Primitive.toRangeEnd : Primitive → Except Fault Char
  | .char c => pure c
  | _ => throw .setRange

def readRangeEnd (f : Flags) (first : Primitive) (cs : List Char) :
    Except Fault (SetItem × List Char) :=
  let cs := f.skip cs
  if cs.isEmpty then throw .setUnclosed
  else do
    let (last, cs) ← readMember f cs
    let a ← first.toRangeEnd
    let b ← last.toRangeEnd
    if b < a then throw .setRange else pure (⟨.range a b, 0⟩, cs)

def readRangeFrom (f : Flags) (first : Primitive) :
    List Char → Except Fault (SetItem × List Char)
  | [] => throw .setUnclosed
  | '-' :: rest =>
    let behind := f.peek? rest
    if behind = some ']' || behind = some '-' then do pure (← first.toSetItem, '-' :: rest)
    else readRangeEnd f first rest
  | cs => do pure (← first.toSetItem, cs)

def readRange (f : Flags) (cs : List Char) : Except Fault (SetItem × List Char) := do
  let (first, cs) ← readMember f cs
  readRangeFrom f first (f.skip cs)

def readSetWith (f : Flags) (next : SetState → List Char → Except Fault (SetItem × List Char))
    (st : SetState) : List Char → Except Fault (SetItem × List Char)
  | [] => throw .setUnclosed
  | '[' :: rest =>
    match readNamedSet? f rest with
    | some (x, rest) => next (st.push x) rest
    | none => do
      let (st, rest) ← openSet f st rest
      next st rest
  | ']' :: rest =>
    match st.close f with
    | .inl x => pure (x, rest)
    | .inr st => next st rest
  | '&' :: '&' :: rest => next (st.operator f .inter) rest
  | '-' :: '-' :: rest => next (st.operator f .diff) rest
  | '~' :: '~' :: rest => next (st.operator f .symm) rest
  | cs => do
    let (x, rest) ← readRange f cs
    next (st.push x) rest

def readSetFrom (f : Flags) : Nat → SetState → List Char → Except Fault (SetItem × List Char)
  | 0, _, _ => throw .setUnclosed
  | fuel + 1, st, cs => readSetWith f (readSetFrom f fuel) st (f.skip cs)

def readSet (f : Flags) (cs : List Char) : Except Fault (SetItem × List Char) := do
  let (st, rest) ← openSet f ⟨[], []⟩ cs
  readSetFrom f (rest.length + 1) st rest

end Packrat.Pattern
