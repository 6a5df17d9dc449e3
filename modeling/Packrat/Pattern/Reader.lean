import Packrat.Pattern.SetReader

/-!
Reading a pattern from its text.

The reader walks the text once. Groups that are open wait on a stack, each with the alternatives
and the items read before it; a switch of modes holds up to the end of the group it stands in.
-/

namespace Packrat.Pattern

def nestingLimit : Nat := 250

/-- An item of a sequence. A switch of modes is an item too, though it matches nothing. -/
structure Item : Type where
  pattern : Pattern
  depth : Nat := 0
  isSwitch : Bool := false

namespace Item

/-- Deepest nesting among items; several side by side are one level more. -/
def depthOf (xs : List Item) : Nat :=
  match xs with
  | [] => 0
  | [x] => x.depth
  | xs => (xs.map (·.depth)).foldl max 0 + 1

def sequence (xs : List Item) : Item := ⟨.cats (xs.map (·.pattern)), depthOf xs, false⟩

def choice (xs : List Item) : Item := ⟨.alts (xs.map (·.pattern)), depthOf xs, false⟩

end Item

structure Level : Type where
  branches : List Item := []
  items : List Item := []

namespace Level

def push (l : Level) (x : Item) : Level := { l with items := x :: l.items }

def branch (l : Level) : Level := ⟨.sequence l.items.reverse :: l.branches, []⟩

def finish (l : Level) : Item := .choice (l.branch.branches.reverse)

end Level

structure Frame : Type where
  number : Option Nat
  outer : Level
  flags : Flags

structure State : Type where
  frames : List Frame := []
  level : Level := {}
  flags : Flags := {}
  groups : Nat := 0
  names : List String := []

namespace State

def push (st : State) (x : Item) : State := { st with level := st.level.push x }

def openGroup (st : State) (number : Option Nat) (flags : Flags) : State :=
  { st with
    frames := ⟨number, st.level, st.flags⟩ :: st.frames
    level := {}
    flags := flags }

def openNumbered (st : State) : State :=
  { st with groups := st.groups + 1 }.openGroup (some (st.groups + 1)) st.flags

def closeGroup (st : State) : Except Fault State :=
  match st.frames with
  | [] => throw .groupUnopened
  | frame :: frames =>
    let inner := st.level.finish
    let pattern := match frame.number with
      | some n => Pattern.group n inner.pattern
      | none => inner.pattern
    pure { st with
      frames := frames
      level := frame.outer.push ⟨pattern, inner.depth + 1, false⟩
      flags := frame.flags }

def rep (st : State) (least : Nat) (most : Option Nat) (greedy : Bool) : Except Fault State :=
  match st.level.items with
  | [] => throw .nothingToRepeat
  | x :: items =>
    if x.isSwitch then throw .nothingToRepeat
    else
      let greedy := greedy != st.flags.swapGreed
      let y : Item := ⟨.rep least most greedy x.pattern, x.depth + 1, false⟩
      pure { st with level := { st.level with items := y :: items } }

end State

inductive Op : Type
  | set (s : CharSet) (depth : Nat) : Op
  | look : Look → Op
  | modes : Flags → Op
  | openPlain : Flags → Op
  | openNumbered : Op
  | openNamed : String → Op
  | close : Op
  | branch : Op
  | rep (least : Nat) (most : Option Nat) (greedy : Bool) : Op

namespace Op

def ofPrimitive (f : Flags) : Primitive → Op
  | .char c => set (f.literal c) 0
  | .set s => set s 0
  | .look l => look l

def apply (st : State) : Op → Except Fault State
  | set s depth => pure (st.push ⟨.set s, depth, false⟩)
  | look l => pure (st.push ⟨.look l, 0, false⟩)
  | modes f => pure ({ st with flags := f }.push ⟨.empty, 0, true⟩)
  | openPlain f => pure (st.openGroup none f)
  | openNumbered => pure st.openNumbered
  | openNamed name =>
    if st.names.contains name then throw (.groupNameRepeated name)
    else pure { st with names := name :: st.names }.openNumbered
  | close => st.closeGroup
  | branch => pure { st with level := st.level.branch }
  | rep least most greedy => st.rep least most greedy

end Op

/-- Switches a mode. Patterns are about characters, so `u` cannot be switched off: the modes `-u`,
which are about bytes, are refused even where only whole characters would match. -/
def Flags.setMode (f : Flags) (on : Bool) : Char → Except Fault Flags
  | 'i' => pure { f with foldCase := on }
  | 'm' => pure { f with multiLine := on }
  | 's' => pure { f with dotAll := on }
  | 'U' => pure { f with swapGreed := on }
  | 'R' => pure { f with crlf := on }
  | 'x' => pure { f with spaced := on }
  | 'u' => if on then pure f else throw .propertyUnsupported
  | c => throw (.flag c)

/-- Modes up to a colon or a closing parenthesis. No sign stands twice, and the hyphen, behind
which modes are switched off, is not the last. -/
def readFlags (f : Flags) (seen : List Char) :
    List Char → Except Fault ((Flags × List Char) × List Char)
  | [] => throw .flagUnclosed
  | c :: rest =>
    if c = ':' || c = ')' then
      if seen.head? = some '-' then throw .flagDangling else pure ((f, seen), c :: rest)
    else if seen.contains c then throw .flagRepeated
    else if c = '-' then readFlags f (c :: seen) rest
    else do readFlags (← f.setMode (!seen.contains '-') c) (c :: seen) rest

def isNameChar (first : Bool) (c : Char) : Bool :=
  c == '_' ||
    if first then Text.isLetter c
    else c == '.' || c == '[' || c == ']' || Text.isLetterOrNumeral c

def readGroupName (cs : List Char) : Except Fault (String × List Char) :=
  let name := cs.takeWhile (· != '>')
  match name, cs.dropWhile (· != '>') with
  | first :: more, _ :: rest =>
    if isNameChar true first && more.all (isNameChar false) then
      pure (String.ofList name, rest)
    else throw .groupName
  | _, _ => throw .groupName

def readNamed (cs : List Char) : Except Fault (Op × List Char) := do
  let (name, rest) ← readGroupName cs
  pure (.openNamed name, rest)

def readModes (f : Flags) (cs : List Char) : Except Fault (Op × List Char) := do
  let ((modes, seen), rest) ← readFlags f [] cs
  match rest with
  | ':' :: rest => pure (.openPlain modes, rest)
  | _ :: rest => if seen.isEmpty then throw .nothingToRepeat else pure (.modes modes, rest)
  | [] => throw .flagUnclosed

def readOpening (f : Flags) (cs : List Char) : Except Fault (Op × List Char) :=
  match f.skip cs with
  | '?' :: '=' :: _ | '?' :: '!' :: _ => throw .lookAround
  | '?' :: '<' :: '=' :: _ | '?' :: '<' :: '!' :: _ => throw .lookAround
  | '?' :: 'P' :: '<' :: rest => readNamed rest
  | '?' :: '<' :: rest => readNamed rest
  | '?' :: rest => readModes f rest
  | cs => pure (.openNumbered, cs)

def readGreed : List Char → Bool × List Char
  | '?' :: rest => (false, rest)
  | cs => (true, cs)

def readRep (least : Nat) (most : Option Nat) (cs : List Char) : Op × List Char :=
  let (greedy, rest) := readGreed cs
  (.rep least most greedy, rest)

def readOp (f : Flags) (c : Char) (rest : List Char) : Except Fault (Op × List Char) :=
  match c with
  | '(' => readOpening f rest
  | ')' => pure (.close, rest)
  | '|' => pure (.branch, rest)
  | '[' => do
    let (x, rest) ← readSet f rest
    pure (.set x.set x.depth, rest)
  | '?' => pure (readRep 0 (some 1) rest)
  | '*' => pure (readRep 0 none rest)
  | '+' => pure (readRep 1 none rest)
  | '\x7b' => do
    let ((least, most), rest) ← readBounds f rest
    pure (readRep least most (f.skip rest))
  | '\\' => do
    let (p, rest) ← readEscape f rest
    pure (.ofPrimitive f p, rest)
  | '.' => pure (.set f.dot 0, rest)
  | '^' => pure (.look f.start, rest)
  | '$' => pure (.look f.stop, rest)
  | c => pure (.set (f.literal c) 0, rest)

def step (st : State) (c : Char) (rest : List Char) : Except Fault (State × List Char) := do
  let (op, rest) ← readOp st.flags c rest
  pure (← op.apply st, rest)

def State.finish (st : State) : Except Fault Pattern :=
  if !st.frames.isEmpty then throw .groupUnclosed
  else
    let x := st.level.finish
    if nestingLimit < x.depth then throw .tooDeep else pure x.pattern

def readFrom : Nat → State → List Char → Except Fault Pattern
  | 0, st, _ => st.finish
  | fuel + 1, st, cs =>
    match st.flags.skip cs with
    | [] => st.finish
    | c :: rest => do
      let (st, rest) ← step st c rest
      readFrom fuel st rest

def read (text : List Char) : Except Fault Pattern := readFrom (text.length + 1) {} text

end Packrat.Pattern
