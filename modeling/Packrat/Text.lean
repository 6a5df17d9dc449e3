namespace Packrat.Text

/-- Closed ranges of code points, ascending and apart from each other. -/
abbrev Ranges : Type := List (Nat × Nat)

def Ranges.covers : Ranges → Nat → Bool
  | [], _ => false
  | (lo, hi) :: rest, n => if n < lo then false else n ≤ hi || Ranges.covers rest n

/-- The property White_Space. -/
def blanks : Ranges := [
    (0x9, 0xD), (0x20, 0x20), (0x85, 0x85), (0xA0, 0xA0), (0x1680, 0x1680), (0x2000, 0x200A),
    (0x2028, 0x2029), (0x202F, 0x202F), (0x205F, 0x205F), (0x3000, 0x3000)]

def isBlank (c : Char) : Bool := blanks.covers c.toNat

def wordsAfter (word : List Char) : List Char → List (List Char)
  | [] => if word.isEmpty then [] else [word.reverse]
  | c :: rest =>
    if isBlank c then
      if word.isEmpty then wordsAfter [] rest else word.reverse :: wordsAfter [] rest
    else wordsAfter (c :: word) rest

def words (text : List Char) : List (List Char) := wordsAfter [] text

def byteSize : List Char → Nat
  | [] => 0
  | c :: rest => c.utf8Size + byteSize rest

/-- A place in a text together with its offset in bytes. The characters before it stand nearest
first. -/
structure Cursor : Type where
  before : List Char
  after : List Char
  offset : Nat
  deriving DecidableEq

namespace Cursor

def ofText (text : List Char) : Cursor := ⟨[], text, 0⟩

def next? (p : Cursor) : Option (Char × Cursor) :=
  match p.after with
  | [] => none
  | c :: rest => some (c, ⟨c :: p.before, rest, p.offset + c.utf8Size⟩)

def atStart (p : Cursor) : Bool := p.before.isEmpty

def atEnd (p : Cursor) : Bool := p.after.isEmpty

end Cursor

end Packrat.Text
