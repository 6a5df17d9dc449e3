import Packrat.Text.Printable

namespace Packrat

inductive Kind : Type
  | newline : Kind
  | string : Kind
  | number : Kind
  | name : Kind
  | eof : Kind
  | literal : String → Kind
  deriving DecidableEq, Inhabited

namespace Kind

def categories : List Kind := [newline, string, number, name, eof]

def text : Kind → String
  | newline => "NEWLINE"
  | string => "STRING"
  | number => "NUMBER"
  | name => "NAME"
  | eof => "EOF"
  | literal s => s

def ofText (s : String) : Kind :=
  match categories.find? (·.text == s) with
  | some k => k
  | none => literal s

def isCategoryText (s : String) : Bool := categories.any (·.text == s)

def tag : Kind → String
  | newline => "Newline"
  | string => "String"
  | number => "Number"
  | name => "Name"
  | eof => "Eof"
  | literal _ => "Literal"

def inspect : Kind → String
  | literal s => s!"Literal({Text.quoted s})"
  | k => k.tag

/-- Categories come first in a fixed order, literals follow. -/
def rank : Kind → Nat
  | newline => 0
  | string => 1
  | number => 2
  | name => 3
  | eof => 4
  | literal _ => 5

instance : Ord Kind where
  compare
    | literal s, literal t => compareOfLessAndEq s t
    | j, k => compare j.rank k.rank

def insert (k : Kind) : List Kind → List Kind
  | [] => [k]
  | j :: rest =>
    match compare k j with
    | .lt => k :: j :: rest
    | .eq => j :: rest
    | .gt => j :: insert k rest

def sorted (ks : List Kind) : List Kind := ks.foldl (fun acc k => insert k acc) []

@[simp] theorem ofText_text_of_mem {k : Kind} (h : k ∈ categories) : ofText k.text = k := by
  simp only [categories, List.mem_cons, List.not_mem_nil, or_false] at h
  rcases h with rfl | rfl | rfl | rfl | rfl <;> rfl

end Kind

end Packrat
