namespace Packrat

/-- A span of a named source. Offsets count bytes, lines count from one. -/
structure Marker : Type where
  source : String
  /-- The offset that a report is about, the start unless something else was asked for. -/
  focus : Nat
  start : Nat
  stop : Nat
  line : Nat
  deriving DecidableEq

namespace Marker

def unnamed : String := "<unknown>"

def span (source : String) (start stop line : Nat) : Marker := ⟨source, start, start, stop, line⟩

def through (first last : Marker) : Marker := { first with stop := last.stop }

def length (m : Marker) : Nat := m.stop - m.start

def isEmpty (m : Marker) : Bool := m.start == m.stop

def display (m : Marker) : String := s!"{m.source}:{m.line}"

@[simp] theorem focus_through (a b : Marker) : (a.through b).focus = a.focus := rfl

@[simp] theorem start_through (a b : Marker) : (a.through b).start = a.start := rfl

@[simp] theorem stop_through (a b : Marker) : (a.through b).stop = b.stop := rfl

@[simp] theorem line_through (a b : Marker) : (a.through b).line = a.line := rfl

@[simp] theorem source_through (a b : Marker) : (a.through b).source = a.source := rfl

end Marker

end Packrat
