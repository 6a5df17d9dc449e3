import Packrat.Decimal.Read

namespace Packrat.Literal

def hex? (text : List Char) : Option Float :=
  match Decimal.hexNatural? (text.drop 2) with
  | some n => if n < UInt64.size then some n.toUInt64.toFloat else none
  | none => none

def decimal? (text : List Char) : Option Float :=
  (Decimal.readNumeral? text).map Decimal.Numeral.toFloat

def codePoint? (width : Nat) (digits : List Char) : Option Char :=
  if digits.length = width then
    match Decimal.hexNatural? digits with
    | some n => if n.isValidChar then some (Char.ofNat n) else none
    | none => none
  else none

def readBraced? (cs : List Char) : Option (Char × List Char) :=
  let digits := cs.takeWhile (· != '\x7d')
  match cs.dropWhile (· != '\x7d') with
  | [] => none
  | _ :: rest =>
    if digits.isEmpty || 6 < digits.length then none
    else (codePoint? digits.length digits).map (·, rest)

def readEscape? : List Char → Option (List Char × List Char)
  | [] => none
  | 'n' :: rest => some (['\n'], rest)
  | 't' :: rest => some (['\t'], rest)
  | 'r' :: rest => some (['\r'], rest)
  | 'b' :: rest => some (['\x08'], rest)
  | 'f' :: rest => some (['\x0C'], rest)
  | 'v' :: rest => some (['\x0B'], rest)
  | '0' :: rest => some (['\x00'], rest)
  | '\n' :: rest => some ([], rest)
  | 'x' :: rest => (codePoint? 2 (rest.take 2)).map fun c => ([c], rest.drop 2)
  | 'u' :: '\x7b' :: rest => (readBraced? rest).map fun (c, rest) => ([c], rest)
  | 'u' :: rest => (codePoint? 4 (rest.take 4)).map fun c => ([c], rest.drop 4)
  | c :: rest => some ([c], rest)

def readPiece? : List Char → Option (List Char × List Char)
  | [] => none
  | c :: rest => if c = '\\' then readEscape? rest else some ([c], rest)

theorem length_readBraced? {cs rest : List Char} {c : Char}
    (h : readBraced? cs = some (c, rest)) : rest.length < cs.length := by
  have split : cs.length =
      (cs.takeWhile (· != '\x7d')).length + (cs.dropWhile (· != '\x7d')).length := by
    rw [← List.length_append, List.takeWhile_append_dropWhile]
  unfold readBraced? at h
  simp only at h
  split at h
  · simp at h
  · rename_i d tail hd
    rw [hd, List.length_cons] at split
    split at h
    · simp at h
    · simp only [Option.map_eq_some_iff, Prod.mk.injEq] at h
      obtain ⟨_, _, _, rfl⟩ := h
      omega

theorem length_readEscape? {cs out rest : List Char} (h : readEscape? cs = some (out, rest)) :
    rest.length < cs.length := by
  unfold readEscape? at h
  split at h <;>
    simp only [Option.some.injEq, Prod.mk.injEq, Option.map_eq_some_iff, reduceCtorEq] at h
  all_goals first
    | (obtain ⟨_, rfl⟩ := h; simp)
    | (obtain ⟨_, _, _, rfl⟩ := h; simp only [List.length_drop, List.length_cons]; omega)
    | (obtain ⟨⟨c, tail⟩, hb, _, rfl⟩ := h
       have := length_readBraced? hb
       simp only [List.length_cons]; omega)

theorem length_readPiece? {cs out rest : List Char} (h : readPiece? cs = some (out, rest)) :
    rest.length < cs.length := by
  cases cs with
  | nil => simp [readPiece?] at h
  | cons c cs =>
    simp only [readPiece?] at h
    split at h
    · have := length_readEscape? h
      simp only [List.length_cons]; omega
    · simp only [Option.some.injEq, Prod.mk.injEq] at h
      simp [← h.2]

def unescape? (body : List Char) : Option (List Char) :=
  match body with
  | [] => some []
  | c :: cs =>
    match _h : readPiece? (c :: cs) with
    | none => none
    | some (out, rest) => (unescape? rest).map (out ++ ·)
termination_by body.length
decreasing_by exact length_readPiece? _h

def string? (text : List Char) : Option (List Char) := unescape? (text.drop 1).dropLast

end Packrat.Literal
