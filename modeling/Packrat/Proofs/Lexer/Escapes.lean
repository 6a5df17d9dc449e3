import Packrat.Proofs.Lexer.Direct
import Packrat.Proofs.Lexer.Strings
import Mathlib.Data.Nat.Digits.Defs

namespace Packrat

namespace Literal

open Direct (isHexDigit)

def hexValue (d : Char) : Nat := "0123456789abcdef".toList.idxOf d.toLower

def hexNumber (digits : List Char) : Nat := Nat.ofDigits 16 (digits.reverse.map hexValue)

example : hexNumber ['1', 'F', '6', '0', '0'] = 0x1F600 := by decide

theorem hexNumber_concat (digits : List Char) (d : Char) :
    hexNumber (digits ++ [d]) = 16 * hexNumber digits + hexValue d := by
  rw [hexNumber, List.reverse_append, List.reverse_singleton, List.singleton_append, List.map_cons,
    Nat.ofDigits_cons, hexNumber, Nat.add_comm]

theorem hexDigit?_eq (d : Char) :
    Decimal.hexDigit? d = if isHexDigit d then some (hexValue d) else none := by
  by_cases hd : d.toNat < 128
  · have hall : ∀ n < 128, Decimal.hexDigit? (Char.ofNat n) =
        if isHexDigit (Char.ofNat n) then some (hexValue (Char.ofNat n)) else none := by
      decide +kernel
    have := hall d.toNat hd
    rwa [Char.ofNat_toNat] at this
  · have hle {a : Char} (ha : a.toNat < 128) : ¬d ≤ a := by
      rw [Char.le_def, UInt32.le_iff_toNat_le]
      exact fun hle => hd (hle.trans_lt ha)
    have hdigit : d.isDigit = false := by
      rw [Char.isDigit, Bool.and_eq_false_iff, decide_eq_false_iff_not, decide_eq_false_iff_not]
      exact .inr (hle (a := '9') (by decide))
    have hsmall : ¬d ≤ 'f' := hle (by decide)
    have hcapital : ¬d ≤ 'F' := hle (by decide)
    simp [Decimal.hexDigit?, isHexDigit, hdigit, hsmall, hcapital]

theorem hexNatural?_eq (digits : List Char) :
    Decimal.hexNatural? digits =
      if digits.all isHexDigit then some (hexNumber digits) else none := by
  induction digits using List.reverseRecOn with
  | nil => rfl
  | append_singleton digits d ih =>
    have hconcat : Decimal.hexNatural? (digits ++ [d]) =
        (Decimal.hexNatural? digits).bind fun n => (Decimal.hexDigit? d).map (16 * n + ·) := by
      simp only [Decimal.hexNatural?, List.foldl_append, List.foldl_cons, List.foldl_nil]
    rw [hconcat, ih, hexDigit?_eq, hexNumber_concat, List.all_append]
    cases digits.all isHexDigit <;> cases hd : isHexDigit d <;> simp [hd]

structure Code : Type where
  digits : List Char
  hex : digits.all isHexDigit
  valid : (hexNumber digits).isValidChar

def Code.char (code : Code) : Char := Char.ofNat (hexNumber code.digits)

theorem codePoint?_eq_some_iff {width : Nat} {digits : List Char} {c : Char} :
    codePoint? width digits = some c ↔
      ∃ code : Code, digits = code.digits ∧ code.digits.length = width ∧ c = code.char := by
  rw [codePoint?, hexNatural?_eq]
  constructor
  · intro h
    split at h
    · next hwidth =>
      split at h
      · next n hn =>
        obtain ⟨hhex, heq⟩ := Option.ite_none_right_eq_some.1 hn
        cases heq
        split at h
        · next hvalid =>
          cases h
          exact ⟨⟨digits, hhex, hvalid⟩, rfl, hwidth, rfl⟩
        · cases h
      · cases h
    · cases h
  · rintro ⟨code, rfl, hwidth, rfl⟩
    rw [if_pos hwidth, if_pos code.hex]
    exact if_pos code.valid

def controls : List (Char × Char) :=
  [('n', '\n'), ('t', '\t'), ('r', '\r'), ('b', '\x08'), ('f', '\x0C'), ('v', '\x0B'), ('0', '\x00')]

/-- A part of a text in quotes that stands for something by itself. -/
inductive Piece : Type
  | plain (c : Char) (h : c ≠ '\\') : Piece
  | control (letter c : Char) (h : (letter, c) ∈ controls) : Piece
  | byte (code : Code) (h : code.digits.length = 2) : Piece
  | short (code : Code) (h : code.digits.length = 4) : Piece
  | braced (code : Code) (h : 1 ≤ code.digits.length ∧ code.digits.length ≤ 6) : Piece
  | lineBreak : Piece
  | other (c : Char) (h : c ∉ controls.map Prod.fst ++ ['x', 'u', '\n']) : Piece

namespace Piece

def text : Piece → List Char
  | plain c _ => [c]
  | control letter _ _ => ['\\', letter]
  | byte code _ => '\\' :: 'x' :: code.digits
  | short code _ => '\\' :: 'u' :: code.digits
  | braced code _ => '\\' :: 'u' :: '\x7b' :: code.digits ++ ['\x7d']
  | lineBreak => ['\\', '\n']
  | other c _ => ['\\', c]

def value : Piece → List Char
  | plain c _ | control _ c _ | other c _ => [c]
  | byte code _ | short code _ | braced code _ => [code.char]
  | lineBreak => []

end Piece

theorem readEscape?_control {letter c : Char} (h : (letter, c) ∈ controls) (rest : List Char) :
    readEscape? (letter :: rest) = some ([c], rest) := by
  simp only [controls, List.mem_cons, Prod.mk.injEq, List.not_mem_nil, or_false] at h
  rcases h with ⟨rfl, rfl⟩ | ⟨rfl, rfl⟩ | ⟨rfl, rfl⟩ | ⟨rfl, rfl⟩ | ⟨rfl, rfl⟩ | ⟨rfl, rfl⟩ | ⟨rfl, rfl⟩ <;>
    rfl

theorem readEscape?_other {c : Char} (h : c ∉ controls.map Prod.fst ++ ['x', 'u', '\n'])
    (rest : List Char) : readEscape? (c :: rest) = some ([c], rest) := by
  simp only [controls, List.map_cons, List.map_nil, List.cons_append, List.nil_append, List.mem_cons,
    List.not_mem_nil, or_false, not_or] at h
  unfold readEscape?
  split <;> simp_all

theorem readEscape?_x (rest : List Char) : readEscape? ('x' :: rest) =
    (codePoint? 2 (rest.take 2)).map fun c => ([c], rest.drop 2) := rfl

theorem readEscape?_u {rest : List Char} (h : rest.head? ≠ some '\x7b') :
    readEscape? ('u' :: rest) = (codePoint? 4 (rest.take 4)).map fun c => ([c], rest.drop 4) := by
  rw [readEscape?]
  rintro more rfl
  exact h rfl

theorem readEscape?_brace (rest : List Char) : readEscape? ('u' :: '\x7b' :: rest) =
    (readBraced? rest).map fun x => ([x.1], x.2) := rfl

theorem Code.ne_of_mem (code : Code) {d : Char} (hd : d ∈ code.digits) : d ≠ '\x7b' ∧ d ≠ '\x7d' := by
  have hhex := List.all_eq_true.1 code.hex d hd
  constructor
  · rintro rfl
    exact absurd hhex (by decide)
  · rintro rfl
    exact absurd hhex (by decide)

theorem readBraced?_eq_some_iff {cs rest : List Char} {c : Char} :
    readBraced? cs = some (c, rest) ↔ ∃ code : Code,
      (1 ≤ code.digits.length ∧ code.digits.length ≤ 6) ∧ cs = code.digits ++ '\x7d' :: rest ∧
        c = code.char := by
  constructor
  · intro h
    rw [readBraced?] at h
    split at h
    · cases h
    · next d more hdrop =>
      obtain ⟨hlength, hmap⟩ := Option.ite_none_left_eq_some.1 h
      obtain ⟨c, hcode, heq⟩ := Option.map_eq_some_iff.1 hmap
      cases heq
      obtain ⟨code, hdigits, -, rfl⟩ := codePoint?_eq_some_iff.1 hcode
      obtain rfl : d = '\x7d' := by
        have := List.head?_dropWhile_not (· != '\x7d') cs
        simpa [hdrop] using this
      rw [hdigits] at hlength
      refine ⟨code, ?_, ?_, rfl⟩
      · simp only [Bool.or_eq_true, List.isEmpty_iff, decide_eq_true_eq, not_or] at hlength
        exact ⟨List.length_pos_iff.2 hlength.1, Nat.le_of_not_lt hlength.2⟩
      · rw [← hdigits, ← hdrop, List.takeWhile_append_dropWhile]
  · rintro ⟨code, hlength, rfl, rfl⟩
    have hdigits : ∀ d ∈ code.digits, (d != '\x7d') = true :=
      fun d hd => bne_iff_ne.2 (code.ne_of_mem hd).2
    have hcode : codePoint? code.digits.length code.digits = some code.char :=
      codePoint?_eq_some_iff.2 ⟨code, rfl, rfl, rfl⟩
    have hempty : code.digits.isEmpty = false :=
      List.isEmpty_eq_false_iff.2 (List.length_pos_iff.1 hlength.1)
    have htake : (code.digits ++ '\x7d' :: rest).takeWhile (· != '\x7d') = code.digits := by
      rw [List.takeWhile_append_of_pos hdigits]
      simp
    have hdrop : (code.digits ++ '\x7d' :: rest).dropWhile (· != '\x7d') = '\x7d' :: rest := by
      rw [List.dropWhile_append_of_pos hdigits]
      simp
    simp [readBraced?, htake, hdrop, hcode, hempty, hlength.2]

theorem head?_ne_of_code (code : Code) (hne : code.digits ≠ []) (rest : List Char) :
    (code.digits ++ rest).head? ≠ some '\x7b' := by
  rw [List.head?_append_of_ne_nil _ hne]
  exact fun h => (code.ne_of_mem (List.mem_of_mem_head? h)).1 rfl

theorem readPiece?_backslash (cs : List Char) : readPiece? ('\\' :: cs) = readEscape? cs := by
  rw [readPiece?, if_pos rfl]

theorem readPiece?_text (p : Piece) (rest : List Char) :
    readPiece? (p.text ++ rest) = some (p.value, rest) := by
  cases p with
  | plain c h => exact if_neg h
  | control letter c h => exact readEscape?_control h rest
  | byte code h =>
    have hcode : codePoint? 2 code.digits = some code.char :=
      codePoint?_eq_some_iff.2 ⟨code, rfl, h, rfl⟩
    rw [Piece.text, List.cons_append, List.cons_append, readPiece?_backslash, readEscape?_x,
      List.take_left' h, List.drop_left' h, hcode]
    rfl
  | short code h =>
    have hcode : codePoint? 4 code.digits = some code.char :=
      codePoint?_eq_some_iff.2 ⟨code, rfl, h, rfl⟩
    have hne : code.digits ≠ [] := List.ne_nil_of_length_eq_add_one h
    rw [Piece.text, List.cons_append, List.cons_append, readPiece?_backslash,
      readEscape?_u (head?_ne_of_code code hne rest), List.take_left' h, List.drop_left' h, hcode]
    rfl
  | braced code h =>
    have hcode : readBraced? (code.digits ++ '\x7d' :: rest) = some (code.char, rest) :=
      readBraced?_eq_some_iff.2 ⟨code, h, rfl, rfl⟩
    have htext : (Piece.braced code h).text ++ rest =
        '\\' :: 'u' :: '\x7b' :: (code.digits ++ '\x7d' :: rest) := by
      simp [Piece.text]
    rw [htext, readPiece?_backslash, readEscape?_brace, hcode]
    rfl
  | lineBreak => rfl
  | other c h => exact readEscape?_other h rest

theorem exists_piece_of_readEscape? {cs out rest : List Char} (h : readEscape? cs = some (out, rest)) :
    ∃ p : Piece, '\\' :: cs = p.text ++ rest ∧ out = p.value := by
  cases cs with
  | nil => cases h
  | cons c cs =>
    by_cases hcontrol : c ∈ controls.map Prod.fst
    · obtain ⟨⟨letter, d⟩, hmem, rfl⟩ := List.mem_map.1 hcontrol
      rw [readEscape?_control hmem] at h
      cases h
      exact ⟨.control letter d hmem, rfl, rfl⟩
    by_cases hx : c = 'x'
    · subst hx
      rw [readEscape?_x] at h
      obtain ⟨d, hcode, heq⟩ := Option.map_eq_some_iff.1 h
      cases heq
      obtain ⟨code, hdigits, hlength, rfl⟩ := codePoint?_eq_some_iff.1 hcode
      refine ⟨.byte code hlength, ?_, rfl⟩
      rw [Piece.text, ← hdigits, List.cons_append, List.cons_append, List.take_append_drop]
    by_cases hu : c = 'u'
    · subst hu
      by_cases hbrace : cs.head? = some '\x7b'
      · obtain ⟨more, rfl⟩ := List.head?_eq_some_iff.1 hbrace
        rw [readEscape?_brace] at h
        obtain ⟨x, hbraced, heq⟩ := Option.map_eq_some_iff.1 h
        cases heq
        obtain ⟨code, hlength, rfl, hvalue⟩ := readBraced?_eq_some_iff.1 hbraced
        exact ⟨.braced code hlength, by simp [Piece.text], by rw [hvalue]; rfl⟩
      · rw [readEscape?_u hbrace] at h
        obtain ⟨d, hcode, heq⟩ := Option.map_eq_some_iff.1 h
        cases heq
        obtain ⟨code, hdigits, hlength, rfl⟩ := codePoint?_eq_some_iff.1 hcode
        refine ⟨.short code hlength, ?_, rfl⟩
        rw [Piece.text, ← hdigits, List.cons_append, List.cons_append, List.take_append_drop]
    by_cases hbreak : c = '\n'
    · subst hbreak
      cases h
      exact ⟨.lineBreak, rfl, rfl⟩
    have hother : c ∉ controls.map Prod.fst ++ ['x', 'u', '\n'] := by
      simp [hcontrol, hx, hu, hbreak]
    rw [readEscape?_other hother] at h
    cases h
    exact ⟨.other c hother, rfl, rfl⟩

theorem exists_piece_of_readPiece? {cs out rest : List Char} (h : readPiece? cs = some (out, rest)) :
    ∃ p : Piece, cs = p.text ++ rest ∧ out = p.value := by
  cases cs with
  | nil => cases h
  | cons c cs =>
    by_cases hc : c = '\\'
    · subst hc
      rw [readPiece?_backslash] at h
      exact exists_piece_of_readEscape? h
    · rw [readPiece?, if_neg hc] at h
      cases h
      exact ⟨.plain c hc, rfl, rfl⟩

theorem unescape?_eq_some_iff {body value : List Char} : unescape? body = some value ↔
    ∃ pieces : List Piece, body = pieces.flatMap Piece.text ∧ value = pieces.flatMap Piece.value := by
  constructor
  · intro h
    induction body using unescape?.induct generalizing value with
    | case1 =>
      rw [unescape?] at h
      cases h
      exact ⟨[], rfl, rfl⟩
    | case2 c cs hnone =>
      rw [unescape?] at h
      split at h
      · cases h
      · next hsome =>
        rw [hnone] at hsome
        cases hsome
    | case3 c cs out rest hpiece ih =>
      rw [unescape?_of_readPiece? hpiece] at h
      obtain ⟨more, hmore, rfl⟩ := Option.map_eq_some_iff.1 h
      obtain ⟨pieces, rfl, rfl⟩ := ih hmore
      obtain ⟨p, htext, rfl⟩ := exists_piece_of_readPiece? hpiece
      exact ⟨p :: pieces, htext, rfl⟩
  · rintro ⟨pieces, rfl, rfl⟩
    induction pieces with
    | nil => rw [List.flatMap_nil, unescape?, List.flatMap_nil]
    | cons p pieces ih =>
      rw [List.flatMap_cons, List.flatMap_cons, unescape?_of_readPiece? (readPiece?_text p _), ih]
      rfl

end Literal

namespace Lexer

open Literal

/-- A text in quotes gives a string if it is put together from pieces, and then it is what the pieces
stand for. Else the error is about the text and has the marker of the text. -/
theorem perform_quotedString_iff (lexer : Lexer) (q : Char) (body : List Char) (marker : Marker) :
    (∀ tokens, lexer.perform .quotedString (q :: body ++ [q]) marker = .ok tokens ↔
      ∃ pieces : List Piece, body = pieces.flatMap Piece.text ∧
        tokens = [⟨marker, .string, some (.text (String.ofList (pieces.flatMap Piece.value)))⟩]) ∧
    ((∀ pieces : List Piece, body ≠ pieces.flatMap Piece.text) ↔
      lexer.perform .quotedString (q :: body ++ [q]) marker = .error {
        cause := .invalidLiteral "string escape" (String.ofList (q :: body ++ [q]))
        marker := some marker }) := by
  rw [perform_quotedString, quotedItem]
  cases hbody : unescape? body with
  | none =>
    have hpieces (pieces : List Piece) : body ≠ pieces.flatMap Piece.text := fun h => by
      cases hbody.symm.trans (unescape?_eq_some_iff.2 ⟨pieces, h, rfl⟩)
    refine ⟨fun tokens => ⟨fun h => ?_, ?_⟩, fun _ => rfl, fun _ => hpieces⟩
    · cases h
    · rintro ⟨pieces, h, -⟩
      exact absurd h (hpieces pieces)
  | some value =>
    refine ⟨fun tokens => ⟨?_, ?_⟩, fun h => ?_, fun h => ?_⟩
    · intro h
      cases h
      obtain ⟨pieces, htext, rfl⟩ := unescape?_eq_some_iff.1 hbody
      exact ⟨pieces, htext, rfl⟩
    · rintro ⟨pieces, htext, rfl⟩
      cases hbody.symm.trans (unescape?_eq_some_iff.2 ⟨pieces, htext, rfl⟩)
      rfl
    · obtain ⟨pieces, htext, -⟩ := unescape?_eq_some_iff.1 hbody
      exact absurd htext (h pieces)
    · cases h

end Lexer

end Packrat
