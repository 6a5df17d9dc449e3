import Packrat.Proofs.Checked
import Packrat.Proofs.Pattern.Stable

namespace Packrat.Pattern

open Reader (Stable)

variable {α : Type} (f : Flags)

theorem stable_dropBlank : Stable fun cs => .ok ((), cs.dropWhile Text.isBlank) where
  suffix h := by cases h; exact List.dropWhile_suffix _
  extend h hne more := by
    cases h
    rw [dropWhile_append_of_ne_nil hne]
  close h := by
    have h := congrArg Prod.snd (Except.ok.inj h)
    rw [List.dropWhile_append, if_pos (by simpa using h)]
    exact .inl rfl

theorem Flags.span_fuel (p : Char → Bool) {n m : Nat} {cs : List Char}
    (hn : cs.length ≤ n) (hm : cs.length ≤ m) : f.span p n cs = f.span p m cs := by
  induction n generalizing m cs with
  | zero =>
    cases List.length_eq_zero_iff.1 (Nat.le_zero.1 hn)
    cases m <;> rfl
  | succ n ih =>
    cases cs with
    | nil => cases m <;> rfl
    | cons c rest =>
      cases m with
      | zero => cases hm
      | succ m =>
        have hlen := (f.skip_suffix rest).length_le
        rw [List.length_cons] at hn hm
        rw [Flags.span, Flags.span, @ih m (f.skip rest) (by omega) (by omega)]

theorem Flags.stable_span {p : Char → Bool} (hp : p ')' = false) :
    Stable fun cs => .ok (f.span p cs.length cs) := by
  have fuelled (n : Nat) : Stable fun cs => .ok (f.span p n cs) := by
    induction n with
    | zero => exact .pure []
    | succ n ih =>
      have more (c : Char) : Stable fun cs =>
          .ok (c :: (f.span p n (f.skip cs)).1, (f.span p n (f.skip cs)).2) :=
        (ih.skip f).bind fun run => .pure (c :: run)
      refine (Stable.option hp more (.pure [])).congr ?_
      rintro (_ | ⟨c, cs⟩)
      · rfl
      · by_cases hc : p c = true
        · simp only [Flags.span, hc, if_true]
        · simp only [Flags.span, hc, Bool.false_eq_true, if_false]
  refine .of_fuel fuelled 0 fun cs n m x hn hm h => ?_
  rw [← h, f.span_fuel p hn (Nat.le_trans hn hm)]

theorem stable_readDecimal : Stable fun cs => .ok (readDecimal f cs) := by
  have digits := f.stable_span (p := Char.isDigit) (by decide)
  exact stable_dropBlank.bind fun _ => digits.bind fun run => stable_dropBlank.bind fun _ =>
    (Stable.pure (if run.isEmpty then throw .countMissing
      else if 2 ^ 32 ≤ Decimal.natural run then throw .countTooLarge
      else pure (Decimal.natural run) : Except Fault Nat)).skip f

theorem stable_sign (sign : Char) (e : Fault) (x : α) :
    Stable fun cs => match cs with
      | [] => .error e
      | c :: rest => if c == sign then .ok (x, rest) else .error e :=
  .branch (· == sign) e (fun _ => .pure x) (.fail e)

theorem stable_closeBounds (bounds : Nat × Option Nat) : Stable (closeBounds bounds) := by
  refine (stable_sign '\x7d' .countUnclosed bounds).congr ?_
  rintro (_ | ⟨c, cs⟩)
  · rfl
  · by_cases hc : c = '\x7d'
    · subst hc
      rfl
    · simp [closeBounds, hc]
      rfl

theorem stable_readMost (least : Nat) : Stable (readMost f least) :=
  (stable_readDecimal f).bind fun most => .given most fun most =>
    (stable_closeBounds (least, some most)).bind fun bounds =>
      .ite (c := most < least) (fun _ => .fail .countDescending) fun _ => .pure bounds

theorem stable_readBounds : Stable (readBounds f) := by
  -- Behind the comma, and where there is none.
  have most (least : Except Fault Nat) := Stable.branch (· == '\x7d') .countUnclosed
    (fun _ => .given least fun least => .pure (least, none))
    (.given least fun least => stable_readMost f least)
  have rest (least : Except Fault Nat) := Stable.branch (· == ',') .countUnclosed
    (fun _ => (most least).skip f)
    (.given least fun count => stable_closeBounds (count, some count))
  refine (((stable_readDecimal f).bind rest).skip f).congr fun cs => ?_
  change readBounds f cs = match (readDecimal f (f.skip cs)).2 with | [] => _ | c :: rest => _
  unfold readBounds
  rcases readDecimal f (f.skip cs) with ⟨least, _ | ⟨c, cs⟩⟩
  · rfl
  · by_cases hc : c = ','
    · subst hc
      rcases hskip : f.skip cs with _ | ⟨d, ds⟩
      · simp [hskip]
        rfl
      · by_cases hd : d = '\x7d'
        · simp [hskip, hd]
          rfl
        · simp [hskip, hd]
    · simp [hc]

theorem stable_readHexDigits (count : Nat) : Stable (readHexDigits f count) := by
  induction count with
  | zero => exact .pure []
  | succ count ih =>
    have more (c : Char) := Stable.ite (c := (Decimal.hexDigit? c).isNone = true)
      (fun _ => .fail .escapeHex) fun _ => (ih.skip f).bind fun digits => .pure (c :: digits)
    refine (Stable.uncons .escapeUnfinished more).congr ?_
    rintro (_ | ⟨c, cs⟩)
    · rfl
    · by_cases hc : (Decimal.hexDigit? c).isNone = true
      · simp only [readHexDigits, hc, if_true]
        rfl
      · simp only [readHexDigits, hc, Bool.false_eq_true, if_false]
        rfl

theorem stable_readBracedHex : Stable (readBracedHex f) := by
  have digits := f.stable_span (p := fun c => (Decimal.hexDigit? c).isSome) (by decide)
  have closing (digits : List Char) := Stable.branch (· == '\x7d') .escapeUnfinished
    (fun _ => .ite (c := digits.isEmpty = true) (fun _ => .fail .escapeHex) fun _ =>
      .given (hexScalar digits) fun c => (Stable.pure c).skip f)
    (.fail .escapeHex)
  refine ((digits.bind closing).skip f).congr fun cs => ?_
  change readBracedHex f cs = match (f.span _ _ (f.skip cs)).2 with | [] => _ | c :: rest => _
  unfold readBracedHex
  dsimp only
  rcases f.span (fun c => (Decimal.hexDigit? c).isSome) (f.skip cs).length (f.skip cs) with
    ⟨run, _ | ⟨c, rest⟩⟩
  · rfl
  · by_cases hc : c = '\x7d'
    · subst hc
      rfl
    · simp [hc]
      rfl

theorem stable_readHex (width : Nat) : Stable (readHex f width) := by
  have plain := (stable_readHexDigits f width).bind fun digits =>
    .given (hexScalar digits) fun c => .pure c
  have braced (_ : Char) := stable_readBracedHex f
  refine ((Stable.branch (· == '\x7b') .escapeUnfinished braced plain).skip f).congr fun cs => ?_
  unfold readHex
  rcases hskip : f.skip cs with _ | ⟨c, rest⟩
  · rfl
  · by_cases hc : c = '\x7b'
    · subst hc
      rfl
    · simp [hc]
      rfl

theorem stable_opensName :
    Stable fun cs => opensName f cs >>= fun named => .ok (named, cs) where
  suffix {cs _ _} h := by
    obtain ⟨_, _, h⟩ := bind_eq_ok.1 h
    cases h
    exact List.suffix_refl _
  extend {cs _ x} h hne more := by
    obtain ⟨named, hnamed, h⟩ := bind_eq_ok.1 h
    cases h
    suffices opensName f (cs ++ more) = .ok x by rw [this]; rfl
    rw [← hnamed]
    rcases cs with _ | ⟨c, rest⟩
    · exact absurd rfl hne
    · by_cases hc : c = '\x7b'
      · subst hc
        rcases hskip : f.skip rest with _ | ⟨d, ds⟩
        · simp [opensName, hskip] at hnamed
        · have hne : f.skip rest ≠ [] := by simp [hskip]
          have := f.skip_append hne more
          simp [opensName, hskip, this]
      · simp [opensName, hc]
  close {cs _} h := by
    obtain ⟨named, hnamed, h⟩ := bind_eq_ok.1 h
    cases h
    cases hnamed
    exact .inl rfl

theorem stable_readBoundaryName : Stable (readBoundaryName f) := by
  have name := f.stable_span (p := isBoundaryChar) (by decide)
  have closing (name : List Char) := Stable.branch (· == '\x7d') .boundaryUnclosed
    (fun _ => .given (namedBoundary (String.ofList name)) fun l => .pure l)
    (.fail .boundaryUnclosed)
  refine (name.bind closing).congr fun cs => ?_
  change readBoundaryName f cs = match (f.span _ _ cs).2 with | [] => _ | c :: rest => _
  unfold readBoundaryName
  rcases f.span isBoundaryChar cs.length cs with ⟨run, _ | ⟨c, rest⟩⟩
  · rfl
  · by_cases hc : c = '\x7d'
    · subst hc
      rfl
    · simp [hc]
      rfl

theorem stable_readBoundary : Stable (readBoundary f) := by
  have behind : Stable fun cs : List Char => readBoundaryName f (f.skip cs.tail) := by
    refine (Stable.uncons .boundaryUnclosed fun _ => (stable_readBoundaryName f).skip f).congr ?_
    rintro (_ | ⟨c, cs⟩)
    · unfold Flags.skip
      split <;> rfl
    · rfl
  have choose (named : Bool) := Stable.ite (c := named = true) (fun _ => behind) fun _ =>
    .pure Look.wordBoundary
  refine ((stable_opensName f).bind choose).congr fun cs => ?_
  unfold readBoundary
  cases opensName f cs <;> rfl

def escapeLetters : List Char :=
  ['x', 'u', 'U', 'p', 'P', 'd', 'D', 's', 'S', 'w', 'W', 'a', 'f', 't', 'n', 'r', 'v', 'A', 'z',
    'b', 'B', '<', '>']

theorem stable_readEscape_cons (c : Char) : Stable fun cs => readEscape f (c :: cs) := by
  have hex (width : Nat) := (stable_readHex f width).bind fun c => .pure (Primitive.char c)
  by_cases hdigit : c.isDigit = true
  · refine (Stable.fail .backReference).congr fun cs => ?_
    simp only [readEscape, hdigit, if_true]
    rfl
  by_cases hescapable : isEscapable c = true
  · refine (Stable.pure (Primitive.char c)).congr fun cs => ?_
    simp only [readEscape, hdigit, hescapable, Bool.false_eq_true, if_true, if_false]
    rfl
  by_cases hletter : c ∈ escapeLetters
  · simp only [escapeLetters, List.mem_cons, List.not_mem_nil, or_false] at hletter
    rcases hletter with rfl | rfl | rfl | rfl | rfl | rfl | rfl | rfl | rfl | rfl | rfl | rfl | rfl |
      rfl | rfl | rfl | rfl | rfl | rfl | rfl | rfl | rfl | rfl
    · exact hex 2
    · exact hex 4
    · exact hex 8
    · exact .fail _
    · exact .fail _
    iterate 6 exact .pure (Primitive.set _)
    iterate 6 exact .pure (Primitive.char _)
    · exact .pure (Primitive.look .textStart)
    · exact .pure (Primitive.look .textEnd)
    · exact (stable_readBoundary f).bind fun l => .pure (Primitive.look l)
    iterate 3 exact .pure (Primitive.look _)
  · refine (Stable.fail (.escapeUnknown c)).congr fun cs => ?_
    simp only [escapeLetters, List.mem_cons, List.not_mem_nil, or_false, not_or] at hletter
    simp [readEscape, hdigit, hescapable, hletter]
    rfl

theorem stable_readEscape : Stable (readEscape f) := by
  refine (Stable.uncons .escapeUnfinished (stable_readEscape_cons f)).congr ?_
  rintro (_ | ⟨c, cs⟩) <;> rfl

end Packrat.Pattern
