import Packrat.Proofs.Lexer.Shadowed

/-! Texts line by line. What stands behind a line break has no part in the tokens before it, so two
texts with a line break between them give the tokens of the one, the line break, and what the other
one gives further down. -/

namespace Packrat

open Text (byteSize)

/-! ## Further down in a source -/

def Marker.shift (bytes lines : Nat) (m : Marker) : Marker where
  source := m.source
  focus := m.focus + bytes
  start := m.start + bytes
  stop := m.stop + bytes
  line := m.line + lines

def Token.shift (bytes lines : Nat) (t : Token) : Token :=
  { t with marker := t.marker.shift bytes lines }

def Error.shift (bytes lines : Nat) (e : Error) : Error :=
  { e with marker := e.marker.map (·.shift bytes lines) }

def shiftResult {α : Type} (shift : α → α) (bytes lines : Nat) : Except Error α → Except Error α
  | .ok a => .ok (shift a)
  | .error e => .error (e.shift bytes lines)

open Literal (IsQuote)

namespace Direct

/-! ## What is read before a line break -/

variable {p : Char → Bool} {d q : Char} {cs text more : List Char} {c : Config}

theorem takeWhile_append_cons (hd : p d = false) (cs more : List Char) :
    (cs ++ d :: more).takeWhile p = cs.takeWhile p := by
  induction cs with
  | nil => exact List.takeWhile_cons_of_neg (by simp [hd])
  | cons c cs ih =>
    rw [List.cons_append, List.takeWhile_cons, List.takeWhile_cons, ih]

theorem dropWhile_append_cons (hd : p d = false) (cs more : List Char) :
    (cs ++ d :: more).dropWhile p = cs.dropWhile p ++ d :: more := by
  induction cs with
  | nil => exact List.dropWhile_cons_of_neg (by simp [hd])
  | cons c cs ih =>
    rw [List.cons_append, List.dropWhile_cons, List.dropWhile_cons, ih]
    split <;> rfl

theorem run?_append_cons (hd : p d = false) (cs more : List Char) :
    run? p (cs ++ d :: more) = run? p cs := by
  cases cs with
  | nil => exact run?_eq_none_iff.2 hd
  | cons c cs => rw [List.cons_append, run?, takeWhile_append_cons hd, run?]

theorem run?_break_append (hcs : cs ≠ []) (hlast : cs.getLast? ≠ some '\n') (more : List Char) :
    run? (· == '\n') (cs ++ more) = run? (· == '\n') cs := by
  obtain ⟨front, e, rfl⟩ := cs.eq_nil_or_concat'.resolve_left hcs
  have he : (e == '\n') = false := by simpa using hlast
  rw [List.append_assoc, List.singleton_append, run?_append_cons (p := (· == '\n')) he,
    run?_append_cons (p := (· == '\n')) he]

theorem word?_append_break (hcs : cs ≠ []) (more : List Char) :
    word? (cs ++ '\n' :: more) = word? cs := by
  obtain ⟨c, cs, rfl⟩ := List.exists_cons_of_ne_nil hcs
  rw [List.cons_append, word?, takeWhile_append_cons (by decide), word?]

theorem hexNumber?_eq (cs : List Char) : hexNumber? cs =
    if cs.take 2 = ['0', 'x'] then
      (run? isHexDigit (cs.drop 2)).map fun digits => '0' :: 'x' :: digits
    else none := by
  unfold hexNumber?
  split
  · rfl
  · next hne =>
    refine (if_neg fun htake => ?_).symm
    match cs, htake with
    | _ :: _ :: cs, rfl => exact hne cs rfl

theorem hexNumber?_append_break (cs more : List Char) :
    hexNumber? (cs ++ '\n' :: more) = hexNumber? cs := by
  match cs with
  | [] => rfl
  | [c] => simp [hexNumber?_eq]
  | c :: d :: cs =>
    have hrun : run? isHexDigit (cs ++ '\n' :: more) = run? isHexDigit cs :=
      run?_append_cons (by decide) cs more
    simp [hexNumber?_eq, hrun]

theorem sign_eq (cs : List Char) :
    sign cs = (cs.take 1).filter fun c => c == '+' || c == '-' := by
  unfold sign
  split
  · rfl
  · rfl
  · next hplus hminus =>
    cases cs with
    | nil => rfl
    | cons c cs =>
      have hc : c ≠ '+' ∧ c ≠ '-' := ⟨fun h => hplus cs (h ▸ rfl), fun h => hminus cs (h ▸ rfl)⟩
      simp [hc]

theorem sign_append_break (cs more : List Char) : sign (cs ++ '\n' :: more) = sign cs := by
  cases cs with
  | nil => rfl
  | cons c cs => simp [sign_eq]

theorem length_sign_le (cs : List Char) : (sign cs).length ≤ cs.length := by
  unfold sign
  split <;> simp

theorem exponent_of_ne (h : cs.head? ≠ some 'e') : exponent cs = [] := by
  unfold exponent
  split
  · exact absurd rfl h
  · rfl

theorem exponent_append_break (cs more : List Char) :
    exponent (cs ++ '\n' :: more) = exponent cs := by
  cases cs with
  | nil => rfl
  | cons c cs =>
    by_cases hc : c = 'e'
    · subst hc
      rw [List.cons_append, exponent, sign_append_break,
        List.drop_append_of_le_length (length_sign_le cs), run?_append_cons (by decide), exponent]
    · rw [exponent_of_ne (by simpa using hc), exponent_of_ne (by simpa using hc)]

theorem fraction?_eq (cs : List Char) : fraction? cs =
    if (cs.dropWhile Char.isDigit).head? = some '.' then
      let rest := (cs.dropWhile Char.isDigit).tail
      (run? Char.isDigit rest).map fun digits =>
        cs.takeWhile Char.isDigit ++ '.' :: digits ++ exponent (rest.dropWhile Char.isDigit)
    else none := by
  unfold fraction?
  split
  · next rest hrest => simp [hrest]
  · next hne =>
    refine (if_neg fun hhead => ?_).symm
    obtain ⟨rest, hrest⟩ := List.head?_eq_some_iff.1 hhead
    exact hne rest hrest

theorem fraction?_append_break (cs more : List Char) :
    fraction? (cs ++ '\n' :: more) = fraction? cs := by
  have hdigit : Char.isDigit '\n' = false := by decide
  rw [fraction?_eq, fraction?_eq, dropWhile_append_cons hdigit, takeWhile_append_cons hdigit]
  cases cs.dropWhile Char.isDigit with
  | nil => rfl
  | cons d rest =>
    simp only [List.cons_append, List.head?_cons, List.tail_cons, run?_append_cons hdigit,
      dropWhile_append_cons hdigit, exponent_append_break]
    rfl

theorem wholeNumber?_append_break (cs more : List Char) :
    wholeNumber? (cs ++ '\n' :: more) = wholeNumber? cs := by
  rw [wholeNumber?, run?_append_cons (by decide), dropWhile_append_cons (by decide),
    exponent_append_break, wholeNumber?]

theorem throughBare?_append_cons {front : List Char} (hslash : '\\' ∉ front) (hq : q ∉ front)
    (more : List Char) : throughBare? q false (front ++ q :: more) = some (front ++ [q]) := by
  induction front with
  | nil => exact throughBare?_self nofun
  | cons c front ih =>
    rw [List.mem_cons, not_or] at hslash hq
    have hc : (c == '\\') = false := by simpa using Ne.symm hslash.1
    rw [List.cons_append, throughBare?_other (Ne.symm hq.1), hc, ih hslash.2 hq.2]
    rfl

theorem quoted?_append (hslash : '\\' ∉ cs) (hq : d = q → q ∈ cs) (more : List Char) :
    quoted? q (d :: cs ++ more) = quoted? q (d :: cs) := by
  rw [List.cons_append, quoted?, quoted?]
  split
  · next hd =>
    obtain ⟨front, back, rfl, hfront⟩ := List.eq_append_cons_of_mem (hq hd)
    have hslash : '\\' ∉ front := fun h => hslash (List.mem_append_left _ h)
    rw [List.append_assoc, List.cons_append, throughBare?_append_cons hslash hfront,
      throughBare?_append_cons hslash hfront]
    rfl
  · rfl

theorem longest?_append_break {texts : List (List Char)} (htexts : ∀ text ∈ texts, '\n' ∉ text)
    (cs more : List Char) : longest? texts (cs ++ '\n' :: more) = longest? texts cs := by
  have hprefix (text : List Char) (h : text ∈ texts) :
      text.isPrefixOf (cs ++ '\n' :: more) = text.isPrefixOf cs := by
    rw [Bool.eq_iff_iff, List.isPrefixOf_iff_prefix, List.isPrefixOf_iff_prefix]
    refine ⟨fun hlong => ?_, fun hshort => hshort.trans (List.prefix_append _ _)⟩
    rcases List.prefix_or_prefix_of_prefix hlong (List.prefix_append _ _) with hshort | ⟨rest, rfl⟩
    · exact hshort
    · rcases List.prefix_cons_iff.1 ((List.prefix_append_right_inj cs).1 hlong) with
        rfl | ⟨rest, rfl, -⟩
      · rw [List.append_nil]
      · exact absurd (by simp) (htexts _ h)
  rw [longest?, List.filter_congr hprefix, longest?]

section

variable {lexer : Lexer} (h : Lexer.ofConfig c = .ok lexer)
  (hquotes : ∀ l ∈ c.literals, ∀ q, IsQuote q → l.toList.head? ≠ some q)

include h hquotes

theorem mem_of_first? (hfirst : first? (rules c) (d :: cs) ≠ none) (hd : IsQuote d) : d ∈ cs := by
  by_contra hmem
  refine hfirst ?_
  have hbuiltin : first? (builtinRules c) (d :: cs) = none := by
    refine first?_builtinRules_eq_none_iff.2 ?_
    rcases hd with rfl | rfl
    · exact ⟨rfl, by decide, rfl, rfl, fun h => absurd h (by decide), fun _ => hmem⟩
    · exact ⟨rfl, by decide, rfl, rfl, fun h => absurd h (by decide), fun _ => hmem⟩
  have hlongest : longest? (c.literals.map String.toList) (d :: cs) = none := by
    refine longest?_eq_none_iff.2 (List.forall_mem_map.2 fun l hl hprefix => ?_)
    rcases List.prefix_cons_iff.1 hprefix with hnil | ⟨rest, hrest, -⟩
    · exact Lexer.ne_empty_of_ofConfig h l hl (String.toList_eq_nil_iff.1 hnil)
    · exact hquotes l hl d hd (by rw [hrest]; rfl)
  rw [first?_rules, hbuiltin, hlongest]
  rfl

theorem first?_append_break (hslash : '\\' ∉ d :: cs) (hlast : (d :: cs).getLast? ≠ some '\n')
    (hfirst : first? (rules c) (d :: cs) ≠ none) (more : List Char) :
    first? (rules c) (d :: cs ++ '\n' :: more) = first? (rules c) (d :: cs) := by
  have hclosed := mem_of_first? h hquotes hfirst
  have hcs : '\\' ∉ cs := fun h => hslash (List.mem_cons_of_mem _ h)
  have hblanks : run? isBlank (d :: cs ++ '\n' :: more) = run? isBlank (d :: cs) :=
    run?_append_cons (by decide) _ _
  have hbreaks := run?_break_append (List.cons_ne_nil d cs) hlast ('\n' :: more)
  have hword := word?_append_break (List.cons_ne_nil d cs) more
  have hdouble : quoted? '"' (d :: cs ++ '\n' :: more) = quoted? '"' (d :: cs) :=
    quoted?_append hcs (fun hd => hd ▸ hclosed (.inl hd)) _
  have hsingle : quoted? '\'' (d :: cs ++ '\n' :: more) = quoted? '\'' (d :: cs) :=
    quoted?_append hcs (fun hd => hd ▸ hclosed (.inr hd)) _
  have hlongest : longest? (c.literals.map String.toList) (d :: cs ++ '\n' :: more) =
      longest? (c.literals.map String.toList) (d :: cs) := by
    refine longest?_append_break (fun text htext hmem => ?_) _ _
    obtain ⟨l, hl, rfl⟩ := List.mem_map.1 htext
    cases Lexer.not_isBlank_of_ofConfig h hl hmem
  simp only [first?, rules, List.findSome?_cons, List.findSome?_nil, Rule.blanks, Rule.lineBreaks,
    Rule.word, Rule.hexNumber, Rule.decimal, Rule.quoted, Rule.ofValue, Rule.literal, hblanks,
    hbreaks, hword, hexNumber?_append_break, fraction?_append_break, wholeNumber?_append_break,
    hdouble, hsingle, hlongest]

end

/-! ## Scanning line by line -/

def tokensFrom (c : Config) (source : String) (offset line : Nat) :
    List Char → List Token × Except Error Token
  | [] => ([], .ok ⟨.span source offset offset line, .eof, none⟩)
  | ch :: cs =>
    let (text, token?) := item c ch cs
    let stop := offset + byteSize text
    match token? (.span source offset stop line) with
    | .error e => ([], .error e)
    | .ok token =>
      let (more, last) :=
        tokensFrom c source stop (line + text.count '\n') (cs.drop (text.length - 1))
      (token.toList ++ more, last)
termination_by cs => cs.length
decreasing_by simp only [List.length_drop, List.length_cons]; omega

variable {source : String} {offset line : Nat}

theorem Rule.token?_shift {rule : Rule} (hrule : rule ∈ rules c) (text : List Char) (m : Marker)
    (bytes lines : Nat) : rule.token? text (m.shift bytes lines) =
      shiftResult (Option.map (Token.shift bytes lines)) bytes lines (rule.token? text m) := by
  have ofValue (kind : Kind) (name : String) (value? : List Char → Option Payload)
      (read? : List Char → Option (List Char)) :
      (Rule.ofValue kind name value? read?).token? text (m.shift bytes lines) =
        shiftResult (Option.map (Token.shift bytes lines)) bytes lines
          ((Rule.ofValue kind name value? read?).token? text m) := by
    dsimp only [Rule.ofValue]
    cases value? text <;> rfl
  simp only [rules, List.mem_cons, List.not_mem_nil, or_false] at hrule
  rcases hrule with rfl | rfl | rfl | rfl | rfl | rfl | rfl | rfl | rfl
  · rfl
  · dsimp only [Rule.lineBreaks]
    split <;> rfl
  · dsimp only [Rule.word]
    split <;> rfl
  · exact ofValue ..
  · exact ofValue ..
  · exact ofValue ..
  · exact ofValue ..
  · exact ofValue ..
  · rfl

theorem item_shift (c : Config) (ch : Char) (cs : List Char) (m : Marker) (bytes lines : Nat) :
    (item c ch cs).2 (m.shift bytes lines) =
      shiftResult (Option.map (Token.shift bytes lines)) bytes lines ((item c ch cs).2 m) := by
  rw [item]
  split
  · next rule text hfirst =>
    obtain ⟨rule', hmem, hread⟩ := List.exists_of_findSome?_eq_some hfirst
    obtain ⟨_, -, heq⟩ := Option.map_eq_some_iff.1 hread
    cases heq
    exact Rule.token?_shift hmem text m bytes lines
  · rfl

section

variable {ch : Char} {token? : Marker → Except Error (Option Token)}
  (hitem : item c ch cs = (text, token?))

include hitem

theorem tokensFrom_of_error {e : Error}
    (h : token? (.span source offset (offset + byteSize text) line) = .error e) :
    tokensFrom c source offset line (ch :: cs) = ([], .error e) := by
  rw [tokensFrom, hitem]
  dsimp only
  rw [h]

theorem tokensFrom_of_ok {t : Option Token}
    (h : token? (.span source offset (offset + byteSize text) line) = .ok t) :
    tokensFrom c source offset line (ch :: cs) =
      (t.toList ++ (tokensFrom c source (offset + byteSize text) (line + text.count '\n')
          (cs.drop (text.length - 1))).1,
        (tokensFrom c source (offset + byteSize text) (line + text.count '\n')
          (cs.drop (text.length - 1))).2) := by
  rw [tokensFrom, hitem]
  dsimp only
  rw [h]

end

theorem tokensFrom_shift (c : Config) (source : String) (offset line bytes lines : Nat)
    (cs : List Char) : tokensFrom c source (offset + bytes) (line + lines) cs =
      ((tokensFrom c source offset line cs).1.map (Token.shift bytes lines),
        shiftResult (Token.shift bytes lines) bytes lines
          (tokensFrom c source offset line cs).2) := by
  have moved {offset line : Nat} {ch : Char} {cs text : List Char}
      {token? : Marker → Except Error (Option Token)} (hitem : item c ch cs = (text, token?)) :
      token? (.span source (offset + bytes) (offset + bytes + byteSize text) (line + lines)) =
        shiftResult (Option.map (Token.shift bytes lines)) bytes lines
          (token? (.span source offset (offset + byteSize text) line)) := by
    have hmarker :=
      item_shift c ch cs (.span source offset (offset + byteSize text) line) bytes lines
    rw [hitem] at hmarker
    rw [← hmarker, Nat.add_right_comm]
    rfl
  fun_induction tokensFrom c source offset line cs with
  | case1 offset line =>
    rw [tokensFrom]
    rfl
  | case2 offset line ch cs text token? hitem stop e herror =>
    rw [tokensFrom_of_error hitem ((moved hitem).trans (congrArg _ herror))]
    rfl
  | case3 offset line ch cs text token? hitem stop t ht more last hmore ih =>
    rw [tokensFrom_of_ok hitem ((moved hitem).trans (congrArg _ ht))]
    rw [Nat.add_right_comm offset, Nat.add_right_comm line, ih, hmore]
    cases t <;> rfl

theorem item_prefix {lexer : Lexer} (h : Lexer.ofConfig c = .ok lexer) (hcustom : c.custom = [])
    (ch : Char) (cs : List Char) :
    (item c ch cs).1 ≠ [] ∧ ∃ rest, ch :: cs = (item c ch cs).1 ++ rest := by
  have hafter : (Place.mk "" (.ofText (ch :: cs)) 1).cursor.after = ch :: cs := rfl
  obtain ⟨hne, rest, hrest, -⟩ := Lexer.step_eq_item h hcustom hafter
  exact ⟨hne, rest, hrest⟩

theorem tokensFrom_break (hkeep : c.newlines = .keep) (hfirst : more.head? ≠ some '\n') :
    tokensFrom c source offset line ('\n' :: more) =
      (⟨.span source offset (offset + 1) line, .newline, none⟩ ::
          (tokensFrom c source (offset + 1) (line + 1) more).1,
        (tokensFrom c source (offset + 1) (line + 1) more).2) := by
  have hbreak : run? (· == '\n') ('\n' :: more) = some ['\n'] := by
    cases more with
    | nil => rfl
    | cons d more =>
      have hd : (d == '\n') = false := by simpa using hfirst
      exact run?_append_cons (p := (· == '\n')) hd ['\n'] more
  have hitem : item c '\n' more = (['\n'], (Rule.lineBreaks c.newlines).token? ['\n']) := by
    have hblanks : run? isBlank ('\n' :: more) = none := run?_eq_none_iff.2 rfl
    simp [item, first?, rules, Rule.blanks, Rule.lineBreaks, hblanks, hbreak]
  rw [tokensFrom_of_ok hitem (t := some ⟨.span source offset (offset + 1) line, .newline, none⟩)
    (by rw [hkeep]; rfl)]
  rfl

theorem tokensFrom_append_break {lexer : Lexer} (h : Lexer.ofConfig c = .ok lexer)
    (hcustom : c.custom = []) (hquotes : ∀ l ∈ c.literals, ∀ q, IsQuote q → l.toList.head? ≠ some q)
    (hslash : '\\' ∉ cs) (hlast : cs.getLast? ≠ some '\n') {eof : Token}
    (hcs : (tokensFrom c source offset line cs).2 = .ok eof) (more : List Char) :
    tokensFrom c source offset line (cs ++ '\n' :: more) =
      ((tokensFrom c source offset line cs).1 ++ (tokensFrom c source (offset + byteSize cs)
          (line + cs.count '\n') ('\n' :: more)).1,
        (tokensFrom c source (offset + byteSize cs) (line + cs.count '\n') ('\n' :: more)).2) := by
  fun_induction tokensFrom c source offset line cs with
  | case1 offset line => rfl
  | case2 offset line ch cs text token? hitem stop e herror => cases hcs
  | case3 offset line ch cs text token? hitem stop t ht given last hgiven ih =>
    have hfirst : first? (rules c) (ch :: cs) ≠ none := by
      intro hnone
      rw [item, hnone] at hitem
      cases hitem
      cases ht
    have hitem' : item c ch (cs ++ '\n' :: more) = (text, token?) := by
      have hsame := first?_append_break h hquotes hslash hlast hfirst more
      obtain ⟨x, hx⟩ := Option.ne_none_iff_exists'.1 hfirst
      rw [item, hx] at hitem
      rw [item, ← List.cons_append, hsame, hx]
      exact hitem
    obtain ⟨hne, rest, hrest⟩ := item_prefix h hcustom ch cs
    rw [hitem] at hne hrest
    dsimp only at hne hrest
    have hdrop := Lexer.eq_drop_of_cons_eq_append hne hrest
    have hwhole : ch :: (cs ++ '\n' :: more) = text ++ (rest ++ '\n' :: more) := by
      rw [← List.cons_append, hrest, List.append_assoc]
    have hdrop' := Lexer.eq_drop_of_cons_eq_append hne hwhole
    rw [hrest] at hslash hlast
    rw [hdrop] at hgiven ih
    have hrestSlash : '\\' ∉ rest := fun hmem => hslash (List.mem_append_right _ hmem)
    have hrestLast : rest.getLast? ≠ some '\n' := fun hend => hlast (by simp [hend])
    have ih := ih hrestSlash hrestLast (by rw [hgiven]; exact hcs)
    rw [List.cons_append, tokensFrom_of_ok hitem' ht, hdrop', ih, hgiven, hrest,
      Text.byteSize_append, List.count_append]
    simp only [Nat.add_assoc, List.append_assoc, stop]

end Direct

namespace Lexer

open Direct
open Text (Cursor)

variable {c : Config} {lexer : Lexer}

theorem tokensFrom_eq_direct (h : ofConfig c = .ok lexer) (hcustom : c.custom = []) {fuel : Nat}
    {place : Place} (hfuel : place.cursor.after.length ≤ fuel) :
    lexer.tokensFrom fuel place = Direct.tokensFrom c place.source place.cursor.offset place.line
      place.cursor.after := by
  induction fuel generalizing place with
  | zero =>
    have hafter := List.length_eq_zero_iff.1 (Nat.le_zero.1 hfuel)
    rw [hafter, Direct.tokensFrom]
    rfl
  | succ fuel ih =>
    cases hafter : place.cursor.after with
    | nil =>
      rw [Direct.tokensFrom, tokensFrom, Cursor.atEnd, hafter]
      rfl
    | cons ch cs =>
      obtain ⟨hne, rest, htext, hstep⟩ := step_eq_item h hcustom hafter
      rcases hitem : item c ch cs with ⟨text, token?⟩
      rw [hitem] at hne htext hstep
      dsimp only at hne htext hstep
      have hdrop := eq_drop_of_cons_eq_append hne htext
      have hlength : rest.length ≤ fuel := by
        rw [← hdrop, List.length_drop]
        rw [hafter, List.length_cons] at hfuel
        omega
      cases ht : token? (place.marker (place.cursor.offset + byteSize text)) with
      | error e =>
        rw [ht] at hstep
        rw [tokensFrom_of_error hitem ht, tokensFrom, Cursor.atEnd, hafter, hstep]
        rfl
      | ok t =>
        rw [ht] at hstep
        rw [tokensFrom_of_ok hitem ht, tokensFrom_of_step (by simp [hafter]) hstep, hdrop,
          ih hlength]
        rfl

section

variable (h : ofConfig c = .ok lexer) (hcustom : c.custom = []) (source text : String)

include h hcustom

theorem tokensFrom_start : lexer.tokensFrom (Place.start source text).cursor.after.length
    (.start source text) = Direct.tokensFrom c source 0 1 text.toList :=
  tokensFrom_eq_direct h hcustom (Nat.le_refl _)

theorem list_eq_direct : lexer.list source text =
    (Direct.tokensFrom c source 0 1 text.toList).2.map fun eof =>
      (Direct.tokensFrom c source 0 1 text.toList).1 ++ [eof] := by
  simp only [list, tokensFrom_start h hcustom]
  rcases Direct.tokensFrom c source 0 1 text.toList with ⟨tokens, e | eof⟩ <;> rfl

theorem rest_eq_direct : (Scan.rest lexer (.start source text)).1 =
    (Direct.tokensFrom c source 0 1 text.toList).1.map .ok ++
      [(Direct.tokensFrom c source 0 1 text.toList).2] := by
  simp only [Scan.rest, Scan.start, tokensFrom_start h hcustom]
  rfl

end

/-- Two texts with a line break between them, where the first one has tokens and line breaks are
kept. They give the tokens of the first one without its end, the line break on its last line, and
what the second one gives so many bytes and lines further down: its tokens, and its end or its
error. -/
theorem list_append_newline (h : ofConfig c = .ok lexer) (hcustom : c.custom = [])
    (hkeep : c.newlines = .keep)
    (hquotes : ∀ l ∈ c.literals, ∀ q, IsQuote q → l.toList.head? ≠ some q)
    {source first second : String} {tokens : List Token} (hslash : '\\' ∉ first.toList)
    (hlast : first.toList.getLast? ≠ some '\n') (hsecond : second.toList.head? ≠ some '\n')
    (hfirst : lexer.list source first = .ok tokens) :
    let bytes := first.utf8ByteSize + 1
    let lines := 1 + first.toList.count '\n'
    let front := tokens.dropLast ++ [⟨.span source first.utf8ByteSize bytes lines, .newline, none⟩]
    lexer.list source (first ++ "\n" ++ second) =
        shiftResult (fun more => front ++ more.map (Token.shift bytes lines)) bytes lines
          (lexer.list source second) ∧
      (Scan.rest lexer (.start source (first ++ "\n" ++ second))).1 =
        front.map .ok ++ (Scan.rest lexer (.start source second)).1.map
          (shiftResult (Token.shift bytes lines) bytes lines) := by
  intro bytes lines front
  obtain ⟨eof, heof, rfl⟩ := map_eq_ok.1 (list_eq_direct h hcustom source first ▸ hfirst)
  have hfront : front = (Direct.tokensFrom c source 0 1 first.toList).1 ++
      [⟨.span source first.utf8ByteSize bytes lines, .newline, none⟩] := by
    simp only [front, List.dropLast_concat]
  have hwhole : Direct.tokensFrom c source 0 1 (first ++ "\n" ++ second).toList =
      (front ++ (Direct.tokensFrom c source 0 1 second.toList).1.map (Token.shift bytes lines),
        shiftResult (Token.shift bytes lines) bytes lines
          (Direct.tokensFrom c source 0 1 second.toList).2) := by
    have htext : (first ++ "\n" ++ second).toList = first.toList ++ '\n' :: second.toList := by simp
    have hmore := tokensFrom_shift c source 0 1 bytes lines second.toList
    rw [Nat.zero_add, Nat.add_comm 1 lines] at hmore
    rw [htext, tokensFrom_append_break h hcustom hquotes hslash hlast heof,
      tokensFrom_break hkeep hsecond, Text.byteSize_toList, Nat.zero_add, hfront, List.append_assoc]
    change (_ ++ _ :: (Direct.tokensFrom c source bytes (lines + 1) second.toList).1,
      (Direct.tokensFrom c source bytes (lines + 1) second.toList).2) = _
    rw [hmore]
    rfl
  rw [list_eq_direct h hcustom, list_eq_direct h hcustom, rest_eq_direct h hcustom,
    rest_eq_direct h hcustom, hwhole]
  constructor
  · cases (Direct.tokensFrom c source 0 1 second.toList).2 with
    | error e => rfl
    | ok eof => simp [shiftResult, Except.map]
  · simp [shiftResult]

theorem list_append_newline_literals :
    ∃ lexer, ofConfig { keywords := ["if"], symbols := ["<", "<="] } = .ok lexer ∧
      ∃ tokens, lexer.list "" "if\n1 <" = .ok tokens ∧ tokens.length = 5 ∧
        lexer.list "" ("if\n1 <" ++ "\n" ++ "= 'x'") =
          .error { cause := .unrecognizedToken "=", marker := some (.span "" 7 8 3) } ∧
        (Scan.rest lexer (.start "" ("if\n1 <" ++ "\n" ++ "= 'x'"))).1.length = 6 := by
  obtain ⟨lexer, h⟩ := (exists_ofConfig_iff (c := {
      keywords := ["if"]
      symbols := ["<", "<="] }) rfl).2 (by decide)
  obtain ⟨tokens, hfirst, hlength⟩ :
      ∃ tokens, lexer.list "" "if\n1 <" = .ok tokens ∧ tokens.length = 5 := by
    rw [list_eq_scanFrom h rfl]
    decide +kernel
  have hsecond : Direct.tokensFrom { keywords := ["if"], symbols := ["<", "<="] } "" 0 1
      "= 'x'".toList =
        ([], .error { cause := .unrecognizedToken "=", marker := some (.span "" 0 1 1) }) :=
    tokensFrom_of_error rfl rfl
  have hquotes : ∀ l ∈ ["if", "<", "<="], ∀ q, IsQuote q → l.toList.head? ≠ some q := by
    rintro l hl q (rfl | rfl)
    all_goals
      simp only [List.mem_cons, List.not_mem_nil, or_false] at hl
      rcases hl with rfl | rfl | rfl <;> decide
  have hnext : "= 'x'".toList.head? ≠ some '\n' := by decide
  obtain ⟨hlist, hrest⟩ :=
    list_append_newline h rfl rfl hquotes (by decide) (by decide) hnext hfirst
  rw [list_eq_direct h rfl "" "= 'x'", hsecond] at hlist
  rw [rest_eq_direct h rfl "" "= 'x'", hsecond] at hrest
  refine ⟨lexer, h, tokens, hfirst, hlength, hlist, ?_⟩
  rw [hrest]
  simp [hlength]

end Lexer

end Packrat
