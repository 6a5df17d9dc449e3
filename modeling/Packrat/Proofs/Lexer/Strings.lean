import Packrat.Proofs.Lexer.Accepted
import Packrat.Proofs.Pattern.Quoted

namespace Packrat

open Text (Cursor byteSize)

namespace Literal

def IsQuote (q : Char) : Prop := q = '"' ∨ q = '\''

theorem IsQuote.ne_backslash {q : Char} (h : IsQuote q) : q ≠ '\\' := by
  rcases h with rfl | rfl <;> decide

def escaped (q : Char) (s : List Char) : List Char :=
  s.flatMap fun c => if c = '\\' ∨ c = q then ['\\', c] else [c]

def quote (q : Char) (s : List Char) : List Char := q :: escaped q s ++ [q]

theorem escaped_cons (q c : Char) (s : List Char) :
    escaped q (c :: s) = escaped q [c] ++ escaped q s := by
  simp [escaped]

theorem escaped_meta {q c : Char} (hc : c = '\\' ∨ c = q) : escaped q [c] = ['\\', c] := by
  simp [escaped, hc]

theorem escaped_other {q c : Char} (hc : ¬(c = '\\' ∨ c = q)) : escaped q [c] = [c] := by
  simp [escaped, hc]

end Literal

namespace Pattern

open Literal

variable {q : Char}

theorem exists_escaped_eq_cons (hq : q ≠ '\\') {s : List Char} (hs : s ≠ []) :
    ∃ d ds, d ≠ q ∧ escaped q s = d :: ds := by
  cases s with
  | nil => exact absurd rfl hs
  | cons c s =>
    by_cases hc : c = '\\' ∨ c = q
    · exact ⟨'\\', c :: escaped q s, hq.symm, by rw [escaped_cons, escaped_meta hc]; rfl⟩
    · exact ⟨c, escaped q s, fun h => hc (.inr h), by rw [escaped_cons, escaped_other hc]; rfl⟩

theorem closing?_escaped_char (hq : q ≠ '\\') {c : Char} {cs : List Char} (hmem : q ∈ cs)
    (hhead : c = '\\' → cs.head? ≠ some q) :
    closing? q (escaped q [c] ++ cs) =
      (closing? q cs).map fun x => (escaped q [c] ++ x.1, x.2) := by
  obtain ⟨d, ds, rfl⟩ := List.exists_cons_of_ne_nil (List.ne_nil_of_mem hmem)
  by_cases hslash : c = '\\'
  · subst hslash
    have hd : d ≠ q := by simpa using hhead rfl
    rw [escaped_meta (.inl rfl)]
    simp [closing?_other hq.symm, hq.symm, hd, Function.comp_def]
  · by_cases hc : c = q
    · subst hc
      obtain ⟨x, hx⟩ := exists_closing?_of_mem hmem
      rw [escaped_meta (.inr rfl)]
      simp [closing?_backslash hq, hx]
    · rw [escaped_other (not_or.2 ⟨hslash, hc⟩)]
      simp [closing?_other hc, hslash]

theorem closing?_escaped (hq : q ≠ '\\') (s r : List Char) :
    closing? q (escaped q s ++ q :: r) =
      if s.getLast? = some '\\' then
        ((closing? q r).map fun x => (escaped q s ++ q :: x.1, x.2)).or (some (escaped q s, r))
      else some (escaped q s, r) := by
  induction s with
  | nil => exact closing?_self r
  | cons c s ih =>
    by_cases hlast : c = '\\' ∧ s = []
    · obtain ⟨rfl, rfl⟩ := hlast
      rw [escaped_meta (.inl rfl)]
      cases hr : closing? q r <;>
        simp [closing?_other hq.symm, hq.symm, closing?_backslash hq, hr]
    · have hlast' : (c :: s).getLast? = some '\\' ↔ s.getLast? = some '\\' := by
        cases s with
        | nil => simpa using hlast
        | cons d s => simp
      have hhead : c = '\\' → (escaped q s ++ q :: r).head? ≠ some q := by
        intro hc
        obtain ⟨d, ds, hd, hs⟩ := exists_escaped_eq_cons hq fun hs => hlast ⟨hc, hs⟩
        simpa [hs] using hd
      rw [escaped_cons, List.append_assoc, closing?_escaped_char hq (by simp) hhead, ih]
      simp only [hlast']
      split
      · cases closing? q r <;> simp
      · rfl

theorem closing?_escaped_of_mem (hq : q ≠ '\\') {s r : List Char} (hlast : s.getLast? = some '\\')
    {x : List Char × List Char} (hx : closing? q r = some x) :
    closing? q (escaped q s ++ q :: r) = some (escaped q s ++ q :: x.1, x.2) := by
  rw [closing?_escaped hq, if_pos hlast, hx]
  rfl

theorem closing?_escaped_of_not_mem (hq : q ≠ '\\') {s r : List Char}
    (h : ¬(s.getLast? = some '\\' ∧ q ∈ r)) :
    closing? q (escaped q s ++ q :: r) = some (escaped q s, r) := by
  rw [closing?_escaped hq]
  split
  · next hlast =>
    cases hr : closing? q r with
    | none => rfl
    | some x =>
      refine absurd ⟨hlast, ?_⟩ h
      rw [eq_append_of_closing? hr]
      simp
  · rfl

end Pattern

namespace Literal

open Pattern

theorem unescape?_of_readPiece? {cs out rest : List Char}
    (h : readPiece? cs = some (out, rest)) : unescape? cs = (unescape? rest).map (out ++ ·) := by
  cases cs with
  | nil => cases h
  | cons c cs =>
    rw [unescape?]
    split
    · next hnone =>
      rw [h] at hnone
      cases hnone
    · next hsome =>
      rw [h] at hsome
      cases hsome
      rfl

theorem readPiece?_escaped {q : Char} (hq : IsQuote q) (c : Char) (rest : List Char) :
    readPiece? (escaped q [c] ++ rest) = some ([c], rest) := by
  by_cases hc : c = '\\' ∨ c = q
  · rw [escaped_meta hc]
    rcases hq with rfl | rfl <;> rcases hc with rfl | rfl <;> rfl
  · rw [escaped_other hc]
    exact if_neg fun h => hc (.inl h)

theorem unescape?_escaped {q : Char} (hq : IsQuote q) (s : List Char) :
    unescape? (escaped q s) = some s := by
  induction s with
  | nil => rw [escaped, List.flatMap_nil, unescape?]
  | cons c s ih =>
    rw [escaped_cons, unescape?_of_readPiece? (readPiece?_escaped hq c (escaped q s)), ih]
    rfl

end Literal

namespace Place

theorem charsUpTo_append (taken rest : List Char) (offset : Nat) :
    charsUpTo (offset + byteSize taken) offset (taken ++ rest) = taken := by
  induction taken generalizing offset with
  | nil => cases rest <;> simp [charsUpTo, byteSize]
  | cons c taken ih =>
    have := c.utf8Size_pos
    have hlt : offset < offset + byteSize (c :: taken) := by simp only [byteSize]; omega
    rw [List.cons_append, charsUpTo, if_pos hlt, byteSize, ← Nat.add_assoc, ih]

theorem textTo_pass {p : Place} {taken rest : List Char} (h : p.cursor.after = taken ++ rest) :
    p.textTo (p.cursor.pass taken rest) = taken := by
  rw [textTo, h]
  exact charsUpTo_append taken rest p.cursor.offset

end Place

namespace Lexer

open Pattern Literal

theorem matchAt?_base_quote {q : Char} (hq : IsQuote q) {p : Cursor} {cs : List Char}
    (h : p.after = q :: cs) : ∀ x ∈ Pattern.base.take 6, x.matchAt? p = none := by
  obtain ⟨before, after, offset⟩ := p
  cases h
  rcases hq with rfl | rfl
  · simp only [Pattern.base, List.take_succ_cons, List.take_zero, List.forall_mem_cons]
    exact ⟨rfl, rfl, rfl, rfl, rfl, rfl, nofun⟩
  · simp only [Pattern.base, List.take_succ_cons, List.take_zero, List.forall_mem_cons]
    exact ⟨rfl, rfl, rfl, rfl, rfl, rfl, nofun⟩

variable {q : Char} {cs body rest : List Char}

theorem firstOf?_base_quote (hq : IsQuote q) {p : Cursor} (h : p.after = q :: cs)
    (hclosing : closing? q cs = some (body, rest)) :
    ∃ i s, Spec.base[i]? = some s ∧ s.action = .quotedString ∧
      firstOf? Spec.base p = some (i, p.pass (q :: body ++ [q]) rest) := by
  have hbefore := firstMatch?_append (matchAt?_base_quote hq h) [quoted '"', quoted '\'']
  have hmatch := matchAt?_quoted hq.ne_backslash h
  rw [hclosing] at hmatch
  have hbase : Pattern.base = Pattern.base.take 6 ++ [quoted '"', quoted '\''] := rfl
  rw [firstOf?_eq read_base, hbase, hbefore]
  rcases hq with rfl | rfl
  · refine ⟨6, _, rfl, rfl, ?_⟩
    rw [firstMatch?, hmatch]
    rfl
  · have hdouble : (quoted '"').matchAt? p = none := by
      obtain ⟨before, after, offset⟩ := p
      cases h
      rfl
    refine ⟨7, _, rfl, rfl, ?_⟩
    rw [firstMatch?, hdouble, firstMatch?, hmatch]
    rfl

theorem string?_quoted (q : Char) (body : List Char) :
    Literal.string? (q :: body ++ [q]) = Literal.unescape? body := by
  simp [Literal.string?]

def quotedItem (text body : List Char) (marker : Marker) : Except Error Token :=
  match Literal.unescape? body with
  | some s => .ok ⟨marker, .string, some (.text (String.ofList s))⟩
  | none => .error { cause := .invalidLiteral "string escape" (String.ofList text), marker := marker }

theorem marker_of_quotedItem {text body : List Char} {marker : Marker} {t : Token}
    (h : quotedItem text body marker = .ok t) : t.marker = marker := by
  unfold quotedItem at h
  split at h
  · cases h
    rfl
  · cases h

theorem perform_quotedString (lexer : Lexer) (q : Char) (body : List Char) (marker : Marker) :
    lexer.perform .quotedString (q :: body ++ [q]) marker =
      (quotedItem (q :: body ++ [q]) body marker).map fun t => [t] := by
  rw [perform, string?_quoted, quotedItem]
  cases Literal.unescape? body <;> rfl

theorem step_quote {c : Config} {lexer : Lexer} (hlexer : ofConfig c = .ok lexer)
    (hcustom : c.custom = []) (hq : IsQuote q) {p : Place} (h : p.cursor.after = q :: cs)
    (hclosing : closing? q cs = some (body, rest)) :
    lexer.step p =
      (quotedItem (q :: body ++ [q]) body
        (p.marker (p.cursor.offset + byteSize (q :: body ++ [q])))).map fun t =>
          ([t], p.advance (q :: body ++ [q]) (p.cursor.pass (q :: body ++ [q]) rest)) := by
  obtain ⟨i, s, hs, haction, hfirst⟩ := firstOf?_base_quote hq h hclosing
  obtain ⟨hspecs, -⟩ := exists_glued_of_ofConfig hlexer (by simp [hcustom])
  have hall : lexer.specs = Spec.base ++ ((Spec.literal? c.literals).toList ++ [Spec.catchAll]) := by
    simp [hspecs, Spec.all, hcustom]
  have htry : lexer.tryEach? p.cursor = some (i, p.cursor.pass (q :: body ++ [q]) rest) := by
    rw [tryEach?, hall, firstOf?_append hfirst]
    have := q.utf8Size_pos
    simp [Cursor.pass, byteSize]
    omega
  have hafter : p.cursor.after = (q :: body ++ [q]) ++ rest := by
    rw [h, eq_append_of_closing? hclosing]
    simp
  have hlt : i < Spec.base.length := (List.getElem?_eq_some_iff.1 hs).1
  have hspec : lexer.specs[i]? = some s := by rw [hall, List.getElem?_append_left hlt, hs]
  rw [step, branch?_eq_tryEach?_of_builtin hlexer hcustom, htry, stepTo]
  simp only [Option.bind_some, hspec, Option.map_some, haction, Place.textTo_pass hafter,
    Cursor.offset_pass, perform_quotedString]
  unfold quotedItem
  cases Literal.unescape? body <;> rfl

end Lexer

namespace Scan

open Lexer Pattern Literal

variable {c : Config} {lexer : Lexer} {q : Char} {cs body rest : List Char}

theorem nextWithin_pending {s : Scan} {t : Token} {more : List Token} (h : s.pending = t :: more)
    (fuel : Nat) : nextWithin lexer fuel s = (some (.ok t), { s with pending := more }) := by
  cases fuel <;> simp only [nextWithin, h] <;> rfl

theorem next_start_of_step {name : String} {item : Except Error Token} {place : Place}
    (hne : cs ≠ [])
    (h : lexer.step (.start name (String.ofList cs)) = item.map fun t => ([t], place)) :
    (next lexer (start name (String.ofList cs))).1 = some item := by
  obtain ⟨n, hn⟩ := Nat.exists_eq_add_one_of_ne_zero fun h => hne (List.length_eq_zero_iff.1 h)
  have hlength : (Place.start name (String.ofList cs)).cursor.after.length = n + 1 := by
    simp [Place.start, Cursor.ofText, hn]
  have hend : (Place.start name (String.ofList cs)).cursor.atEnd = false := by
    simp [Place.start, Cursor.ofText, Cursor.atEnd, hne]
  rw [next, start, hlength, nextWithin]
  simp only [Bool.false_eq_true, if_false, hend, h]
  cases item with
  | error e => rfl
  | ok t => exact congrArg Prod.fst (nextWithin_pending rfl n)

theorem next_start_quote (hlexer : Lexer.ofConfig c = .ok lexer)
    (hcustom : c.custom = []) (hq : IsQuote q) (name : String)
    (hclosing : closing? q cs = some (body, rest)) :
    (next lexer (start name (String.ofList (q :: cs)))).1 =
      some (quotedItem (q :: body ++ [q]) body
        (.span name 0 (byteSize (q :: body ++ [q])) 1)) := by
  have hafter : (Place.start name (String.ofList (q :: cs))).cursor.after = q :: cs :=
    String.toList_ofList
  have hstep := step_quote hlexer hcustom hq hafter hclosing
  rw [next_start_of_step (List.cons_ne_nil q cs) hstep]
  simp only [Place.start, Place.marker, Cursor.ofText, Nat.zero_add]

/-- A text in quotes is read back, unless it ends with a backslash and the quote occurs again behind
it: then the closing quote is taken for an escaped one. -/
theorem next_quote_iff (hlexer : Lexer.ofConfig c = .ok lexer) (hcustom : c.custom = [])
    (hq : IsQuote q) (name s r : String) :
    (next lexer (start name (String.ofList (quote q s.toList) ++ r))).1 =
        some (.ok ⟨.span name 0 (byteSize (quote q s.toList)) 1, .string, some (.text s)⟩) ↔
      ¬(s.toList.getLast? = some '\\' ∧ q ∈ r.toList) := by
  have hsource : String.ofList (quote q s.toList) ++ r =
      String.ofList (q :: (escaped q s.toList ++ q :: r.toList)) := by
    rw [← String.toList_inj]
    simp [quote]
  rw [hsource]
  by_cases hlast : s.toList.getLast? = some '\\' ∧ q ∈ r.toList
  · obtain ⟨x, hx⟩ := exists_closing?_of_mem hlast.2
    have hends := closing?_escaped_of_mem hq.ne_backslash hlast.1 hx
    rw [next_start_quote hlexer hcustom hq name hends]
    refine iff_of_false (fun heq => ?_) (not_not.2 hlast)
    -- The item goes on behind the closing quote.
    have hstop := congrArg Marker.stop (marker_of_quotedItem (Option.some.inj heq))
    have := q.utf8Size_pos
    simp [Marker.span, quote, byteSize, Text.byteSize_append] at hstop
    omega
  · have hends := closing?_escaped_of_not_mem hq.ne_backslash hlast
    rw [next_start_quote hlexer hcustom hq name hends]
    refine iff_of_true ?_ hlast
    rw [quotedItem, unescape?_escaped hq]
    simp [quote]

theorem next_quote_bare :
    ∃ lexer, Lexer.ofConfig .bare = .ok lexer ∧
      (next lexer (start "" (String.ofList (quote '\'' "it\\'s".toList) ++ " 'x'"))).1 =
        some (.ok ⟨.span "" 0 (byteSize (quote '\'' "it\\'s".toList)) 1, .string,
          some (.text "it\\'s")⟩) := by
  obtain ⟨lexer, hlexer⟩ := exists_ofConfig_bare
  exact ⟨lexer, hlexer, (next_quote_iff hlexer rfl (.inr rfl) "" "it\\'s" " 'x'").2 (by decide)⟩

/-- A backslash in quotes, before a quote: the item takes both quotes and is five bytes long. -/
theorem next_quote_backslash :
    ∃ lexer, Lexer.ofConfig .bare = .ok lexer ∧ byteSize (quote '"' ['\\']) = 4 ∧
      (next lexer (start "" (String.ofList (quote '"' ['\\']) ++ "\""))).1 =
        some (.ok ⟨.span "" 0 5 1, .string, some (.text "\\\"")⟩) := by
  obtain ⟨lexer, hlexer⟩ := exists_ofConfig_bare
  refine ⟨lexer, hlexer, rfl, ?_⟩
  have hends : closing? '"' ['\\', '\\', '"', '"'] = some (['\\', '\\', '"'], []) := by decide
  have hbody : Literal.unescape? ['\\', '\\', '"'] = some ['\\', '"'] := by
    rw [unescape?_of_readPiece? rfl, unescape?_of_readPiece? rfl, unescape?]
    rfl
  have hitem := next_start_quote hlexer rfl (.inl rfl) "" hends
  rw [quotedItem, hbody] at hitem
  exact hitem

end Scan

end Packrat
