import Packrat.Proofs.Lexer.Demand
import Packrat.Proofs.Lexer.Reference

/-! Literals are tried behind words, numbers and texts in quotes. A literal that begins like one of
these never becomes a token, unless it is a keyword that is a word. -/

namespace Packrat

namespace Kind

/-! ## The kinds of a lexer -/

theorem eq_of_compare_eq_eq {j k : Kind} (h : compare j k = .eq) : j = k := by
  cases j with
  | literal s =>
    cases k with
    | literal t =>
      change compareOfLessAndEq s t = .eq at h
      by_contra hne
      have hst : s ≠ t := fun hst => hne (congrArg literal hst)
      rw [compareOfLessAndEq, if_neg hst] at h
      split at h <;> cases h
    | _ => cases h
  | _ => cases k <;> first | rfl | cases h

theorem mem_insert {j k : Kind} {ks : List Kind} : j ∈ insert k ks ↔ j = k ∨ j ∈ ks := by
  induction ks with
  | nil => simp [insert]
  | cons i rest ih =>
    rw [insert]
    split
    · rw [List.mem_cons]
    · next heq =>
      rw [eq_of_compare_eq_eq heq, List.mem_cons, or_self_left]
    · rw [List.mem_cons, ih, List.mem_cons, or_left_comm]

theorem mem_sorted {k : Kind} {ks : List Kind} : k ∈ sorted ks ↔ k ∈ ks := by
  have hfold (acc : List Kind) :
      k ∈ ks.foldl (fun acc k => insert k acc) acc ↔ k ∈ ks ∨ k ∈ acc := by
    induction ks generalizing acc with
    | nil => simp
    | cons i ks ih => rw [List.foldl_cons, ih, mem_insert, List.mem_cons, or_assoc, or_left_comm]
  simpa [sorted] using hfold []

end Kind

namespace Direct

open Literal (IsQuote)

/-! ## Texts that no rule before the literals reads from -/

def IsWord : List Char → Prop
  | [] => False
  | ch :: cs => isWordStart ch = true ∧ ∀ d ∈ cs, isWordPart d = true

def Bare : List Char → Prop
  | [] => True
  | ch :: cs => isWordStart ch = false ∧ ch.isDigit = false ∧
      (ch = '.' → cs.head?.any Char.isDigit = false) ∧ (IsQuote ch → ch ∉ cs)

instance : DecidablePred IsWord
  | [] => inferInstanceAs (Decidable False)
  | _ :: _ => inferInstanceAs (Decidable (_ ∧ _))

instance : DecidablePred IsQuote := fun _ => inferInstanceAs (Decidable (_ ∨ _))

instance : DecidablePred Bare
  | [] => inferInstanceAs (Decidable True)
  | _ :: _ => inferInstanceAs (Decidable (_ ∧ _))

variable {p : Char → Bool} {ch q : Char} {cs text : List Char} {c : Config}

theorem Bare.of_append {more : List Char} (h : Bare (text ++ more)) : Bare text := by
  cases text with
  | nil => trivial
  | cons ch cs =>
    obtain ⟨hword, hdigit, hpoint, hquote⟩ := h
    refine ⟨hword, hdigit, fun hch => ?_, fun hch hmem => hquote hch (List.mem_append_left _ hmem)⟩
    cases cs with
    | nil => rfl
    | cons d cs => exact hpoint hch

theorem run?_eq_none_iff : run? p (ch :: cs) = none ↔ p ch = false := by
  simp [run?]

theorem word?_eq_none_iff : word? (ch :: cs) = none ↔ isWordStart ch = false := by
  simp [word?]

theorem hexNumber?_eq_none (h : ch.isDigit = false) : hexNumber? (ch :: cs) = none := by
  unfold hexNumber?
  split
  · next heq =>
    cases heq
    cases h
  · rfl

theorem wholeNumber?_eq_none_iff : wholeNumber? (ch :: cs) = none ↔ ch.isDigit = false := by
  rw [wholeNumber?, Option.map_eq_none_iff, run?_eq_none_iff]

theorem fraction?_eq_none_iff (h : ch.isDigit = false) :
    fraction? (ch :: cs) = none ↔ (ch = '.' → cs.head?.any Char.isDigit = false) := by
  rw [fraction?, List.dropWhile_cons_of_neg (by simp [h])]
  by_cases hpoint : ch = '.'
  · subst hpoint
    cases cs with
    | nil => simp [run?]
    | cons d cs => simp [run?_eq_none_iff]
  · simp [hpoint]

theorem closing?_eq_none_iff : Pattern.closing? q cs = none ↔ q ∉ cs := by
  refine ⟨fun hnone hmem => ?_, fun hmem => ?_⟩
  · obtain ⟨x, hx⟩ := Pattern.exists_closing?_of_mem hmem
    rw [hnone] at hx
    cases hx
  · cases hx : Pattern.closing? q cs with
    | none => rfl
    | some x =>
      rw [Pattern.eq_append_of_closing? hx] at hmem
      simp at hmem

theorem quoted?_eq_none_iff (hq : q ≠ '\\') :
    quoted? q (ch :: cs) = none ↔ (ch = q → q ∉ cs) := by
  by_cases hch : ch = q
  · subst hch
    rw [Pattern.quoted?_self hq, Option.map_eq_none_iff, closing?_eq_none_iff]
    simp
  · simp [quoted?, hch]

def builtinRules (c : Config) : List Rule := [
  .blanks,
  .lineBreaks c.newlines,
  .word c.keywords,
  .hexNumber,
  .decimal fraction?,
  .decimal wholeNumber?,
  .quoted '"',
  .quoted '\'']

theorem first?_rules (c : Config) (cs : List Char) :
    first? (rules c) cs = (first? (builtinRules c) cs).or
      ((longest? (c.literals.map String.toList) cs).map fun text => (.literal c.literals, text)) := by
  change first? (builtinRules c ++ [.literal c.literals]) cs = _
  rw [first?, List.findSome?_append]
  congr 1
  rw [List.findSome?_singleton]
  rfl

theorem first?_builtinRules_eq_none_iff : first? (builtinRules c) (ch :: cs) = none ↔
    isBlank ch = false ∧ ch ≠ '\n' ∧ Bare (ch :: cs) := by
  have hrules : first? (builtinRules c) (ch :: cs) = none ↔
      run? isBlank (ch :: cs) = none ∧ run? (· == '\n') (ch :: cs) = none ∧ word? (ch :: cs) = none ∧
        hexNumber? (ch :: cs) = none ∧ fraction? (ch :: cs) = none ∧ wholeNumber? (ch :: cs) = none ∧
        quoted? '"' (ch :: cs) = none ∧ quoted? '\'' (ch :: cs) = none := by
    rw [first?, List.findSome?_eq_none_iff]
    simp only [builtinRules, List.forall_mem_cons, List.not_mem_nil, false_imp_iff, implies_true,
      and_true, Option.map_eq_none_iff]
    rfl
  rw [hrules]
  constructor
  · rintro ⟨hblanks, hbreaks, hword, -, hfraction, hwhole, hdouble, hsingle⟩
    have hdigit := wholeNumber?_eq_none_iff.1 hwhole
    refine ⟨run?_eq_none_iff.1 hblanks, by simpa using run?_eq_none_iff.1 hbreaks,
      word?_eq_none_iff.1 hword, hdigit, (fraction?_eq_none_iff hdigit).1 hfraction, ?_⟩
    rintro (rfl | rfl)
    · exact (quoted?_eq_none_iff (by decide)).1 hdouble rfl
    · exact (quoted?_eq_none_iff (by decide)).1 hsingle rfl
  · rintro ⟨hblank, hbreak, hword, hdigit, hpoint, hquote⟩
    refine ⟨run?_eq_none_iff.2 hblank, run?_eq_none_iff.2 (by simpa using hbreak),
      word?_eq_none_iff.2 hword, hexNumber?_eq_none hdigit, (fraction?_eq_none_iff hdigit).2 hpoint,
      wholeNumber?_eq_none_iff.2 hdigit, (quoted?_eq_none_iff (by decide)).2 fun hch => ?_,
      (quoted?_eq_none_iff (by decide)).2 fun hch => ?_⟩
    · exact hch ▸ hquote (.inl hch)
    · exact hch ▸ hquote (.inr hch)

/-! ## Literals that become tokens -/

theorem longest?_self {texts : List (List Char)} (h : text ∈ texts) :
    longest? texts text = some text :=
  longest?_eq_some_iff.2 ⟨h, List.prefix_rfl, fun _ _ hother => hother.length_le⟩

theorem IsWord.word?_eq (h : IsWord text) : word? text = some text := by
  cases text with
  | nil => cases h
  | cons ch cs => rw [word?, if_pos h.1, List.takeWhile_eq_self_iff.2 h.2]

theorem isWord_of_word? (h : word? cs = some text) : IsWord text := by
  cases cs with
  | nil => cases h
  | cons ch cs =>
    rw [word?] at h
    split at h
    · next hch =>
      cases h
      exact ⟨hch, fun d hd => List.mem_takeWhile_imp hd⟩
    · cases h

theorem kind_of_ofValue {kind : Kind} {name : String} {value? : List Char → Option Payload}
    {read? : List Char → Option (List Char)} {marker : Marker} {t : Token}
    (h : (Rule.ofValue kind name value? read?).token? text marker = .ok (some t)) : t.kind = kind := by
  dsimp only [Rule.ofValue] at h
  split at h <;> cases h
  rfl

end Direct

open Direct

/-- A literal that no other rule takes from: a keyword that is a word, or a text that begins with no
word, no number and no text in quotes. -/
def Config.Unshadowed (c : Config) (l : String) : Prop :=
  l ∈ c.keywords ∧ IsWord l.toList ∨ Bare l.toList

instance (c : Config) : DecidablePred c.Unshadowed := fun _ => inferInstanceAs (Decidable (_ ∨ _))

namespace Direct

variable {ch : Char} {cs text : List Char} {c : Config} {l : String}

theorem unshadowed_of_builtinRules {rule : Rule} (hrule : rule ∈ builtinRules c)
    (htext : rule.read? cs = some text) {marker : Marker} {t : Token}
    (h : rule.token? text marker = .ok (some t)) (hkind : t.kind = .literal l) : c.Unshadowed l := by
  simp only [builtinRules, List.mem_cons, List.not_mem_nil, or_false] at hrule
  rcases hrule with rfl | rfl | rfl | rfl | rfl | rfl | rfl | rfl
  · cases h
  · have ht := Except.ok.inj h
    split at ht
    · cases ht
    · cases ht
      cases hkind
  · obtain rfl := Option.some.inj (Except.ok.inj h)
    split at hkind
    · next hkeyword =>
      cases hkind
      exact .inl ⟨hkeyword, String.toList_ofList ▸ isWord_of_word? htext⟩
    · cases hkind
  · exact nomatch hkind.symm.trans (kind_of_ofValue h)
  · exact nomatch hkind.symm.trans (kind_of_ofValue h)
  · exact nomatch hkind.symm.trans (kind_of_ofValue h)
  · exact nomatch hkind.symm.trans (kind_of_ofValue h)
  · exact nomatch hkind.symm.trans (kind_of_ofValue h)

theorem unshadowed_of_item {marker : Marker} {t : Token}
    (h : (item c ch cs).2 marker = .ok (some t)) (hkind : t.kind = .literal l) : c.Unshadowed l := by
  rw [item] at h
  cases hfirst : first? (builtinRules c) (ch :: cs) with
  | some x =>
    obtain ⟨rule, text⟩ := x
    rw [first?_rules, hfirst] at h
    obtain ⟨rule', hmem, hread⟩ := List.exists_of_findSome?_eq_some hfirst
    obtain ⟨text', htext, hx⟩ := Option.map_eq_some_iff.1 hread
    cases hx
    exact unshadowed_of_builtinRules hmem htext h hkind
  | none =>
    rw [first?_rules, hfirst, Option.none_or] at h
    cases hlongest : longest? (c.literals.map String.toList) (ch :: cs) with
    | none =>
      rw [hlongest] at h
      cases h
    | some text =>
      rw [hlongest] at h
      obtain rfl := Option.some.inj (Except.ok.inj h)
      cases hkind
      -- No rule before the literals reads from the text in front, so none reads from the literal.
      obtain ⟨-, ⟨more, hmore⟩, -⟩ := longest?_eq_some_iff.1 hlongest
      obtain ⟨-, -, hbare⟩ := first?_builtinRules_eq_none_iff.1 hfirst
      rw [← hmore] at hbare
      exact .inr (String.toList_ofList ▸ hbare.of_append)

theorem item_self (hblank : isBlank ch = false) (hbreak : ch ≠ '\n') (hl : l ∈ c.literals)
    (hcs : l.toList = ch :: cs) (h : c.Unshadowed l) :
    item c ch cs = (ch :: cs, fun marker => .ok (some ⟨marker, .literal l, none⟩)) := by
  have htext : String.ofList (ch :: cs) = l := by rw [← hcs, String.ofList_toList]
  rw [item, first?_rules]
  rcases h with ⟨hkeyword, hword⟩ | hbare
  · rw [hcs] at hword
    have hfirst : first? (builtinRules c) (ch :: cs) = some (.word c.keywords, ch :: cs) := by
      have hblanks : run? isBlank (ch :: cs) = none := run?_eq_none_iff.2 hblank
      have hbreaks : run? (· == '\n') (ch :: cs) = none := run?_eq_none_iff.2 (by simpa using hbreak)
      simp [first?, builtinRules, Rule.blanks, Rule.lineBreaks, Rule.word, hblanks, hbreaks,
        hword.word?_eq]
    rw [hfirst]
    simp only [Option.some_or, Rule.word, htext, hkeyword, if_true]
    rfl
  · rw [hcs] at hbare
    have hlongest := longest?_self (List.mem_map_of_mem (f := String.toList) hl)
    rw [first?_builtinRules_eq_none_iff.2 ⟨hblank, hbreak, hbare⟩, Option.none_or, ← hcs, hlongest]
    simp only [Option.map_some, Rule.literal, String.ofList_toList]
    rfl

end Direct

namespace Lexer

variable {c : Config} {lexer : Lexer} {l : String}

theorem literal_mem_kinds_iff (h : ofConfig c = .ok lexer) (hcustom : c.custom = []) :
    .literal l ∈ lexer.kinds ↔ l ∈ c.literals := by
  rw [(serves_of_ofConfig h).kinds, Kind.mem_sorted, hcustom]
  simp [Kind.categories]

theorem unshadowed_of_scan (h : ofConfig c = .ok lexer) (hcustom : c.custom = []) {n : Nat}
    {source text : String} {t : Token} (ht : Scan.item lexer n (.start source text) = some (.ok t))
    (hkind : t.kind = .literal l) : c.Unshadowed l := by
  obtain ⟨given, last, hruns⟩ := lexer.exists_runs (.start source text)
  rw [Scan.item_eq, Scan.rest_of_runs rfl hruns] at ht
  have hmem : .ok t ∈ (lexer.kept given).map .ok ++ [last] := List.mem_of_getElem? ht
  rcases List.mem_append.1 hmem with hkept | hlast
  · obtain ⟨t', ht', heq⟩ := List.mem_map.1 hkept
    cases heq
    obtain ⟨reached, next, tokens, hafter, hstep, htokens⟩ := hruns.exists_step ht'
    obtain ⟨ch, cs, hcs⟩ := List.exists_cons_of_ne_nil hafter
    obtain ⟨-, rest, -, hitem⟩ := step_eq_item h hcustom hcs
    rw [hitem] at hstep
    obtain ⟨token?, htoken, heq⟩ := map_eq_ok.1 hstep
    cases heq
    exact unshadowed_of_item (Option.mem_toList.1 htokens ▸ htoken) hkind
  · obtain rfl := List.mem_singleton.1 hlast
    rcases hruns.last_cases (Place.at_start source text) with hend | ⟨-, e, -, -, he⟩
    · cases hend
      cases hkind
    · cases he

theorem not_isBlank_of_text {d : Char} (h : Text.isBlank d = false) :
    Direct.isBlank d = false ∧ d ≠ '\n' := by
  constructor
  · by_contra hblank
    have hd : d = ' ' ∨ d = '\t' ∨ d = '\r' := by
      simpa [Direct.isBlank, or_iff_not_imp_left] using hblank
    rcases hd with rfl | rfl | rfl <;> cases h
  · rintro rfl
    cases h

theorem list_self (h : ofConfig c = .ok lexer) (hcustom : c.custom = []) (hl : l ∈ c.literals)
    (hunshadowed : c.Unshadowed l) (source : String) :
    lexer.list source l = .ok [⟨.span source 0 l.utf8ByteSize 1, .literal l, none⟩,
      ⟨.span source l.utf8ByteSize l.utf8ByteSize 1, .eof, none⟩] := by
  have hblank {d : Char} (hd : d ∈ l.toList) := not_isBlank_of_text (not_isBlank_of_ofConfig h hl hd)
  have hlines : l.toList.count '\n' = 0 := List.count_eq_zero.2 fun hmem => (hblank hmem).2 rfl
  obtain ⟨ch, cs, hcs⟩ : ∃ ch cs, l.toList = ch :: cs :=
    List.exists_cons_of_ne_nil fun hnil =>
      ne_empty_of_ofConfig h l hl (String.toList_eq_nil_iff.1 hnil)
  obtain ⟨hch, hbreak⟩ := hblank (hcs ▸ List.mem_cons_self)
  have hrest : cs.drop ((ch :: cs).length - 1) = [] := List.drop_length
  rw [list_eq_scanFrom h hcustom, hcs, scanFrom_cons, item_self hch hbreak hl hcs hunshadowed, hrest,
    scanFrom, ← hcs, hlines, Text.byteSize_toList, Nat.zero_add]
  rfl

/-- The literals are kinds of the lexer. Such a literal is one token where it is all of the text if
and only if it is not shadowed, and a shadowed literal is a token of no text. -/
theorem list_self_iff (h : ofConfig c = .ok lexer) (hcustom : c.custom = []) :
    (∀ l, .literal l ∈ lexer.kinds ↔ l ∈ c.literals) ∧
      ∀ l ∈ c.literals, ∀ source,
        (lexer.list source l = .ok [⟨.span source 0 l.utf8ByteSize 1, .literal l, none⟩,
          ⟨.span source l.utf8ByteSize l.utf8ByteSize 1, .eof, none⟩] ↔ c.Unshadowed l) ∧
        ((∃ text n t, Scan.item lexer n (.start source text) = some (.ok t) ∧ t.kind = .literal l) ↔
          c.Unshadowed l) := by
  refine ⟨fun l => literal_mem_kinds_iff h hcustom, fun l hl source =>
    ⟨⟨fun hlist => ?_, fun hl' => ?_⟩, ⟨?_, fun hl' => ?_⟩⟩⟩
  · exact unshadowed_of_scan h hcustom (Scan.item_of_list hlist 0) rfl
  · exact list_self h hcustom hl hl' source
  · rintro ⟨text, n, t, ht, hkind⟩
    exact unshadowed_of_scan h hcustom ht hkind
  · exact ⟨l, 0, _, Scan.item_of_list (list_self h hcustom hl hl' source) 0, rfl⟩

theorem list_self_iff_quote :
    ∃ lexer, ofConfig { keywords := ["if", "it's"], symbols := ["'", "1."] } = .ok lexer ∧
      lexer.list "" "'" = .ok [⟨.span "" 0 1 1, .literal "'", none⟩, ⟨.span "" 1 1 1, .eof, none⟩] ∧
      (.literal "it's" ∈ lexer.kinds ∧ ¬∃ text n t,
        Scan.item lexer n (.start "" text) = some (.ok t) ∧ t.kind = .literal "it's") := by
  obtain ⟨lexer, h⟩ := (exists_ofConfig_iff (c := {
      keywords := ["if", "it's"]
      symbols := ["'", "1."] }) rfl).2 (by decide)
  obtain ⟨hkinds, hself⟩ := list_self_iff h rfl
  refine ⟨lexer, h, (hself "'" (by decide) "").1.2 (by decide), (hkinds "it's").2 (by decide), ?_⟩
  rw [(hself "it's" (by decide) "").2]
  simp [Config.Unshadowed, IsWord, Bare, isWordStart, isWordPart]

/-- A symbol that is a word is read as a name, and it is a token of no text. -/
theorem list_word_symbol :
    ∃ lexer, ofConfig { keywords := [], symbols := ["ab"] } = .ok lexer ∧
      .literal "ab" ∈ lexer.kinds ∧
      lexer.list "" "ab" =
        .ok [⟨.span "" 0 2 1, .name, some (.text "ab")⟩, ⟨.span "" 2 2 1, .eof, none⟩] ∧
      ¬∃ source text n t, Scan.item lexer n (.start source text) = some (.ok t) ∧
        t.kind = .literal "ab" := by
  obtain ⟨lexer, h⟩ := (exists_ofConfig_iff (c := { keywords := [], symbols := ["ab"] }) rfl).2
    (by decide)
  refine ⟨lexer, h, (literal_mem_kinds_iff h rfl).2 (by decide), ?_, ?_⟩
  · rw [list_eq_scanFrom h rfl]
    change scanFrom _ "" 0 1 ['a', 'b'] = _
    rw [scanFrom_cons]
    change (scanFrom _ "" 2 1 []).map _ = _
    rw [scanFrom]
    rfl
  · rintro ⟨source, text, n, t, ht, hkind⟩
    have hab := unshadowed_of_scan h rfl ht hkind
    simp [Config.Unshadowed, Bare, isWordStart] at hab

end Lexer

end Packrat
